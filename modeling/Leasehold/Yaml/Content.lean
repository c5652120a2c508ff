import Leasehold.Number.Fraction
import Leasehold.Text.LowerCase
import Leasehold.Value
import Leasehold.Yaml.Tag

/-! # Values of scalars

The tag of a scalar says how its text is read. A text that has the form of its type may still name
no value: a date that does not exist, or digits of which only underscores are left. -/

namespace Leasehold.Yaml.Content

def dropBars (text : String) : List Char := text.toList.filter (· ≠ '_')

/-- A sign at the front, and what follows it. An empty text has no front. -/
def takeSign : List Char → Except Fault (Bool × List Char)
  | [] => .error .emptyText
  | '-' :: r => .ok (true, r)
  | '+' :: r => .ok (false, r)
  | r => .ok (false, r)

def parts (cs : List Char) : List String := (String.ofList cs).splitOn ":"

/-- The number that digits in base sixty write. -/
def sixties (digits : List Int) : Int := digits.foldl (fun n d => 60 * n + d) 0

def ofNumberError {α : Type} : Except NumberError α → Except Fault α
  | .ok a => .ok a
  | .error e => .error (.number e)

def toInt (text : String) : Except Fault Int := do
  let (negative, cs) ← takeSign (dropBars text)
  let numeral := String.ofList cs
  let n ← match cs with
    | [] => throw .emptyText
    | ['0'] => pure 0
    | '0' :: 'b' :: r => ofNumberError (Number.ofRadixNumeral 2 (String.ofList r))
    | '0' :: 'x' :: r => ofNumberError (Number.ofRadixNumeral 16 (String.ofList r))
    | '0' :: _ => ofNumberError (Number.ofRadixNumeral 8 numeral)
    | _ =>
      if cs.contains ':' then do
        let digits ← (parts cs).mapM fun p => ofNumberError (Number.ofNumeral p)
        pure (sixties digits)
      else ofNumberError (Number.ofNumeral numeral)
  return if negative then -n else n

def fraction (text : String) : Except Fault Float :=
  match Number.ofFraction? text with
  | some x => .ok x
  | none => .error (.notFraction text)

/-- The number that digits in base sixty write, least digit first, as a sum from the least on. Every
power of sixty that counts must be in the range of the doubles. -/
def sixtiesFrom : (power : Nat) → List Float → (sum : Float) → Except Fault Float
  | _, [], sum => .ok sum
  | power, d :: ds, sum =>
    match Number.floatOfInt? power with
    | some x => sixtiesFrom (60 * power) ds (sum + d * x)
    | none => .error .integerTooLarge

def toFloat (text : String) : Except Fault Float := do
  let (negative, cs) ← takeSign (Text.lowerCase (dropBars text))
  let x ←
    if cs = ".inf".toList then pure (1.0 / 0.0)
    else if cs = ".nan".toList then pure (0.0 / 0.0)
    else if cs.contains ':' then do
      let digits ← (parts cs).mapM fraction
      sixtiesFrom 1 digits.reverse 0.0
    else fraction (String.ofList cs)
  return if negative then -x else x

def toBool (text : String) : Except Fault Bool :=
  let word := String.ofList (Text.lowerCase text.toList)
  if ["yes", "true", "on"].contains word then .ok true
  else if ["no", "false", "off"].contains word then .ok false
  else .error (.missing word)

def moment? (text : String) : Option Moment := Tag.moment? (Tag.withoutFeed text.toList)

def toInstant (text : String) : Except Fault Int :=
  match moment? text with
  | none => .error (.withoutMember "NoneType" "groupdict")
  | some m => match m.error? with
    | some e => .error (.calendar e)
    | none => .ok m.epochSeconds

/-- The six bits that a character of the base64 alphabet stands for. -/
def sextet? (c : Char) : Option Nat :=
  if 'A' ≤ c && c ≤ 'Z' then some (c.toNat - 'A'.toNat)
  else if 'a' ≤ c && c ≤ 'z' then some (c.toNat - 'a'.toNat + 26)
  else if '0' ≤ c && c ≤ '9' then some (c.toNat - '0'.toNat + 52)
  else if c = '+' then some 62
  else if c = '/' then some 63
  else none

/-- Bytes from base64. `place` counts the characters of the present group of four, `left` are the
bits of the last one that no byte has yet. Characters of no meaning are skipped, and padding ends
the bytes. -/
def bytesFrom : List Char → (place left pads : Nat) → (acc : List UInt8) → Option (List UInt8)
  | [], place, _, _, acc => if place = 0 then some acc.reverse else none
  | c :: cs, place, left, pads, acc =>
    if c = '=' then
      if place < 2 then bytesFrom cs place left pads acc
      else if 4 ≤ place + pads + 1 then some acc.reverse
      else bytesFrom cs place left (pads + 1) acc
    else match sextet? c with
      | none => bytesFrom cs place left pads acc
      | some n =>
        match place with
        | 0 => bytesFrom cs 1 n 0 acc
        | 1 => bytesFrom cs 2 (n % 16) 0 (UInt8.ofNat (left * 4 + n / 16) :: acc)
        | 2 => bytesFrom cs 3 (n % 4) 0 (UInt8.ofNat (left * 16 + n / 4) :: acc)
        | _ => bytesFrom cs 0 0 0 (UInt8.ofNat (left * 64 + n) :: acc)

def toBytes (text : String) : Except Trouble (List UInt8) :=
  if text.toList.all fun c => c.toNat < 0x80 then
    match bytesFrom text.toList 0 0 0 [] with
    | some bytes => .ok bytes
    | none => .error .markup
  else .error .markup

def ofFault {α : Type} : Except Fault α → Except Trouble α
  | .ok a => .ok a
  | .error f => .error (.fault f)

/-- The value of a scalar; only tags of scalars have one. -/
def value (tag text : String) : Except Trouble Value :=
  if tag = Tag.str then .ok (.text text)
  else if tag = Tag.null then .ok .null
  else if tag = Tag.bool then .bool <$> ofFault (toBool text)
  else if tag = Tag.int then .int <$> ofFault (toInt text)
  else if tag = Tag.float then .float <$> ofFault (toFloat text)
  else if tag = Tag.timestamp then .instant <$> ofFault (toInstant text)
  else if tag = Tag.binary then .bytes <$> toBytes text
  else .error .markup

/-! ### Keys

Maps are kept by texts. A key that is no text is filed under a text of its own, which begins with a
mark, and a text that begins with the mark is marked once more. Keys that count as one are filed as
one: `1`, `1.0` and `true`, or one point in time in two zones. -/

def mark : Char := '\x00'

def marked (s : String) : String := String.ofList (mark :: s.toList)

/-- A number by what it is worth. -/
def floatKey (x : Float) : String :=
  let b := Binary.ofFloat x
  match b.truncate with
  | .ok n => if b.isIntegral then toString n else Number.floatText x
  | .error _ => Number.floatText x

/-- A date, a time of no zone and a time of some zone are never one key. -/
def momentKey (m : Moment) : String :=
  let kind := if m.time.isNone then "date" else if m.zoned then "zoned" else "local"
  kind ++ " " ++ toString m.epochSeconds ++ " " ++ toString m.micros

/-- What a scalar of the text and value is filed under. -/
def key (text : String) : Value → String
  | .text s => if s.toList.head? = some mark then marked s else s
  | .bool b => marked (if b then "1" else "0")
  | .int n => marked (toString n)
  | .float x => marked (floatKey x)
  | .bytes octets => marked ("bytes " ++ toString octets)
  | .instant _ => marked ((moment? text).elim "" momentKey)
  | v => marked v.kind

/-- What is filed under a text without the mark is that text. -/
theorem key_eq_iff {s : String} (hs : s.toList.head? ≠ some mark) (text : String) (v : Value) :
    key text v = s ↔ v = .text s := by
  have hmarked (t : String) : marked t ≠ s := by
    rintro rfl
    exact hs (congrArg List.head? String.toList_ofList)
  cases v with
  | text t =>
    simp only [key, Value.text.injEq]
    split
    · rename_i ht
      exact iff_of_false (hmarked t) (by rintro rfl; exact hs ht)
    · rfl
  | _ => exact iff_of_false (hmarked _) (by rintro ⟨⟩)

end Leasehold.Yaml.Content
