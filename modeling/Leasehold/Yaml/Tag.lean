import Leasehold.Moment
import Leasehold.Yaml.Cursor

/-! # Tags

A tag names the type of a node. A plain scalar without a tag gets one from its text: truth values,
numbers, dates and null have forms of their own, and everything else is a text. -/

namespace Leasehold.Yaml.Tag

/-- The tags of the core types begin with this. -/
def core : String := "tag:yaml.org,2002:"

def null : String := core ++ "null"
def bool : String := core ++ "bool"
def int : String := core ++ "int"
def float : String := core ++ "float"
def binary : String := core ++ "binary"
def timestamp : String := core ++ "timestamp"
def str : String := core ++ "str"
def seq : String := core ++ "seq"
def map : String := core ++ "map"
def set : String := core ++ "set"
def omap : String := core ++ "omap"
def pairs : String := core ++ "pairs"
/-- The key under which a map merges others into itself. -/
def merge : String := core ++ "merge"
/-- The key under which a map keeps the value it stands for. -/
def value : String := core ++ "value"
/-- The tag of a sign that the markup uses. No value has it. -/
def markup : String := core ++ "yaml"

/-! ### Forms of plain scalars -/

/-- A word in lower case, with a capital, or in capitals. -/
def isWord (words : List String) (cs : List Char) : Bool :=
  words.any fun w => match w.toList with
    | [] => cs.isEmpty
    | c :: r => cs = c :: r || cs = c.toUpper :: r || cs = (c :: r).map Char.toUpper

def dropSign : List Char → List Char
  | '-' :: r => r
  | '+' :: r => r
  | r => r

def isDigitOrBar (c : Char) : Bool := c.isDigit || c = '_'

/-- Groups of a colon and a number below sixty, of one or two digits. -/
def isSixties : List Char → Bool
  | [] => true
  | [':', a] => a.isDigit
  | ':' :: a :: b :: r =>
    a.isDigit && (if b = ':' then isSixties (b :: r) else a ≤ '5' && b.isDigit && isSixties r)
  | _ => false
termination_by cs => cs.length

/-- Binary, octal, decimal, hexadecimal or in base sixty. -/
def isInt (cs : List Char) : Bool :=
  match dropSign cs with
  | '0' :: 'b' :: r => !r.isEmpty && r.all fun c => c = '0' || c = '1' || c = '_'
  | '0' :: 'x' :: r => !r.isEmpty && r.all fun c => (Text.hexValue? c).isSome || c = '_'
  | '0' :: r => r.all fun c => ('0' ≤ c && c ≤ '7') || c = '_'
  | c :: r => c.isDigit && isSixties (r.dropWhile isDigitOrBar)
  | [] => false

/-- Nothing, or an exponent with its sign. -/
def isExponent : List Char → Bool
  | [] => true
  | e :: s :: r => (e = 'e' || e = 'E') && (s = '-' || s = '+') && !r.isEmpty && r.all Char.isDigit
  | _ => false

/-- A number with a point, in base ten or sixty, or a special value. -/
def isFloat (cs : List Char) : Bool :=
  let body := dropSign cs
  match body with
  | '.' :: r =>
    isWord ["inf"] r
      || (cs = body && (r = "nan".toList || r = "NaN".toList || r = "NAN".toList
        || (r.head?.any Char.isDigit && isExponent (r.dropWhile isDigitOrBar))))
  | c :: r =>
    c.isDigit && match r.dropWhile isDigitOrBar with
      | '.' :: places => isExponent (places.dropWhile isDigitOrBar)
      | rest =>
        let sixties := rest.takeWhile (· ≠ '.')
        !sixties.isEmpty && isSixties sixties && match rest.dropWhile (· ≠ '.') with
          | '.' :: places => places.all isDigitOrBar
          | _ => false
  | [] => false

def isNull (cs : List Char) : Bool := cs = ['~'] || isWord ["null", ""] cs

/-- One or two digits at the front, and what follows them. -/
def shortNumber : List Char → Option (Nat × List Char)
  | a :: r =>
    if a.isDigit then
      let n := a.toNat - '0'.toNat
      match r with
      | b :: r' => if b.isDigit then some (10 * n + (b.toNat - '0'.toNat), r') else some (n, r)
      | [] => some (n, [])
    else none
  | [] => none

def twoDigits : List Char → Option (Nat × List Char)
  | a :: b :: r => if a.isDigit && b.isDigit then shortNumber (a :: b :: r) else none
  | _ => none

def expect (c : Char) : List Char → Option (List Char)
  | [] => none
  | d :: r => if c = d then some r else none

def zone? (cs : List Char) : Option Int :=
  match cs with
  | [] => some 0
  | _ => match cs.dropWhile isSpaceOrTab with
    | ['Z'] => some 0
    | sign :: r => do
      if sign ≠ '-' && sign ≠ '+' then none
      let (hours, r) ← shortNumber r
      let minutes ← match r with
        | [] => some 0
        | ':' :: r => match twoDigits r with
          | some (n, []) => some n
          | _ => none
        | _ => none
      let total : Int := hours * 60 + minutes
      return if sign = '-' then -total else total
    | [] => none

/-- The millionth parts of a second that the digits after a point write; further digits do not
count. -/
def micros (digits : List Char) : Nat :=
  ((digits ++ List.replicate 6 '0').take 6).foldl (fun n c => 10 * n + (c.toNat - '0'.toNat)) 0

/-- The moment that a text writes: a date, and perhaps a time with fraction and zone. -/
def moment? (cs : List Char) : Option Moment := do
  let (century, r) ← twoDigits cs
  let (years, r) ← twoDigits r
  let (month, r) ← shortNumber (← expect '-' r)
  let (day, r) ← shortNumber (← expect '-' r)
  let date : Moment := { year := 100 * century + years, month, day }
  if r.isEmpty then return date
  let r ← match r with
    | 'T' :: r => some r
    | 't' :: r => some r
    | _ => if r.head?.any isSpaceOrTab then some (r.dropWhile isSpaceOrTab) else none
  let (hour, r) ← shortNumber r
  let (minute, r) ← twoDigits (← expect ':' r)
  let (second, r) ← twoDigits (← expect ':' r)
  let (fraction, r) := match r with
    | '.' :: r => r.span Char.isDigit
    | _ => ([], r)
  let offset ← zone? r
  return { date with time := some (hour, minute, second), micros := micros fraction,
                     zoned := !r.isEmpty, offset }

/-- Whether a plain text is a moment. A date on its own has month and day in two digits. -/
def isMoment (cs : List Char) : Bool :=
  match moment? cs with
  | some m => m.time.isSome || cs.length = 10
  | none => false

/-- A text without a line feed at its end. -/
def withoutFeed (cs : List Char) : List Char :=
  match cs.reverse with
  | '\n' :: r => r.reverse
  | _ => cs

def ofPlain (text : String) : String :=
  let cs := if text = "\n" then text.toList else withoutFeed text.toList
  if isWord ["yes", "no", "true", "false", "on", "off"] cs then bool
  else if isFloat cs then float
  else if isInt cs then int
  else if cs = ['<', '<'] then merge
  else if isNull cs then null
  else if isMoment cs then timestamp
  else if cs = ['='] then value
  else if cs = ['!'] || cs = ['&'] || cs = ['*'] then markup
  else str

end Leasehold.Yaml.Tag
