import Leasehold.Number.Error
import Leasehold.Text.Digit
import Leasehold.Text.Hex
import Leasehold.Text.Blank

/-! # Integer numerals

A numeral is an optional sign and decimal digits of any script, single underscores allowed between
digits, blanks allowed around it all. Numerals of more than `maxDigits` digits are refused. -/

namespace Leasehold.Number

/-- The digits at the front of `cs`, with single underscores between them skipped: their count,
their value and what follows. `none` when an underscore is doubled or stands at either end of the
digits. -/
def digitRun (digit? : Char → Option Nat) (radix : Nat) :
    (cs : List Char) → (count value : Nat) → (afterUnderscore : Bool) → Option (Nat × Nat × List Char)
  | [], count, value, under => if under then none else some (count, value, [])
  | c :: cs, count, value, under =>
    if c = '_' then if under || count = 0 then none else digitRun digit? radix cs count value true
    else match digit? c with
      | some d => digitRun digit? radix cs (count + 1) (radix * value + d) false
      | none => if under then none else some (count, value, c :: cs)

def ofNumeral (s : String) : Except NumberError Int :=
  let cs := s.toList.dropWhile Text.isBlank
  let (negative, body) := match cs with
    | '-' :: r => (true, r)
    | '+' :: r => (false, r)
    | r => (false, r)
  match digitRun Text.digit? 10 body 0 0 false with
  | none => .error (.notNumeral 10 s)
  | some (count, value, rest) =>
    if count = 0 then .error (.notNumeral 10 s)
    else if maxDigits < count then .error (.tooLong count)
    else if (rest.dropWhile Text.isBlank).isEmpty then .ok (if negative then -(value : Int) else value)
    else .error (.notNumeral 10 s)

/-- A digit in a radix: a decimal digit of any script, or a letter. -/
def radixDigit? (radix : Nat) (c : Char) : Option Nat :=
  ((Text.digit? c).or (Text.hexValue? c)).filter (· < radix)

/-- The letter that announces a radix after a zero. -/
def radixLetter : Nat → Char
  | 2 => 'b'
  | 8 => 'o'
  | _ => 'x'

/-- The integer that a text writes in radix 2, 8 or 16. The radix may be announced, and the number
of digits is not limited. -/
def ofRadixNumeral (radix : Nat) (s : String) : Except NumberError Int :=
  let cs := Text.trim Text.isBlank s.toList
  let (negative, body) := match cs with
    | '-' :: r => (true, r)
    | '+' :: r => (false, r)
    | r => (false, r)
  let body := match body with
    | '0' :: letter :: r => if letter.toLower = radixLetter radix then r else body
    | _ => body
  match digitRun (radixDigit? radix) radix body 0 0 false with
  | some (count, value, []) =>
    if count = 0 then .error (.notNumeral radix s) else .ok (if negative then -(value : Int) else value)
  | _ => .error (.notNumeral radix s)

/-- Whether an integer has more than `maxDigits` digits. -/
def isTooLong (n : Int) : Bool := Nat.pow 10 maxDigits ≤ n.natAbs

end Leasehold.Number
