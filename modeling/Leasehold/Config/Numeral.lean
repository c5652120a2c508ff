import Leasehold.Number.Error
import Leasehold.Text.Blank

/-! # Numerals in settings

A text stands for an integer when, without its decoration, it is an optional minus and digits that
begin with no zero. The decoration is blanks around the text, a plus sign, leading zeros, a point
with zeros behind it, and single underscores between digits. Leading zeros may have underscores
among them and a minus behind them. -/

namespace Leasehold.Config.Numeral

inductive Refusal where
  | malformed
  | tooLong
deriving DecidableEq, Repr

/-- What a number without leading zeros begins with. -/
def beginsNumber (c : Char) : Bool := c = '-' || ('1' ≤ c && c ≤ '9')

/-- What is left after a leading zero. `last` is the zero or underscore before this place; it stays
where nothing or a point follows. -/
def afterZero (last : Char) : List Char → Option (List Char)
  | [] => some [last]
  | c :: cs =>
    if c = '0' || c = '_' then afterZero c cs
    else if c = '.' then some (last :: c :: cs)
    else if beginsNumber c then some (c :: cs)
    else none

/-- A text without leading zeros, if it begins like a number. -/
def dropZeros : List Char → Option (List Char)
  | [] => none
  | c :: cs => if c = '0' then afterZero c cs else if beginsNumber c then some (c :: cs) else none

/-- A text without a point that only zeros follow. -/
def dropPlaces (cs : List Char) : List Char :=
  match cs.dropWhile (· ≠ '.') with
  | _ :: places => if !places.isEmpty && places.all (· = '0') then cs.takeWhile (· ≠ '.') else cs
  | [] => cs

/-- Whether every underscore has a character other than an underscore on either side. -/
def barsSeparate : (afterBar : Bool) → List Char → Bool
  | afterBar, [] => !afterBar
  | afterBar, c :: cs => if c = '_' then !afterBar && barsSeparate true cs else barsSeparate false cs

def dropBars (cs : List Char) : List Char := if barsSeparate true cs then cs.filter (· ≠ '_') else cs

/-- The natural number of digits without a leading zero, or of a single zero; `room` is the greatest
number of digits. -/
def natural (room : Nat) (cs : List Char) : Except Refusal Nat :=
  let digits := cs.takeWhile Char.isDigit
  if digits.isEmpty || (digits.head? = some '0' && digits.length ≠ 1) then .error .malformed
  else if room < digits.length then .error .tooLong
  else if digits.length ≠ cs.length then .error .malformed
  else .ok (digits.foldl (fun n c => 10 * n + (c.toNat - '0'.toNat)) 0)

/-- The integer of a text without decoration. A minus takes the room of a digit. -/
def integer : List Char → Except Refusal Int
  | '-' :: cs => (fun n : Nat => -(n : Int)) <$> natural (maxDigits - 1) cs
  | cs => (fun n : Nat => (n : Int)) <$> natural maxDigits cs

/-- A text without a plus sign, which no minus may follow. -/
def dropPlus : List Char → Option (List Char)
  | '+' :: '-' :: _ => none
  | '+' :: cs => some cs
  | cs => some cs

def undecorated (cs : List Char) : Option (List Char) := do
  let plain (cs : List Char) : Option (List Char) := (dropZeros cs).map fun cs => dropBars (dropPlaces cs)
  match ← dropPlus (Text.trim Text.isBlank cs) with
  | '-' :: cs => (plain cs).map ('-' :: ·)
  | cs => plain cs

def read (s : String) : Except Refusal Int :=
  match undecorated s.toList with
  | some cs => integer cs
  | none => .error .malformed

end Leasehold.Config.Numeral
