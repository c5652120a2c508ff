import Leasehold.Number.Decimal

/-! # Reading binary fractions -/

namespace Leasehold.Number

/-- The double nearest to `n · 10 ^ e`; numbers beyond the range of doubles are not computed out. -/
def floatOfDecimal (n : Nat) (e : Int) : Float :=
  let size : Int := e + (toString n).length
  if n = 0 || size < -400 then 0.0
  else if 400 < size then 1.0 / 0.0
  else Float.ofScientific n (e < 0) e.natAbs

/-- The double nearest to an integer, if it is in the range of the doubles. -/
def floatOfInt? (n : Int) : Option Float :=
  let x := floatOfDecimal n.natAbs 0
  if x.isInf then none else some (if n < 0 then -x else x)

/-- A digit of any script as an ASCII digit; other characters stay. -/
def asciiDigit (c : Char) : Char :=
  match Text.digit? c with
  | some d => Char.ofNat ('0'.toNat + d)
  | none => c

/-- The double that a text writes: a numeral with digits of any script, with or without point and
exponent, or the name of a special value; blanks around it are dropped. -/
def ofFraction? (s : String) : Option Float :=
  let cs := (Text.trim Text.isBlank s.toList).map asciiDigit
  let negative := cs.head? = some '-'
  if cs.any fun c => c.toLower = 's' then none
  else match Decimal.ofText? (String.ofList cs) with
    | some (.finite n e) => let x := floatOfDecimal n.natAbs e; some (if negative then -x else x)
    | some (.infinite _) => some (if negative then -1.0 / 0.0 else 1.0 / 0.0)
    | some .nan => some (0.0 / 0.0)
    | none => none

end Leasehold.Number
