import Leasehold.Number.Error

/-! # Binary fractions

A double-precision number decoded into an exact signed multiple of a power of two, and its integer
part. -/

namespace Leasehold

/-- The exact content of a double: `finite s m q` is `± m · 2 ^ q`. -/
inductive Binary where
  | finite (negative : Bool) (mantissa : Nat) (exponent : Int)
  | infinite (negative : Bool)
  | nan
deriving DecidableEq, Repr

namespace Binary

/-- Sign, eleven bits of exponent and fifty-two bits of fraction; the leading bit of a normal number
is not stored. -/
def ofFloat (x : Float) : Binary :=
  let bits : Nat := x.toBits.toNat
  let negative := bits / Nat.pow 2 63 == 1
  let exponent : Nat := bits / Nat.pow 2 52 % 2048
  let fraction : Nat := bits % Nat.pow 2 52
  if exponent = 2047 then if fraction = 0 then .infinite negative else .nan
  else if exponent = 0 then .finite negative fraction (-1074)
  else .finite negative (fraction + Nat.pow 2 52) ((exponent : Int) - 1075)

def floorAbs (m : Nat) (q : Int) : Nat :=
  if 0 ≤ q then m * Nat.pow 2 q.toNat else m / Nat.pow 2 (-q).toNat

def isIntegral : Binary → Bool
  | .finite _ m q => decide (0 ≤ q) || m % Nat.pow 2 (-q).toNat == 0
  | _ => false

/-- Whether a number lies below `n`; a NaN lies below nothing. -/
def isBelow (n : Int) : Binary → Bool
  | .finite negative m q =>
    let whole : Int := m * Nat.pow 2 q.toNat
    (if negative then -whole else whole) < n * (Nat.pow 2 (-q).toNat : Nat)
  | .infinite negative => negative
  | .nan => false

/-- The integer part, rounding toward zero. -/
def truncate : Binary → Except NumberError Int
  | .finite negative m q => .ok (if negative then -(floorAbs m q : Int) else floorAbs m q)
  | .infinite _ => .error (.infinite false)
  | .nan => .error (.notANumber false)

end Binary

end Leasehold
