import Leasehold.Number.Binary
import Leasehold.Text.Digit
import Leasehold.Text.Blank

/-! # Exact decimals

Decimal numbers as stores return them: a signed coefficient and a power of ten, or one of the two
special values. Sums are exact. -/

namespace Leasehold

/-- A decimal number; `finite n e` is `n · 10 ^ e`. -/
inductive Decimal where
  | finite (coefficient : Int) (exponent : Int)
  | infinite (negative : Bool)
  | nan
deriving DecidableEq, Repr, Inhabited

namespace Decimal

def ofInt (n : Int) : Decimal := .finite n 0

/-- The exact decimal of a binary fraction. -/
def ofBinary : Binary → Decimal
  | .finite negative m q =>
    let n : Nat := if 0 ≤ q then m * Nat.pow 2 q.toNat else m * Nat.pow 5 (-q).toNat
    .finite (if negative then -(n : Int) else n) (min q 0)
  | .infinite negative => .infinite negative
  | .nan => .nan

/-- The decimal of a numeral: an optional sign, then digits with an optional point and an optional
exponent, or the name of a special value. -/
def ofText? (s : String) : Option Decimal :=
  let cs := Text.trim Text.isAsciiBlank s.toList
  let (negative, body) := match cs with
    | '-' :: r => (true, r)
    | '+' :: r => (false, r)
    | r => (false, r)
  let word := String.ofList (body.map Char.toLower)
  if word = "inf" || word = "infinity" then some (.infinite negative)
  else if word = "nan" || word = "snan" then some .nan
  else
    let isDigit (c : Char) := (Text.asciiDigit? c).isSome
    let whole := body.takeWhile isDigit
    let rest := body.dropWhile isDigit
    let (fraction, rest) := match rest with
      | '.' :: r => (r.takeWhile isDigit, r.dropWhile isDigit)
      | r => ([], r)
    let digits := whole ++ fraction
    let exponent? : Option Int := match rest with
      | [] => some 0
      | c :: r =>
        if c = 'e' || c = 'E' then
          let (minus, r) := match r with
            | '-' :: r => (true, r)
            | '+' :: r => (false, r)
            | r => (false, r)
          if r.isEmpty then none
          else (r.foldlM (fun (n : Nat) c => (Text.asciiDigit? c).map (10 * n + ·)) 0).map fun n =>
            if minus then -(n : Int) else n
        else none
    if digits.isEmpty then none
    else exponent?.map fun e =>
      let n : Nat := digits.foldl (fun (n : Nat) c => 10 * n + (Text.asciiDigit? c).getD 0) 0
      .finite (if negative then -(n : Int) else n) (e - (fraction.length : Int))

/-- The power of ten with exponent `e`, for an `e` that is not negative. -/
def tens (e : Int) : Int := Nat.pow 10 e.toNat

/-- Both coefficients over the smaller of the two exponents. -/
def align (m : Int) (d : Int) (n : Int) (e : Int) : Int × Int × Int :=
  let low := min d e
  (m * tens (d - low), n * tens (e - low), low)

def add : Decimal → Decimal → Decimal
  | .finite m d, .finite n e => let (a, b, low) := align m d n e; .finite (a + b) low
  | .nan, _ => .nan
  | _, .nan => .nan
  | .infinite a, .infinite b => if a = b then .infinite a else .nan
  | .infinite a, _ => .infinite a
  | _, .infinite b => .infinite b

/-- Strict order; a NaN is below nothing. -/
def lt : Decimal → Decimal → Bool
  | .finite m d, .finite n e => let (a, b, _) := align m d n e; a < b
  | .nan, _ => false
  | _, .nan => false
  | .infinite a, .infinite b => a && !b
  | .infinite a, _ => a
  | _, .infinite b => !b

/-- Equality of numbers: `1.0` equals `1`; a NaN equals nothing. -/
def same : Decimal → Decimal → Bool
  | .finite m d, .finite n e => let (a, b, _) := align m d n e; a = b
  | .infinite a, .infinite b => a = b
  | _, _ => false

/-- The integer that `x` is, when it is one. -/
def toInt? : Decimal → Option Int
  | .finite n e =>
    if 0 ≤ e then some (n * tens e)
    else
      let unit := tens (-e)
      if n % unit = 0 then some (n / unit) else none
  | _ => none

/-- The integer part, rounding toward zero. -/
def truncate : Decimal → Except NumberError Int
  | .finite n e => .ok (if 0 ≤ e then n * tens e else n.tdiv (tens (-e)))
  | .infinite _ => .error (.infinite true)
  | .nan => .error (.notANumber true)

/-- The text: positional down to six zeros after the point, with an exponent otherwise. -/
def toText : Decimal → String
  | .nan => "NaN"
  | .infinite negative => if negative then "-Infinity" else "Infinity"
  | .finite n e =>
    let digits := (toString n.natAbs).toList
    let sign := if n < 0 then "-" else ""
    let adjusted := e + digits.length - 1
    let body :=
      if e ≤ 0 && -6 ≤ adjusted then
        let places := (-e).toNat
        if places = 0 then digits
        else
          let padded := List.replicate (places + 1 - digits.length) '0' ++ digits
          padded.take (padded.length - places) ++ '.' :: padded.drop (padded.length - places)
      else
        let mantissa := match digits with
          | [d] => [d]
          | d :: ds => d :: '.' :: ds
          | [] => []
        mantissa ++ 'E' :: (if 0 ≤ adjusted then '+' else '-') :: (toString adjusted.natAbs).toList
    sign ++ String.ofList body

theorem tens_zero : tens 0 = 1 := rfl

theorem truncate_ofInt (n : Int) : (ofInt n).truncate = .ok n := by simp [ofInt, truncate, tens_zero]

theorem add_ofInt (m n : Int) : add (ofInt m) (ofInt n) = ofInt (m + n) := by
  simp [ofInt, add, align, tens_zero]

theorem lt_ofInt (m n : Int) : lt (ofInt m) (ofInt n) = decide (m < n) := by
  simp [ofInt, lt, align, tens_zero]

end Decimal

end Leasehold
