import Leasehold.Number.Binary

/-! # Shortest text of a binary fraction

`shortest m q` finds the fewest decimal digits that read back as `m · 2 ^ q`, and among those the
digits nearest to it. Everything is exact arithmetic on naturals: a decimal reads back when it lies
between the midpoints to the two neighbouring doubles, and a midpoint itself counts when `m` is
even. -/

namespace Leasehold.Number

/-- A positive rational `num / den`. -/
structure Ratio where
  num : Nat
  den : Nat

def Ratio.ofBinary (m : Nat) (q : Int) : Ratio :=
  if 0 ≤ q then ⟨m * Nat.pow 2 q.toNat, 1⟩ else ⟨m, Nat.pow 2 (-q).toNat⟩

def Ratio.ofDecimal (c : Nat) (e : Int) : Ratio :=
  if 0 ≤ e then ⟨c * Nat.pow 10 e.toNat, 1⟩ else ⟨c, Nat.pow 10 (-e).toNat⟩

def Ratio.lt (a b : Ratio) : Bool := a.num * b.den < b.num * a.den

def Ratio.le (a b : Ratio) : Bool := a.num * b.den ≤ b.num * a.den

/-- Whether the decimal `r` reads back as the double `m · 2 ^ q`. Below a power of two the gap to
the next smaller double is half as wide. -/
def readsBack (m : Nat) (q : Int) (r : Ratio) : Bool :=
  let low :=
    if m = Nat.pow 2 52 && -1074 < q then Ratio.ofBinary (4 * m - 1) (q - 2)
    else Ratio.ofBinary (2 * m - 1) (q - 1)
  let high := Ratio.ofBinary (2 * m + 1) (q - 1)
  if m % 2 = 0 then low.le r && r.le high else low.lt r && r.lt high

/-- The exponent `k` with `10 ^ (k - 1) ≤ v < 10 ^ k`, sought upward from `k`. -/
def decimalPoint (v : Ratio) : (fuel : Nat) → (k : Int) → Int
  | 0, k => k
  | n + 1, k => if v.lt (Ratio.ofDecimal 1 k) then k else decimalPoint v n (k + 1)

/-- The better of the two neighbours of `v` on the grid of multiples of `10 ^ e`, when one of them
reads back; on a tie the even one. -/
def onGrid? (m : Nat) (q : Int) (v : Ratio) (e : Int) : Option Nat :=
  let unit := Ratio.ofDecimal 1 e
  let num := v.num * unit.den
  let den := v.den * unit.num
  let c := num / den
  let lower := readsBack m q (Ratio.ofDecimal c e)
  let upper := readsBack m q (Ratio.ofDecimal (c + 1) e)
  let twice := 2 * (num - c * den)
  if lower && upper then
    some (if twice < den then c else if den < twice then c + 1 else if c % 2 = 0 then c else c + 1)
  else if lower then some c
  else if upper then some (c + 1)
  else none

/-- The coefficient on the first grid that has one, trying `n` digits, then more. -/
def firstGrid (m : Nat) (q : Int) (v : Ratio) (k : Int) : (fuel n : Nat) → Nat × Int
  | 0, n => ((v.num * (Ratio.ofDecimal 1 (k - n)).den) / (v.den * (Ratio.ofDecimal 1 (k - n)).num), k - n)
  | fuel + 1, n =>
    match onGrid? m q v (k - n) with
    | some c => (c, k - n)
    | none => firstGrid m q v k fuel (n + 1)

/-- The coefficient without the zeros at its end, and the exponent that this leaves. -/
def dropZeros : (fuel c : Nat) → (e : Int) → Nat × Int
  | 0, c, e => (c, e)
  | fuel + 1, c, e => if c ≠ 0 && c % 10 = 0 then dropZeros fuel (c / 10) (e + 1) else (c, e)

/-- The shortest decimal `c · 10 ^ e` that reads back as `m · 2 ^ q`, for a positive `m`. -/
def shortest (m : Nat) (q : Int) : Nat × Int :=
  let v := Ratio.ofBinary m q
  let k := decimalPoint v 640 (-324)
  let (c, e) := firstGrid m q v k 17 1
  dropZeros 20 c e

/-- The text of a double. Exponents of ten from -4 to 15 are written positionally, with at least one
place after the point; others as a power of ten with at least two digits. -/
def floatText (x : Float) : String :=
  match Binary.ofFloat x with
  | .nan => "nan"
  | .infinite negative => if negative then "-inf" else "inf"
  | .finite negative m q =>
    let sign := if negative then "-" else ""
    if m = 0 then sign ++ "0.0"
    else
      let (c, e) := shortest m q
      let digits := (toString c).toList
      let point : Int := e + digits.length
      let body :=
        if -3 ≤ point && point ≤ 16 then
          if point ≤ 0 then '0' :: '.' :: (List.replicate (-point).toNat '0' ++ digits)
          else
            let p := point.toNat
            let whole := digits.take p ++ List.replicate (p - digits.length) '0'
            let places := digits.drop p
            whole ++ '.' :: (if places.isEmpty then ['0'] else places)
        else
          let mantissa := match digits with
            | [d] => [d]
            | d :: ds => d :: '.' :: ds
            | [] => []
          let exponent := point - 1
          let power := (toString exponent.natAbs).toList
          let padded := if power.length < 2 then '0' :: power else power
          mantissa ++ 'e' :: (if exponent < 0 then '-' else '+') :: padded
      sign ++ String.ofList body

end Leasehold.Number
