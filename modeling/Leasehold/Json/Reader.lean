import Leasehold.Number.Fraction
import Leasehold.Text.Surrogate
import Leasehold.Value

/-! # Reading JSON

`Json.read` accepts one JSON document with blanks around it. Beyond the standard it accepts `NaN`,
`Infinity` and `-Infinity`; of a repeated key the last value counts. Numbers without point and
exponent are integers of at most `maxDigits` digits, all others binary fractions. Lists and maps
nest at most `maxNesting` deep. -/

namespace Leasehold

namespace Json

def isBlank (c : Char) : Bool := c = ' ' || c = '\t' || c = '\n' || c = '\r'

def isDigit (c : Char) : Bool := (Text.asciiDigit? c).isSome

def digitsValue (cs : List Char) : Nat :=
  cs.foldl (fun n c => 10 * n + (Text.asciiDigit? c).getD 0) 0

/-- What a letter after a backslash stands for, `u` apart. -/
def escaped? : Char → Option Nat
  | '"' => some 0x22
  | '\\' => some 0x5c
  | '/' => some 0x2f
  | 'b' => some 8
  | 'f' => some 12
  | 'n' => some 10
  | 'r' => some 13
  | 't' => some 9
  | _ => none

/-- The code units of a text up to its closing quote, and what follows it. -/
def textUnits : List Char → List Nat → Option (List Nat × List Char)
  | [], _ => none
  | '"' :: r, acc => some (acc.reverse, r)
  | '\\' :: 'u' :: a :: b :: c :: d :: r, acc =>
    match Text.ofHex? [a, b, c, d] with
    | some n => textUnits r (n :: acc)
    | none => none
  | '\\' :: c :: r, acc =>
    match escaped? c with
    | some n => textUnits r (n :: acc)
    | none => none
  | c :: r, acc => if c.toNat < 0x20 || c = '\\' then none else textUnits r (c.toNat :: acc)

/-- A text whose opening quote has been read. -/
def text (cs : List Char) : Option (String × List Char) :=
  (textUnits cs []).map fun (units, r) => (String.ofList (Text.joinSurrogates units), r)

/-- A number whose sign has been read. -/
def number (negative : Bool) (cs : List Char) : Option (Value × List Char) :=
  let (whole, rest) := match cs with
    | '0' :: r => (['0'], r)
    | _ => (cs.takeWhile isDigit, cs.dropWhile isDigit)
  if whole.isEmpty then none
  else
    let (fraction, rest) := match rest with
      | '.' :: r =>
        if (r.takeWhile isDigit).isEmpty then ([], rest)
        else (r.takeWhile isDigit, r.dropWhile isDigit)
      | _ => ([], rest)
    let (exponent?, rest) : Option Int × List Char := match rest with
      | c :: r =>
        if c = 'e' || c = 'E' then
          let (minus, r') := match r with
            | '-' :: r' => (true, r')
            | '+' :: r' => (false, r')
            | _ => (false, r)
          let digits := r'.takeWhile isDigit
          if digits.isEmpty then (none, rest)
          else
            let e : Int := digitsValue digits
            (some (if minus then -e else e), r'.dropWhile isDigit)
        else (none, rest)
      | [] => (none, [])
    if fraction.isEmpty && exponent?.isNone then
      if maxDigits < whole.length then none
      else
        let n : Int := digitsValue whole
        some (.int (if negative then -n else n), rest)
    else
      let x :=
        Number.floatOfDecimal (digitsValue (whole ++ fraction))
          (exponent?.getD 0 - (fraction.length : Int))
      some (.float (if negative then -x else x), rest)

/-- `cs` without the characters of `word` at its front. -/
def word? (word : String) (cs : List Char) : Option (List Char) :=
  let w := word.toList
  if w.isPrefixOf cs then some (cs.drop w.length) else none

mutual

/-- One value at the front of the input. Each level of nesting and each member takes one unit of
fuel. -/
def value : (fuel : Nat) → List Char → Option (Value × List Char)
  | 0, _ => none
  | fuel + 1, cs => match cs with
    | '"' :: r => (text r).map fun (s, r) => (.text s, r)
    | '[' :: r =>
      match r.dropWhile isBlank with
      | ']' :: r => some (.list [], r)
      | r => (items fuel r).map fun (xs, r) => (.list xs, r)
    | '\x7b' :: r =>
      match r.dropWhile isBlank with
      | '\x7d' :: r => some (.map [], r)
      | r => (members fuel r).map fun (fields, r) => (.map (Assoc.ofPairs fields), r)
    | '-' :: 'I' :: _ => (word? "-Infinity" cs).map (.float (-1.0 / 0.0), ·)
    | '-' :: r => number true r
    | 'n' :: _ => (word? "null" cs).map (.null, ·)
    | 't' :: _ => (word? "true" cs).map (.bool true, ·)
    | 'f' :: _ => (word? "false" cs).map (.bool false, ·)
    | 'N' :: _ => (word? "NaN" cs).map (.float (0.0 / 0.0), ·)
    | 'I' :: _ => (word? "Infinity" cs).map (.float (1.0 / 0.0), ·)
    | _ => number false cs

def items : (fuel : Nat) → List Char → Option (List Value × List Char)
  | 0, _ => none
  | fuel + 1, cs => do
    let (v, r) ← value fuel (cs.dropWhile isBlank)
    match r.dropWhile isBlank with
    | ',' :: r =>
      let (vs, r) ← items fuel r
      return (v :: vs, r)
    | ']' :: r => return ([v], r)
    | _ => none

def members : (fuel : Nat) → List Char → Option (List (String × Value) × List Char)
  | 0, _ => none
  | fuel + 1, cs => do
    match cs.dropWhile isBlank with
    | '"' :: r =>
      let (key, r) ← text r
      match r.dropWhile isBlank with
      | ':' :: r =>
        let (v, r) ← value fuel (r.dropWhile isBlank)
        match r.dropWhile isBlank with
        | ',' :: r =>
          let (rest, r) ← members fuel r
          return ((key, v) :: rest, r)
        | '\x7d' :: r => return ([(key, v)], r)
        | _ => none
      | _ => none
    | _ => none

end

/-- How deep lists and maps may nest. -/
def maxNesting : Nat := 965

/-- How many brackets and braces are open at once, at most. Those inside texts do not count. -/
def nesting : (inText : Bool) → (depth deepest : Nat) → List Char → Nat
  | _, _, deepest, [] => deepest
  | true, depth, deepest, '\\' :: _ :: cs => nesting true depth deepest cs
  | true, depth, deepest, c :: cs => nesting (c ≠ '"') depth deepest cs
  | false, depth, deepest, c :: cs =>
    if c = '[' || c = '\x7b' then nesting false (depth + 1) (max deepest (depth + 1)) cs
    else if c = ']' || c = '\x7d' then nesting false (depth - 1) deepest cs
    else nesting (c = '"') depth deepest cs

def read (s : String) : Option Value :=
  let cs := s.toList
  if maxNesting < nesting false 0 0 cs then none
  else match value (cs.length + 1) (cs.dropWhile isBlank) with
  | some (v, r) => if (r.dropWhile isBlank).isEmpty then some v else none
  | none => none

end Json

end Leasehold
