import Leasehold.Config.Numeral
import Leasehold.Error
import Leasehold.Number.Word
import Leasehold.Text.Utf8

/-! # Coercion of settings

Settings are read leniently where nothing is lost: an integer may come as a text, a whole fraction
or a truth value; a truth value as 0, 1 or a word. `Complaint` says of which type a value is not. -/

namespace Leasehold.Config

/-- Why a single value is refused: a type for programs and a text for people. -/
structure Complaint where
  type : String
  text : String
deriving DecidableEq, Repr

namespace Complaint

def string : Complaint := ⟨"string_type", "Input should be a valid string"⟩

def stringUnicode : Complaint :=
  ⟨"string_unicode", "Input should be a valid string, unable to parse raw data as a unicode string"⟩

def integer : Complaint := ⟨"int_type", "Input should be a valid integer"⟩

def integerText : Complaint :=
  ⟨"int_parsing", "Input should be a valid integer, unable to parse string as an integer"⟩

def integerSize : Complaint :=
  ⟨"int_parsing_size", "Unable to parse input string as an integer, exceeded maximum size"⟩

def integerFraction : Complaint :=
  ⟨"int_from_float", "Input should be a valid integer, got a number with a fractional part"⟩

def finite : Complaint := ⟨"finite_number", "Input should be a finite number"⟩

def boolean : Complaint := ⟨"bool_type", "Input should be a valid boolean"⟩

def booleanText : Complaint :=
  ⟨"bool_parsing", "Input should be a valid boolean, unable to interpret input"⟩

def atLeast (n : Int) : Complaint :=
  ⟨"greater_than_equal", s!"Input should be greater than or equal to {n}"⟩

def atMost (n : Int) : Complaint := ⟨"less_than_equal", s!"Input should be less than or equal to {n}"⟩

def oneOf (words : List String) : Complaint :=
  let shown := words.map fun w => "'" ++ w ++ "'"
  let list := match shown.reverse with
    | [] => ""
    | [w] => w
    | last :: others => ", ".intercalate others.reverse ++ " or " ++ last
  ⟨"literal_error", "Input should be " ++ list⟩

def mapOf (model : String) : Complaint :=
  ⟨"model_type", "Input should be a valid dictionary or instance of " ++ model⟩

def value (text : String) : Complaint := ⟨"value_error", "Value error, " ++ text⟩

end Complaint

/-- A text, or the bytes of one. -/
def text? : Value → Option (Except Unit String)
  | .text s => some (.ok s)
  | .bytes b => match Text.Utf8.decode b with
    | .ok cs => some (.ok (String.ofList cs))
    | .error _ => some (.error ())
  | _ => none

def toText (v : Value) : Except Complaint String :=
  match text? v with
  | some (.ok s) => .ok s
  | some (.error _) => .error .stringUnicode
  | none => .error .string

def toOptionalText : Value → Except Complaint (Option String)
  | .null => .ok none
  | v => some <$> toText v

def textToInt (s : String) : Except Complaint Int :=
  match Numeral.read s with
  | .ok n => .ok n
  | .error .malformed => .error .integerText
  | .error .tooLong => .error .integerSize

/-- The integer that a fraction is, inside the range of 64 bits. -/
def floatToInt (x : Float) : Except Complaint Int :=
  let b := Binary.ofFloat x
  match b.truncate with
  | .error _ => .error .finite
  | .ok n =>
    if !b.isIntegral then .error .integerFraction
    else if -Number.maxWord ≤ n && n ≤ Number.maxWord then .ok n
    else .error .integerSize

def decimalToInt (d : Decimal) : Except Complaint Int :=
  match d, d.toInt? with
  | _, some n => .ok n
  | .finite .., none => .error .integerFraction
  | _, none => .error .finite

def toInt (v : Value) : Except Complaint Int :=
  match v with
  | .bool b => .ok (if b then 1 else 0)
  | .int n => .ok n
  | .float x => floatToInt x
  | .decimal d => decimalToInt d
  | _ => match text? v with
    | some (.ok s) => textToInt s
    | some (.error _) => .error .integerText
    | none => .error .integer

/-- An integer within bounds; a bound may be missing. -/
def toIntWithin (low : Int) (high : Option Int) (v : Value) : Except Complaint Int := do
  let n ← toInt v
  if n < low then throw (.atLeast low)
  match high with
  | some h => if h < n then throw (.atMost h)
  | none => pure ()
  return n

def trueWords : List String := ["1", "true", "t", "yes", "y", "on"]

def falseWords : List String := ["0", "false", "f", "no", "n", "off"]

def intToBool (n : Int) : Except Complaint Bool :=
  if n = 0 then .ok false else if n = 1 then .ok true else .error .booleanText

def toBool (v : Value) : Except Complaint Bool :=
  match v with
  | .bool b => .ok b
  | .int n => if -Number.maxWord - 1 ≤ n && n ≤ Number.maxWord then intToBool n else .error .boolean
  | .float x => match floatToInt x with
    | .ok n => intToBool n
    | .error _ => .error .boolean
  | _ => match text? v with
    | some (.ok s) =>
      let w := String.ofList (s.toList.map Char.toLower)
      if trueWords.contains w then .ok true
      else if falseWords.contains w then .ok false
      else .error .booleanText
    | some (.error _) => .error .booleanText
    | none => .error .boolean

/-- One of the listed words, exactly. -/
def toWord (words : List String) (v : Value) : Except Complaint String :=
  match v with
  | .text s => if words.contains s then .ok s else .error (.oneOf words)
  | _ => .error (.oneOf words)

end Leasehold.Config
