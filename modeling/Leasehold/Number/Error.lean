import Leasehold.Text.Quoted

/-! # Why a value is no integer

Stored numbers arrive as texts, binary fractions or decimals. `NumberError` lists what can stop the
conversion to an integer. -/

namespace Leasehold

/-- The greatest number of digits that a numeral may have. -/
def maxDigits : Nat := 4300

/-- What stops a value from being read as an integer. -/
inductive NumberError where
  | notNumeral (radix : Nat) (text : String)
  | tooLong (digits : Nat)
  | notANumber (decimal : Bool)
  | infinite (decimal : Bool)
  /-- The value has no integer reading at all; its kind is named. -/
  | wrongKind (kind : String)
deriving DecidableEq, Repr

/-- The wording. The quoted text of a numeral is cut after 200 characters. -/
def NumberError.message : NumberError → String
  | .notNumeral radix text =>
    s!"invalid literal for int() with base {radix}: " ++ String.ofList ((Text.quoted text).toList.take 200)
  | .tooLong digits =>
    s!"Exceeds the limit ({maxDigits} digits) for integer string conversion: value has {digits} digits; "
      ++ "use sys.set_int_max_str_digits() to increase the limit"
  | .notANumber decimal =>
    if decimal then "cannot convert NaN to integer" else "cannot convert float NaN to integer"
  | .infinite decimal =>
    if decimal then "cannot convert Infinity to integer" else "cannot convert float infinity to integer"
  | .wrongKind kind =>
    "int() argument must be a string, a bytes-like object or a real number, not '" ++ kind ++ "'"

end Leasehold
