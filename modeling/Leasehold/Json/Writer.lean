import Leasehold.Fault
import Leasehold.Json.Reader

/-! # Writing JSON

`Json.render` writes a value in ASCII: a comma and a blank between members, a colon and a blank
after a key, and `\u` escapes for every other character, two of them for a character outside the
basic plane. Values that JSON has no form for appear as texts of their written form;
`Json.unwritable?` tells what a writer says of them that does not help itself so. -/

namespace Leasehold.Json

/-- A code unit as a `\u` escape. -/
def unitEscape (n : Nat) : List Char := '\\' :: 'u' :: Text.hex 4 n

def escape (c : Char) : List Char :=
  let n := c.toNat
  if c = '"' then ['\\', '"']
  else if c = '\\' then ['\\', '\\']
  else if n = 10 then ['\\', 'n']
  else if n = 13 then ['\\', 'r']
  else if n = 9 then ['\\', 't']
  else if n = 8 then ['\\', 'b']
  else if n = 12 then ['\\', 'f']
  else if 0x20 ≤ n && n ≤ 0x7e then [c]
  else if n < 0x10000 then unitEscape n
  else unitEscape (0xd800 + (n - 0x10000) / 0x400) ++ unitEscape (0xdc00 + (n - 0x10000) % 0x400)

def renderText (s : String) : String := String.ofList ('"' :: s.toList.flatMap escape ++ ['"'])

/-- A binary fraction; the special values have names. -/
def renderFloat (x : Float) : String :=
  match Binary.ofFloat x with
  | .nan => "NaN"
  | .infinite negative => if negative then "-Infinity" else "Infinity"
  | .finite .. => Number.floatText x

mutual

def render : Value → String
  | .null => "null"
  | .bool b => if b then "true" else "false"
  | .int n => toString n
  | .float x => renderFloat x
  | .text s => renderText s
  | .list xs => "[" ++ ", ".intercalate (renderItems xs) ++ "]"
  | .map fields => "\x7b" ++ ", ".intercalate (renderFields fields) ++ "\x7d"
  | v => renderText v.written

def renderItems : List Value → List String
  | [] => []
  | v :: vs => render v :: renderItems vs

def renderFields : List (String × Value) → List String
  | [] => []
  | (k, v) :: fields => (renderText k ++ ": " ++ render v) :: renderFields fields

end

mutual

/-- Why a value cannot be written: JSON has no form for a part of it, or an integer has too many
digits. -/
def unwritable? : Value → Option Fault
  | .int n => if Number.isTooLong n then some .longInteger else none
  | .decimal _ => some (.notSerializable "Decimal")
  | .instant _ => some (.notSerializable "datetime")
  | .bytes _ => some (.notSerializable "bytes")
  | .list xs => unwritableItem? xs
  | .map fields => unwritableField? fields
  | _ => none

def unwritableItem? : List Value → Option Fault
  | [] => none
  | v :: vs => (unwritable? v).or (unwritableItem? vs)

def unwritableField? : List (String × Value) → Option Fault
  | [] => none
  | (_, v) :: fields => (unwritable? v).or (unwritableField? fields)

end

end Leasehold.Json
