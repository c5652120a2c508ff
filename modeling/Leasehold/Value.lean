import Leasehold.Assoc
import Leasehold.Calendar
import Leasehold.Number.Decimal
import Leasehold.Number.Shortest
import Leasehold.Number.Numeral

/-! # Values

The trees that configuration files, stored records, log fields and requests are made of, with their
written form (`Value.written`), their truth and their reading as an integer. -/

namespace Leasehold

/-- A value tree. Maps keep the order of their keys. -/
inductive Value where
  | null
  | bool (b : Bool)
  | int (n : Int)
  | float (x : Float)
  /-- A decimal number, as some stores return them. -/
  | decimal (d : Decimal)
  /-- A point in time, in seconds since the epoch. -/
  | instant (seconds : Int)
  | text (s : String)
  | bytes (octets : List UInt8)
  | list (items : List Value)
  | map (fields : List (String × Value))
deriving Inhabited, Repr

instance : Coe String Value := ⟨Value.text⟩

namespace Value

abbrev Fields := Assoc String Value

def ofText? : Option String → Value
  | some s => .text s
  | none => .null

def ofInt? : Option Int → Value
  | some n => .int n
  | none => .null

def text? : Value → Option String
  | .text s => some s
  | _ => none

/-- What a map holds under `key`; `null` when it holds nothing there or the value is no map. -/
def get (v : Value) (key : String) : Value :=
  match v with
  | .map fields => (Assoc.find? fields key).getD .null
  | _ => .null

/-- Zero, the empty text, empty collections, `false` and `null` are not truthy; all else is. -/
def isTruthy : Value → Bool
  | .null => false
  | .bool b => b
  | .int n => n ≠ 0
  | .float x => match Binary.ofFloat x with
    | .finite _ m _ => m ≠ 0
    | _ => true
  | .decimal d => d ≠ .finite 0 0 && d.toInt? ≠ some 0
  | .instant _ => true
  | .text s => s ≠ ""
  | .bytes b => !b.isEmpty
  | .list xs => !xs.isEmpty
  | .map fields => !fields.isEmpty

/-- The name of a value's kind, as messages give it. -/
def kind : Value → String
  | .null => "NoneType"
  | .bool _ => "bool"
  | .int _ => "int"
  | .float _ => "float"
  | .decimal _ => "decimal.Decimal"
  | .instant _ => "datetime.datetime"
  | .text _ => "str"
  | .bytes _ => "bytes"
  | .list _ => "list"
  | .map _ => "dict"

mutual

/-- The written form: texts in quotes, lists in brackets, maps in braces. -/
def written : Value → String
  | .null => "None"
  | .bool b => if b then "True" else "False"
  | .int n => toString n
  | .float x => Number.floatText x
  | .decimal d => "Decimal('" ++ d.toText ++ "')"
  | .instant t => (DateTime.ofEpoch t).written
  | .text s => Text.quoted s
  | .bytes b => Text.quoted (String.ofList (b.map fun o => Char.ofNat o.toNat))
  | .list xs => "[" ++ ", ".intercalate (writtenItems xs) ++ "]"
  | .map fields => "\x7b" ++ ", ".intercalate (writtenFields fields) ++ "\x7d"

def writtenItems : List Value → List String
  | [] => []
  | v :: vs => written v :: writtenItems vs

def writtenFields : List (String × Value) → List String
  | [] => []
  | (k, v) :: fields => (Text.quoted k ++ ": " ++ written v) :: writtenFields fields

end

mutual

/-- The value is or holds an integer of more than `maxDigits` digits, which no message shows. -/
def isOverlong : Value → Bool
  | .int n => Number.isTooLong n
  | .list xs => isOverlongItem xs
  | .map fields => isOverlongField fields
  | _ => false

def isOverlongItem : List Value → Bool
  | [] => false
  | v :: vs => isOverlong v || isOverlongItem vs

def isOverlongField : List (String × Value) → Bool
  | [] => false
  | (_, v) :: fields => isOverlong v || isOverlongField fields

end

/-- The value as plain text: texts, decimals and points in time as people read them, all else in its
written form. -/
def plain : Value → String
  | .text s => s
  | .decimal d => d.toText
  | .instant t => (DateTime.ofEpoch t).text
  | v => v.written

/-- The value as an integer: truncated when it is a number with a fraction, read when it is a
text. -/
def toInt : Value → Except NumberError Int
  | .bool b => .ok (if b then 1 else 0)
  | .int n => .ok n
  | .float x => (Binary.ofFloat x).truncate
  | .decimal d => d.truncate
  | .text s => Number.ofNumeral s
  | v => .error (.wrongKind v.kind)

/-- A number as an exact decimal; `none` for anything else. Binary fractions go by their shortest
text. -/
def decimal? : Value → Option Decimal
  | .int n => some (.ofInt n)
  | .float x => Decimal.ofText? (Number.floatText x)
  | .decimal d => some d
  | _ => none

/-- What a number is worth, truth values included; `none` for anything else. -/
def number? : Value → Option Decimal
  | .bool b => some (.ofInt (if b then 1 else 0))
  | .int n => some (.ofInt n)
  | .float x => some (.ofBinary (.ofFloat x))
  | .decimal d => some d
  | _ => none

mutual

/-- Equality of what values stand for: numbers by what they are worth, maps whatever the order of
their keys. A NaN equals nothing. -/
def same : (v w : Value) → Bool
  | .null, .null => true
  | .instant s, .instant t => s = t
  | .text s, .text t => s = t
  | .bytes a, .bytes b => a = b
  | .list xs, .list ys => sameItems xs ys
  | .map f, .map g => f.length = g.length && sameFields f g
  | v, w => match v.number?, w.number? with
    | some d, some e => d.same e
    | _, _ => false

def sameItems : (xs ys : List Value) → Bool
  | [], [] => true
  | x :: xs, y :: ys => same x y && sameItems xs ys
  | _, _ => false

def sameFields : (f g : List (String × Value)) → Bool
  | [], _ => true
  | (k, v) :: f, g =>
    (match Assoc.find? g k with
      | some w => same v w
      | none => false) && sameFields f g

end

/-- A text equals itself and nothing else. -/
theorem same_text (s : String) (w : Value) : same (.text s) w = true ↔ w = .text s := by
  cases w <;> simp [same, number?, eq_comm]

mutual

/-- Equality of the trees themselves: `1` and `1.0` are two values. -/
def identical : (v w : Value) → Bool
  | .null, .null => true
  | .bool a, .bool b => a = b
  | .int a, .int b => a = b
  | .float a, .float b => a = b
  | .decimal a, .decimal b => a = b
  | .instant a, .instant b => a = b
  | .text a, .text b => a = b
  | .bytes a, .bytes b => a = b
  | .list xs, .list ys => identicalItems xs ys
  | .map f, .map g => identicalFields f g
  | _, _ => false

def identicalItems : (xs ys : List Value) → Bool
  | [], [] => true
  | x :: xs, y :: ys => identical x y && identicalItems xs ys
  | _, _ => false

def identicalFields : (f g : List (String × Value)) → Bool
  | [], [] => true
  | (k, v) :: f, (l, w) :: g => k = l && identical v w && identicalFields f g
  | _, _ => false

end

mutual

theorem identical_iff : (v w : Value) → (identical v w = true ↔ v = w)
  | .list xs, w => by cases w <;> simp [identical, identicalItems_iff xs]
  | .map f, w => by cases w <;> simp [identical, identicalFields_iff f]
  | .null, w => by cases w <;> simp [identical]
  | .bool _, w | .int _, w | .float _, w | .decimal _, w | .instant _, w | .text _, w | .bytes _, w => by
    cases w <;> simp [identical]

theorem identicalItems_iff : (xs ys : List Value) → (identicalItems xs ys = true ↔ xs = ys)
  | [], ys => by cases ys <;> simp [identicalItems]
  | x :: xs, ys => by cases ys <;> simp [identicalItems, identical_iff x, identicalItems_iff xs]

theorem identicalFields_iff : (f g : List (String × Value)) → (identicalFields f g = true ↔ f = g)
  | [], g => by cases g <;> simp [identicalFields]
  | (k, v) :: f, g => by
    cases g <;> simp [identicalFields, identical_iff v, identicalFields_iff f, Prod.ext_iff]

end

instance : DecidableEq Value := fun v w => decidable_of_iff _ (identical_iff v w)

end Value

end Leasehold
