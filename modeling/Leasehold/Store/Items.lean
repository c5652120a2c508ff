import Leasehold.Session

/-! # A store of conditional items

The DynamoDB model: items by lock id, and four calls of which each is atomic. Writes carry a
condition on the item that is there; a write whose condition fails answers with an error and changes
nothing.

`client` takes numbers of any size. `limitedClient` has the limits of the real one: its library
sends no number of more than 38 digits, and the store keeps none. -/

namespace Leasehold.Items

abbrev Item := Value.Fields

abbrev Store := Assoc String Item

/-- A condition on the attributes of the present item; a missing item has none. -/
inductive Condition where
  | and (a b : Condition)
  | or (a b : Condition)
  | equals (field : String) (v : Value)
  | lessThan (field : String) (v : Value)
  | atLeast (field : String) (v : Value)
  | present (field : String)
  | absent (field : String)

/-- One assignment of an update: `target` becomes `source` plus the bound delta. Both are written
with placeholders, which the names of the update resolve. -/
structure Assignment where
  target : String
  source : String
deriving DecidableEq, Repr

/-- An update that adds `delta` to attributes. -/
structure Update where
  assignments : List Assignment
  names : Assoc String String
  delta : Int
deriving DecidableEq, Repr

inductive Call where
  | get (id : String)
  | put (item : Item) (condition : Condition)
  | update (id : String) (update : Update) (condition : Condition)
  | delete (id : String) (condition : Condition)

/-- Every call replies with a response, which is a map. -/
def Reply (_ : Call) : Type := Value.Fields

abbrev interface : Interface := ⟨Call, Reply⟩

def conditionFailed : String := "ConditionalCheckFailedException"

def validationFailed : String := "ValidationException"

def Update.text (u : Update) : String :=
  "SET " ++ ", ".intercalate
    (u.assignments.map fun (a : Assignment) => a.target ++ " = " ++ a.source ++ " + :delta")

def Update.resolve (u : Update) (name : String) : String := (u.names.find? name).getD name

mutual

/-- Equality of attribute values of one kind: of numbers, of texts, of truth values, or part by
part. -/
def sameValue : (v w : Value) → Bool
  | .null, .null => true
  | .bool a, .bool b => a = b
  | .text s, .text t => s = t
  | .bytes a, .bytes b => a = b
  | .list xs, .list ys => sameItems xs ys
  | .map f, .map g => f.length = g.length && sameFields f g
  | v, w => match v.decimal?, w.decimal? with
    | some d, some e => d.same e
    | _, _ => false

def sameItems : (xs ys : List Value) → Bool
  | [], [] => true
  | x :: xs, y :: ys => sameValue x y && sameItems xs ys
  | _, _ => false

def sameFields : (f g : List (String × Value)) → Bool
  | [], _ => true
  | (k, v) :: f, g =>
    (match Assoc.find? g k with
      | some w => sameValue v w
      | none => false) && sameFields f g

end

/-- A text equals itself and nothing else. -/
theorem sameValue_text (v : Value) (t : String) : sameValue v (.text t) = decide (v = .text t) := by
  cases v <;> simp [sameValue, Value.decimal?]

/-- Strict order of two numbers or of two texts; nothing else is ordered. -/
def isBelow (v w : Value) : Bool :=
  match v.decimal?, w.decimal? with
  | some d, some e => d.lt e
  | none, none =>
    match v, w with
    | .text s, .text t => s < t
    | _, _ => false
  | _, _ => false

/-- A comparison with an attribute, which fails when the attribute is missing. -/
def compare (item : Item) (field : String) (test : Value → Bool) : Bool :=
  match Assoc.find? item field with
  | some v => test v
  | none => false

def Condition.holds (item : Item) : Condition → Bool
  | .and a b => a.holds item && b.holds item
  | .or a b => a.holds item || b.holds item
  | .equals field v => compare item field (sameValue · v)
  | .lessThan field v => compare item field (isBelow · v)
  | .atLeast field v => compare item field fun w => isBelow v w || sameValue w v
  | .present field => (Assoc.find? item field).isSome
  | .absent field => (Assoc.find? item field).isNone

/-- The attribute that items are found by. -/
def idName : String := "lockId"

/-- An update that the store takes sets no attribute twice, and not the one that items are found
by. -/
def Update.isProper (u : Update) : Bool :=
  let targets := u.assignments.map fun (a : Assignment) => u.resolve a.target
  targets.Nodup && !targets.contains idName

/-- The values that an update sets; all sources are read from the item before it. -/
def Update.sums? (u : Update) (item : Item) : Option (List (String × Decimal)) :=
  u.assignments.mapM fun (a : Assignment) =>
    match (Assoc.find? item (u.resolve a.source)).bind Value.decimal? with
    | some d => some (u.resolve a.target, d.add (.ofInt u.delta))
    | none => none

/-- The item after an update. -/
def Update.updated? (u : Update) (item : Item) : Option Item :=
  (u.sums? item).map fun sums => Assoc.putAll item (sums.map fun e => (e.1, .decimal e.2))

def refusal (code : String) : Fault := .reported .response (some code) "refused"

/-- The old item under a name, when there was one. -/
def response (name : String) : Option Item → Value.Fields
  | some item => [(name, .map item)]
  | none => []

/-- What an item is found by, which must be a text. -/
def idOf? (item : Item) : Option String := (Assoc.find? item idName).bind Value.text?

def client : Session.Client interface Store
  | .get id, s => (.ok (response "Item" (Assoc.find? s id)), s)
  | .put item condition, s =>
    match idOf? item with
    | some id =>
      let old := Assoc.find? s id
      if condition.holds (old.getD []) then (.ok (response "Attributes" old), Assoc.put s id item)
      else (.error (refusal conditionFailed), s)
    | none => (.error (refusal validationFailed), s)
  | .update id update condition, s =>
    let old := (Assoc.find? s id).getD []
    if update.isProper then
      if condition.holds old then
        match update.updated? old with
        | some item => (.ok (response "Attributes" (some item)), Assoc.put s id item)
        | none => (.error (refusal validationFailed), s)
      else (.error (refusal conditionFailed), s)
    else (.error (refusal validationFailed), s)
  | .delete id condition, s =>
    let old := Assoc.find? s id
    if condition.holds (old.getD []) then (.ok (response "Attributes" old), Assoc.erase s id)
    else (.error (refusal conditionFailed), s)

/-! ### Limits of numbers -/

/-- How many digits a number may have. -/
def numberDigits : Nat := 38

/-- The greatest exponent of a number with one digit before the point. -/
def numberExponent : Int := 125

def digitCount (n : Int) : Nat := (toString n.natAbs).length

def rounded : Fault := .reported .arithmetic none "[<class 'decimal.Inexact'>, <class 'decimal.Rounded'>]"

mutual

/-- What the library says of a value that it does not send. -/
def unsendable? : Value → Option Fault
  | .int n => if digitCount n ≤ numberDigits then none else some rounded
  | .decimal (.finite m _) => if digitCount m ≤ numberDigits then none else some rounded
  | .decimal _ => some (.reported .wrongType none "Infinity and NaN not supported")
  | .float _ => some (.reported .wrongType none "Float types are not supported. Use Decimal types instead.")
  | .instant t =>
    some (.reported .wrongType none
      ("Unsupported type \"<class 'datetime.datetime'>\" for value \"" ++
        (Value.instant t).plain ++ "\""))
  | .list xs => unsendableItem? xs
  | .map fields => unsendableField? fields
  | _ => none

def unsendableItem? : List Value → Option Fault
  | [] => none
  | v :: vs => (unsendable? v).or (unsendableItem? vs)

def unsendableField? : List (String × Value) → Option Fault
  | [] => none
  | (_, v) :: fields => (unsendable? v).or (unsendableField? fields)

end

/-- The values that a condition compares with. -/
def Condition.values : Condition → List Value
  | .and a b => a.values ++ b.values
  | .or a b => a.values ++ b.values
  | .equals _ v => [v]
  | .lessThan _ v => [v]
  | .atLeast _ v => [v]
  | .present _ => []
  | .absent _ => []

/-- The values that a call sends. -/
def Call.values : Call → List Value
  | .get _ => []
  | .put item condition => item.map Prod.snd ++ condition.values
  | .update _ u condition => .int u.delta :: condition.values
  | .delete _ condition => condition.values

/-- A number that the store keeps. Zeros at the end of its digits do not count. -/
def isStorable : Decimal → Bool
  | .finite m e =>
    ((toString m.natAbs).toList.reverse.dropWhile (· = '0')).length ≤ numberDigits
      && digitCount m + e ≤ numberExponent + 1
  | _ => false

/-- An update would set a number that the store does not keep. -/
def Call.overflows (s : Store) : Call → Bool
  | .update id u condition =>
    let old := (Assoc.find? s id).getD []
    u.isProper && condition.holds old && (u.sums? old).any (·.any fun e => !isStorable e.2)
  | _ => false

def limitedClient : Session.Client interface Store := fun call s =>
  match call.values.findSome? unsendable? with
  | some f => (.error f, s)
  | none => if call.overflows s then (.error (refusal validationFailed), s) else client call s

end Leasehold.Items
