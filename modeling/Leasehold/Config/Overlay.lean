import Leasehold.Error
import Leasehold.Value

/-! # Overlays

Settings of an environment lie over the base settings: maps merge key by key, everything else, lists
included, is replaced as a whole. Merging a map inside another takes a call inside another. -/

namespace Leasehold.Config

mutual

def overlay : (base layer : Value) → Value
  | .map base, .map layer => .map (overlayFields base layer)
  | _, layer => layer

/-- The fields of `layer` laid over those of `base`, one by one. -/
def overlayFields : (base layer : List (String × Value)) → List (String × Value)
  | base, [] => base
  | base, (key, v) :: layer =>
    overlayFields (Assoc.put base key (overlayAt (Assoc.find? base key) v)) layer

/-- `layer` laid over what is there, if anything. -/
def overlayAt : (base : Option Value) → (layer : Value) → Value
  | some (.map base), .map layer => .map (overlayFields base layer)
  | _, layer => layer

end

/-- Whether `base` and `layer` hold maps on one path of the length. -/
def meets : (length : Nat) → (base layer : Value) → Bool
  | 0, .map _, .map _ => true
  | length + 1, .map base, .map layer => layer.any fun e => (Assoc.find? base e.1).any (meets length · e.2)
  | _, _, _ => false

/-- `layer` laid over `base`, unless that nests too deep. -/
def merge (base layer : Value.Fields) : Except Error Value.Fields :=
  if meets maxCalls (.map base) (.map layer) then .error (.fault .tooDeep)
  else .ok (overlayFields base layer)

end Leasehold.Config
