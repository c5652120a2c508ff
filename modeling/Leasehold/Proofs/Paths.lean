import Leasehold.Value

/-!
# Values by paths

A value is told by what it holds at each path of keys (`Value.at?`). Maps are lists of fields; that
no key stands twice in any of them (`Value.Distinct`) is said by paths as well, so that it passes on
to all that the value holds.
-/

namespace Leasehold.Value
variable {v w : Value} {fields : Fields} {key : String} {path : List String}

/-- What a value holds at a path of keys. -/
def at? : Value → List String → Option Value
  | v, [] => some v
  | .map fields, key :: path => (Assoc.find? fields key).bind (·.at? path)
  | _, _ :: _ => none

@[simp] theorem at?_nil : v.at? [] = some v := by
  cases v <;> rfl

@[simp] theorem at?_map_cons :
    (map fields).at? (key :: path) = (Assoc.find? fields key).bind (·.at? path) := rfl

theorem at?_append (v : Value) (path path' : List String) :
    v.at? (path ++ path') = (v.at? path).bind (·.at? path') := by
  induction path generalizing v with
  | nil => simp
  | cons key path ih =>
    cases v with
    | map fields =>
      rw [List.cons_append, at?_map_cons, at?_map_cons, Option.bind_assoc]
      exact congrArg (Option.bind _) (funext ih)
    | _ => rfl

/-- What is held below a value is held by a map. -/
theorem exists_map_of_at? (h : v.at? (key :: path) = some w) :
    ∃ fields v', v = .map fields ∧ Assoc.find? fields key = some v' ∧ v'.at? path = some w := by
  cases v with
  | map fields =>
    obtain ⟨v', hf, hv⟩ := Option.bind_eq_some_iff.mp h
    exact ⟨fields, v', rfl, hf, hv⟩
  | _ => cases h

/-- No map in the value has a key twice, at whatever depth. -/
def Distinct (v : Value) : Prop := ∀ path fields, v.at? path = some (.map fields) →
    (Assoc.keys fields).Nodup

theorem Distinct.at (h : v.Distinct) (hv : v.at? path = some w) :
    w.Distinct := fun path' fields hw =>
  h (path ++ path') fields (by rw [at?_append, hv]; exact hw)

theorem Distinct.nodup (h : (map fields).Distinct) : (Assoc.keys fields).Nodup :=
  h [] fields at?_nil

theorem Distinct.find? (h : (map fields).Distinct) (hf : Assoc.find? fields key = some v) :
    v.Distinct := by
  have hv : (map fields).at? [key] = some v := by
    rw [at?_map_cons, hf]
    exact at?_nil
  exact h.at hv

theorem distinct_map (hn : (Assoc.keys fields).Nodup) (h : ∀ e ∈ fields, e.2.Distinct) :
    (map fields).Distinct := by
  rintro (_ | ⟨key, path⟩) fields' hp
  · cases hp
    exact hn
  · obtain ⟨_, v', ⟨⟩, hf, hv⟩ := exists_map_of_at? hp
    exact h _ (Assoc.mem_of_find? hf) path fields' hv

theorem distinct_of_not_map (h : ∀ fields, v ≠ .map fields) : v.Distinct := by
  rintro (_ | ⟨key, path⟩) fields hp
  · exact absurd (Option.some.inj (at?_nil.symm.trans hp)) (h fields)
  · obtain ⟨fields', -, rfl, -⟩ := exists_map_of_at? hp
    exact absurd rfl (h fields')

end Leasehold.Value
