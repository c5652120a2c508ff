import Leasehold.Proofs.Overlay
import Leasehold.Yaml.Document

/-!
# How deep a document is built

A document whose aliases nest it without end has a value of every depth. What stands at a path does
not depend on the depth, as long as that is greater than the length of the path (`sameTo_built`),
and merging settings looks no deeper than that (`Config.meets_congr`).
-/

namespace Leasehold

namespace Value
variable {v w : Value} {d : Nat}

/-- The value without what it contains. -/
def shell : Value → Value
  | .list _ => .list []
  | .map _ => .map []
  | v => v

/-- The values are the same at all paths that are shorter than `d`. -/
def SameTo (d : Nat) (v w : Value) : Prop :=
  ∀ path : List String, path.length < d → (v.at? path).map shell = (w.at? path).map shell

theorem SameTo.symm (h : SameTo d v w) : SameTo d w v := fun path hlength => (h path hlength).symm

theorem SameTo.shell_eq (h : SameTo (d + 1) v w) : v.shell = w.shell := by
  have hshell := h [] (Nat.zero_lt_succ d)
  rwa [at?_nil, at?_nil, Option.map_some, Option.map_some, Option.some.injEq] at hshell

theorem sameTo_of_shell (hs : v.shell = w.shell) (hv : ∀ fields, v ≠ .map fields) :
    SameTo d v w := by
  rintro (_ | ⟨key, path⟩) -
  · rw [at?_nil, at?_nil, Option.map_some, Option.map_some, hs]
  · have hnone {u : Value} (hu : ∀ fields, u ≠ .map fields) : u.at? (key :: path) = none := by
      cases u with
      | map fields => exact absurd rfl (hu fields)
      | _ => rfl
    have hw (fields : Fields) : w ≠ .map fields := by
      rintro rfl
      cases v with
      | map fields => exact hv fields rfl
      | _ => cases hs
    rw [hnone hv, hnone hw]

theorem sameTo_map {f g : Fields}
    (h : d ≠ 0 → ∀ key, Option.Rel (SameTo d) (Assoc.find? f key) (Assoc.find? g key)) :
    SameTo (d + 1) (.map f) (.map g) := by
  rintro (_ | ⟨key, path⟩) hlength
  · rfl
  · have hlength : path.length < d := Nat.lt_of_succ_lt_succ hlength
    have hfound := h (Nat.ne_zero_of_lt hlength) key
    rw [at?_map_cons, at?_map_cons]
    generalize Assoc.find? f key = o, Assoc.find? g key = o' at hfound
    cases hfound with
    | none => rfl
    | some hsame => exact hsame path hlength

end Value

theorem Yaml.Content.key_shell (text : String) (v : Value) : key text v.shell = key text v := by
  cases v <;> rfl

namespace Yaml.Graph.Survey
open Value
variable {s : Survey} {d : Nat}

@[simp] theorem graph_built (s : Survey) (d : Nat) : (s.built d).graph = s.graph := by
  cases d <;> rfl

theorem value_built (s : Survey) (d id : Nat) :
    (s.built (d + 1)).value id = if id < s.graph.nodes.size then (s.built d).build
      id else .null := by
  simp only [value, built, Array.getD_eq_getD_getElem?, Array.getElem?_map, Array.getElem?_range]
  split <;> rfl

/-- A scalar keeps its value. -/
theorem value_built_scalar {id : Nat} (hid : id < s.graph.nodes.size)
    (hs : s.graph.isCollection id = false) :
    (s.built d).value id = s.value id := by
  induction d with
  | zero => rfl
  | succ d ih => rw [value_built, if_pos hid, build, graph_built, hs, if_neg Bool.false_ne_true, ih]

theorem key_congr {s t : Survey} {id : Nat} (hg : s.graph = t.graph)
    (h : (s.value id).shell = (t.value id).shell) : s.key id = t.key id := by
  simp only [key, hg]
  split <;> rw [← Content.key_shell, h, Content.key_shell]

theorem sameTo_ofPairs {s t : Survey} {entries : List (Nat × Nat)}
    (hkeys : ∀ id, s.key id = t.key id) (h : ∀ id, SameTo d (s.value id) (t.value id))
    (key : String) :
    let fields (s : Survey) := entries.map fun e => (s.key e.1, s.value e.2)
    Option.Rel (SameTo d) (Assoc.find? (Assoc.ofPairs (fields s)) key)
      (Assoc.find? (Assoc.ofPairs (fields t)) key) := by
  intro fields
  suffices hputs : ∀ m n : Fields,
    (∀ key, Option.Rel (SameTo d) (Assoc.find? m key) (Assoc.find? n key)) →
      Option.Rel (SameTo d) (Assoc.find? (Assoc.putAll m (fields s)) key)
        (Assoc.find? (Assoc.putAll n (fields t)) key) from
    hputs [] [] fun _ => .none
  induction entries with
  | nil => exact fun m n hmn => hmn key
  | cons e entries ih =>
    intro m n hmn
    refine ih (m.put (s.key e.1) (s.value e.2)) (n.put (t.key e.1) (t.value e.2)) fun key => ?_
    rw [hkeys, Assoc.find?_put, Assoc.find?_put]
    split
    · exact .some (h e.2)
    · exact hmn key

/-- Values that are built deeper are the same as far as those that are built less deep go. -/
theorem sameTo_built (s : Survey) (d k id : Nat) :
    SameTo d ((s.built (d + k)).value id) ((s.built d).value id) := by
  induction d generalizing id with
  | zero => exact fun path hlength => absurd hlength (Nat.not_lt_zero _)
  | succ d ih =>
    rw [Nat.add_right_comm, value_built, value_built]
    split
    · rename_i hid
      simp only [build, graph_built]
      cases hs : s.graph.isCollection id with
      | false =>
        simp only [Bool.false_eq_true, if_false]
        rw [value_built_scalar hid hs, value_built_scalar hid hs]
        exact fun _ _ => rfl
      | true =>
        simp only [if_true]
        split
        · exact sameTo_of_shell rfl nofun
        · split
          · refine sameTo_map fun hd key => sameTo_ofPairs (fun id => ?_) ih key
            obtain ⟨d, rfl⟩ := Nat.exists_eq_succ_of_ne_zero hd
            exact key_congr (by rw [graph_built, graph_built]) (ih id).shell_eq
          · exact sameTo_of_shell rfl nofun
        · exact sameTo_of_shell rfl nofun
    · exact sameTo_of_shell rfl nofun

end Yaml.Graph.Survey

namespace Config
open Value
variable {b b' l l' : Value} {n : Nat}

theorem isMap_of_sameTo {v w : Value} {path : List String} {fields : Fields}
    (h : SameTo (n + 1) v w) (hlength : path.length = n) (hv : v.at? path = some (.map fields)) :
    ∃ fields', w.at? path = some (.map fields') := by
  have hshell := h path (Nat.lt_succ_of_le (Nat.le_of_eq hlength))
  rw [hv, Option.map_some] at hshell
  obtain ⟨u, hu, hshell⟩ := Option.map_eq_some_iff.mp hshell.symm
  cases u with
  | map fields' => exact ⟨fields', hu⟩
  | _ => cases hshell

/-- Whether maps are merged too deep is found in the first levels of the values. -/
theorem meets_congr (hb : SameTo (n + 1) b b') (hl : SameTo (n + 1) l l') (hd : l.Distinct)
    (hd' : l'.Distinct) :
    meets n b l = meets n b' l' := by
  rw [Bool.eq_iff_iff, meets_iff hd, meets_iff hd']
  refine exists_congr fun path => and_congr_right fun hlength => ⟨?_, ?_⟩
  · rintro ⟨_, _, hv, hw⟩
    obtain ⟨fields, hv⟩ := isMap_of_sameTo hb hlength hv
    obtain ⟨fields', hw⟩ := isMap_of_sameTo hl hlength hw
    exact ⟨fields, fields', hv, hw⟩
  · rintro ⟨_, _, hv, hw⟩
    obtain ⟨fields, hv⟩ := isMap_of_sameTo hb.symm hlength hv
    obtain ⟨fields', hw⟩ := isMap_of_sameTo hl.symm hlength hw
    exact ⟨fields, fields', hv, hw⟩

end Config

end Leasehold
