import Leasehold.Proofs.Paths
import Leasehold.Yaml.Document

/-!
# The keys of a document

In what a text is read as, no map has a key twice (`distinct_load`): a scalar is no map, and the
maps of a document are made anew from their entries, level by level from what has no key twice
already.
-/

namespace Leasehold.Yaml
open Value

/-- Whatever the computation yields is a `P`. -/
def Yields {ε α : Type} (P : α → Prop) (r : Except ε α) : Prop := ∀ a, r = .ok a → P a

namespace Yields
variable {ε α β : Type} {P : α → Prop} {Q : β → Prop}

theorem ok {a : α} (h : P a) : Yields P (.ok a : Except ε α) := by
  rintro _ ⟨⟩
  exact h

theorem error {e : ε} : Yields P (.error e : Except ε α) := nofun

theorem bind {r : Except ε α} {k : α → Except ε β} (hr : Yields P r)
    (hk : ∀ a, P a → Yields Q (k a)) :
    Yields Q (r >>= k) := by
  cases r with
  | ok a => exact hk a (hr a rfl)
  | error e => exact error

/-- Whatever is yielded on the way. -/
theorem andThen {r : Except ε α} {k : α → Except ε β} (hk : ∀ a, Yields Q (k a)) :
    Yields Q (r >>= k) :=
  bind (P := fun _ => True) (fun _ _ => trivial) fun a _ => hk a

theorem map {r : Except ε α} {f : α → β} (hr : Yields P r) (hf : ∀ a, P a → Q (f a)) :
    Yields Q (f <$> r) := by
  cases r with
  | ok a => exact ok (hf a (hr a rfl))
  | error e => exact error

theorem foldlM {f : α → β → Except ε α} (hf : ∀ a b, P a → Yields P (f a b)) (l : List β)
    {a : α} (ha : P a) :
    Yields P (l.foldlM f a) := by
  induction l generalizing a with
  | nil => exact ok ha
  | cons b l ih => exact (hf a b ha).bind fun _ h => ih h

end Yields

theorem Content.distinct_value (tag text : String) : Yields Distinct (Content.value tag text) := by
  have leaf {α : Type} {f : α → Value} {r : Except Trouble α} (hf : ∀ a fields, f a ≠ .map fields) :
      Yields Distinct (f <$> r) :=
    Yields.map (P := fun _ => True) (fun _ _ => trivial) fun a _ => distinct_of_not_map (hf a)
  simp only [Content.value]
  repeat' split
  all_goals first
    | exact .error
    | exact .ok (distinct_of_not_map nofun)
    | exact leaf nofun

namespace Graph

theorem distinct_scalar (g : Graph) (id : Nat) : Yields Distinct (g.scalar id) := by
  refine Yields.andThen fun text => ?_
  dsimp only
  split
  · exact .error
  · exact Content.distinct_value _ text

namespace Survey
variable {s : Survey} {v : Value}

/-- No map that is known by now has a key twice. -/
def Sound (s : Survey) : Prop := ∀ id, (s.value id).Distinct

theorem Sound.setValue (hs : s.Sound) (id : Nat) (hv : v.Distinct) : (s.setValue id v).Sound := by
  intro id'
  have hs := hs id'
  simp only [value, Survey.setValue, Array.getD_eq_getD_getElem?,
    Array.getElem?_setIfInBounds] at hs ⊢
  split
  · split
    · exact hv
    · exact distinct_of_not_map nofun
  · exact hs

theorem sound_meet (hs : s.Sound) (id : Nat) : Yields Sound (s.meet id) := by
  simp only [meet]
  split
  · exact .ok hs
  · split
    · refine .ok (hs.setValue id ?_)
      split
      · exact distinct_map List.nodup_nil nofun
      · exact distinct_of_not_map nofun
    · exact (distinct_scalar _ id).map fun v hv => hs.setValue id hv

theorem sound_meetEntries (hs : s.Sound) (entries : List (Nat × Nat)) :
    Yields Sound (s.meetEntries entries) := by
  refine Yields.foldlM (fun s e hs => (sound_meet hs e.1).bind fun s hs => ?_) entries hs
  dsimp only
  split
  · exact .error
  · exact sound_meet hs e.2

theorem sound_enter (hs : s.Sound) (id : Nat) : Yields Sound (s.enter id) := by
  simp only [enter]
  split
  · exact .error
  · split
    · exact .andThen fun graph => sound_meetEntries (show Sound { s with graph } from hs) _
    · exact .error
  · split
    · exact .foldlM (fun s id hs => sound_meet hs id) _ hs
    · split
      · refine .foldlM (fun s item hs => ?_) _ hs
        split
        · exact (sound_meet hs _).bind fun s hs => sound_meet hs _
        · exact .error
      · exact .error

theorem sound_finish (hs : s.Sound) (fuel : Nat) : Yields Sound (finish fuel s) := by
  induction fuel generalizing s with
  | zero => exact .ok hs
  | succ fuel ih =>
    rw [finish]
    split
    · exact .ok hs
    · have hnone : Sound { s with pending := [] } := hs
      exact (Yields.foldlM (fun s id hs => sound_enter hs id) _ hnone).bind fun s hs => ih hs

theorem Sound.build (hs : s.Sound) (id : Nat) : (s.build id).Distinct := by
  simp only [Survey.build]
  split
  · split
    · exact distinct_of_not_map nofun
    · split
      · have hnil : (Assoc.keys ([] : Assoc String Value)).Nodup := List.nodup_nil
        refine distinct_map (Assoc.nodup_putAll hnil _) fun e he => ?_
        rcases Assoc.mem_putAll he with he | he
        · cases he
        · obtain ⟨entry, -, rfl⟩ := List.mem_map.mp he
          exact hs entry.2
      · exact distinct_of_not_map nofun
    · exact distinct_of_not_map nofun
  · exact hs id

theorem Sound.built (hs : s.Sound) (depth : Nat) : (s.built depth).Sound := by
  induction depth with
  | zero => exact hs
  | succ depth ih =>
    intro id
    simp only [value, Survey.built, Array.getD_eq_getD_getElem?, Array.getElem?_map,
      Array.getElem?_range]
    split
    · exact ih.build id
    · exact distinct_of_not_map nofun

end Survey

theorem sound_survey (g : Graph) : Yields Survey.Sound g.survey := by
  refine (Survey.sound_meet (fun id => ?_) g.root).bind fun s hs => Survey.sound_finish hs _
  simp only [Survey.value, Array.getD_eq_getD_getElem?, Array.getElem?_replicate]
  split <;> exact distinct_of_not_map nofun

end Graph

/-- What a text is read as has no key twice. -/
theorem distinct_load (text : List Char) : Yields Distinct (load text) := by
  refine .andThen fun graph => ?_
  cases graph with
  | none => exact .ok (distinct_of_not_map nofun)
  | some g => exact (Graph.sound_survey g).bind fun s hs => .ok (hs.built (maxCalls + 1) g.root)

end Leasehold.Yaml
