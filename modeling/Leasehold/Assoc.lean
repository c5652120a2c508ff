/-! # Association lists

Finite maps as lists of pairs in order of first insertion: at most one pair per key is ever looked
at, and `put` keeps the place of a key that is already there. -/

namespace Leasehold

/-- A finite map from `κ` to `α`. -/
abbrev Assoc (κ α : Type) := List (κ × α)

namespace Assoc
variable {κ α : Type} [DecidableEq κ]

def find? : Assoc κ α → κ → Option α
  | [], _ => none
  | (k', a) :: m, k => if k' = k then some a else find? m k

def put : Assoc κ α → κ → α → Assoc κ α
  | [], k, a => [(k, a)]
  | (k', a') :: m, k, a => if k' = k then (k, a) :: m else (k', a') :: put m k a

/-- `m` without the keys that `p` selects. -/
def drop (m : Assoc κ α) (p : κ → Bool) : Assoc κ α := m.filter fun e => !p e.1

def erase (m : Assoc κ α) (k : κ) : Assoc κ α := m.drop (· = k)

/-- `m` with all of `n` put on top. -/
def putAll (m n : Assoc κ α) : Assoc κ α := n.foldl (fun m e => m.put e.1 e.2) m

def keys (m : Assoc κ α) : List κ := m.map Prod.fst

/-- The map of a list in which a later pair replaces an earlier one of the same key. -/
def ofPairs (entries : List (κ × α)) : Assoc κ α := putAll [] entries

@[simp] theorem find?_nil (k : κ) : find? ([] : Assoc κ α) k = none := rfl

theorem find?_put (m : Assoc κ α) (k j : κ) (a : α) :
    (m.put k a).find? j = if k = j then some a else m.find? j := by
  induction m with
  | nil => simp [put, find?]
  | cons e m ih =>
    obtain ⟨k', a'⟩ := e
    simp only [put]
    split
    · rename_i h; subst h; simp only [find?]; split <;> rfl
    · rename_i h
      simp only [find?, ih]
      by_cases h1 : k' = j
      · subst h1; simp [Ne.symm h]
      · simp [h1]

@[simp] theorem find?_put_self (m : Assoc κ α) (k : κ) (a : α) : (m.put k a).find? k = some a := by
  simp [find?_put]

theorem find?_put_ne {k j : κ} (h : k ≠ j) (m : Assoc κ α) (a : α) : (m.put k a).find? j = m.find? j := by
  simp [find?_put, h]

theorem find?_drop (m : Assoc κ α) (p : κ → Bool) (k : κ) :
    (m.drop p).find? k = if p k then none else m.find? k := by
  induction m with
  | nil => simp [drop]
  | cons e m ih =>
    obtain ⟨k', a⟩ := e
    simp only [drop, List.filter_cons]
    by_cases hp : p k'
    · simp only [hp, Bool.not_true, Bool.false_eq_true, if_false]
      rw [show List.filter (fun e => !p e.1) m = drop m p from rfl, ih]
      by_cases hk : p k
      · simp [hk]
      · have : k' ≠ k := fun h => hk (h ▸ hp)
        simp [hk, find?, this]
    · simp only [hp, Bool.not_false, if_true, find?]
      rw [show List.filter (fun e => !p e.1) m = drop m p from rfl, ih]
      by_cases hkk : k' = k
      · subst hkk; simp [hp]
      · simp [hkk]

@[simp] theorem find?_erase_self (m : Assoc κ α) (k : κ) : (m.erase k).find? k = none := by
  simp [erase, find?_drop]

theorem find?_erase_ne {k j : κ} (h : j ≠ k) (m : Assoc κ α) : (m.erase k).find? j = m.find? j := by
  simp [erase, find?_drop, h]

theorem mem_of_find? {m : Assoc κ α} {k : κ} {a : α} (h : m.find? k = some a) : (k, a) ∈ m := by
  induction m with
  | nil => cases h
  | cons e m ih =>
    simp only [find?] at h
    split at h
    · rename_i hk; subst hk; cases h; exact List.mem_cons_self
    · exact List.mem_cons_of_mem _ (ih h)

theorem mem_put {m : Assoc κ α} {k : κ} {a : α} {e : κ × α} (h : e ∈ m.put k a) : e = (k, a) ∨ e ∈ m := by
  induction m with
  | nil => exact .inl (List.mem_singleton.mp h)
  | cons e' m ih =>
    simp only [put] at h
    split at h
    · rcases List.mem_cons.mp h with h | h
      · exact .inl h
      · exact .inr (List.mem_cons_of_mem _ h)
    · rcases List.mem_cons.mp h with h | h
      · exact .inr (h ▸ List.mem_cons_self)
      · exact (ih h).imp_right (List.mem_cons_of_mem _)

section Keys
variable {m n : Assoc κ α} {k : κ} {a : α}

theorem find?_of_mem (hn : m.keys.Nodup) (h : (k, a) ∈ m) : m.find? k = some a := by
  induction m with
  | nil => cases h
  | cons e m ih =>
    obtain ⟨hne, hn⟩ := List.nodup_cons.mp hn
    rcases List.mem_cons.mp h with rfl | h
    · exact if_pos rfl
    · have hk : e.1 ≠ k := fun hk => hne (hk ▸ List.mem_map_of_mem h)
      exact (if_neg hk).trans (ih hn h)

theorem find?_eq_none_iff : m.find? k = none ↔ k ∉ m.keys := by
  induction m with
  | nil => simp [keys]
  | cons e m ih =>
    simp only [find?, keys, List.map_cons, List.mem_cons, not_or]
    by_cases hk : e.1 = k
    · simp [hk]
    · simp [hk, Ne.symm hk, ih, keys]

theorem isSome_find? : (m.find? k).isSome = true ↔ k ∈ m.keys := by
  cases hf : m.find? k with
  | none => exact iff_of_false nofun (find?_eq_none_iff.mp hf)
  | some a => exact iff_of_true rfl (List.mem_map_of_mem (mem_of_find? hf))

/-- What is there already changes nothing. -/
theorem put_of_find? (h : m.find? k = some a) : m.put k a = m := by
  induction m with
  | nil => cases h
  | cons e m ih =>
    obtain ⟨k', a'⟩ := e
    simp only [find?] at h
    simp only [put]
    split at h
    · rename_i hk
      cases h
      rw [if_pos hk, hk]
    · rename_i hk
      rw [if_neg hk, ih h]

theorem nodup_put (hn : m.keys.Nodup) (k : κ) (a : α) : (m.put k a).keys.Nodup := by
  induction m with
  | nil => simp [put, keys]
  | cons e m ih =>
    obtain ⟨hne, hn⟩ := List.nodup_cons.mp hn
    simp only [put]
    split
    · rename_i hk
      exact List.nodup_cons.mpr ⟨hk ▸ hne, hn⟩
    · rename_i hk
      refine List.nodup_cons.mpr ⟨fun hmem => ?_, ih hn⟩
      obtain ⟨e', he', heq⟩ := List.mem_map.mp hmem
      rcases mem_put he' with rfl | he'
      · exact hk heq.symm
      · exact hne (heq ▸ List.mem_map_of_mem he')

theorem nodup_putAll (hm : m.keys.Nodup) (n : Assoc κ α) : (m.putAll n).keys.Nodup := by
  induction n generalizing m with
  | nil => exact hm
  | cons e n ih => exact ih (nodup_put hm e.1 e.2)

theorem mem_putAll {e : κ × α} (h : e ∈ m.putAll n) : e ∈ m ∨ e ∈ n := by
  induction n generalizing m with
  | nil => exact .inl h
  | cons e' n ih =>
    rcases ih h with h | h
    · rcases mem_put h with rfl | h
      · exact .inr List.mem_cons_self
      · exact .inl h
    · exact .inr (List.mem_cons_of_mem _ h)

end Keys

theorem mem_of_mem_erase {m : Assoc κ α} {k : κ} {e : κ × α} (h : e ∈ m.erase k) : e ∈ m :=
  (List.mem_filter.mp h).1

end Assoc

end Leasehold
