import Leasehold.Proofs.Record
import Mathlib.Order.Max

/-!
# Which lock, and whose

A record says by four fields which lock it is about and who holds it, and a field that is `none`
leaves that open. One identity lies below another when the other says all that it says. Records
match in that order (`isMatch_iff_le`), which runs one way only: what is left open by the lower one
is open to anything. An identity that leaves nothing open has none above it but itself, so whoever
names a lock and its holder in full matches nobody else's record.
-/

namespace Leasehold.Lock

/-- All that the one says the other says too. -/
def within (a b : Option String) : Prop := ∀ s, a = some s → b = some s

theorem agrees_iff_within (a b : Option String) :
    agrees (a.map .text) (b.map .text) ↔ within a b := by
  cases a with
  | none => simp [agrees, within]
  | some s =>
    rw [Option.map_some, agrees_text, decide_eq_true_iff]
    cases b <;> simp [within]

theorem within_antisymm {a b : Option String} (h : within a b) (h' : within b a) : a = b := by
  cases a with
  | none =>
    cases b with
    | none => rfl
    | some t => exact h' t rfl
  | some s => exact (h s rfl).symm

theorem eq_of_within {a b : Option String} (ha : a ≠ none) (h : within a b) : b = a := by
  cases a with
  | none => exact absurd rfl ha
  | some s => exact h s rfl

/-- The fields that say which lock it is, and whose. -/
@[ext] structure Identity where
  realm : Option String
  name : Option String
  owner : Option String
  instanceId : Option String

namespace Identity

instance : PartialOrder Identity where
  le a b := within a.realm b.realm ∧ within a.name b.name ∧ within a.owner b.owner ∧
    within a.instanceId b.instanceId
  le_refl a := ⟨fun _ => id, fun _ => id, fun _ => id, fun _ => id⟩
  le_trans _ _ _ h h' := ⟨fun s hs => h'.1 s (h.1 s hs), fun s hs => h'.2.1 s (h.2.1 s hs),
    fun s hs => h'.2.2.1 s (h.2.2.1 s hs), fun s hs => h'.2.2.2 s (h.2.2.2 s hs)⟩
  le_antisymm _ _ h h' := Identity.ext (within_antisymm h.1 h'.1) (within_antisymm h.2.1 h'.2.1)
    (within_antisymm h.2.2.1 h'.2.2.1) (within_antisymm h.2.2.2 h'.2.2.2)

/-- Nothing is left open. -/
structure Complete (a : Identity) : Prop where
  realm : a.realm ≠ none
  name : a.name ≠ none
  owner : a.owner ≠ none
  instanceId : a.instanceId ≠ none

theorem Complete.isMax {a : Identity} (h : a.Complete) : IsMax a := by
  rintro b ⟨hrealm, hname, howner, hinstance⟩
  refine le_of_eq (Identity.ext ?_ ?_ ?_ ?_)
  · exact eq_of_within h.realm hrealm
  · exact eq_of_within h.name hname
  · exact eq_of_within h.owner howner
  · exact eq_of_within h.instanceId hinstance

theorem Complete.le_iff {a b : Identity} (h : a.Complete) : a ≤ b ↔ b = a :=
  ⟨fun hab => (h.isMax.eq_of_le hab).symm, fun hba => hba.ge⟩

end Identity

/-- Which lock, and whose. -/
def who (r : Record) : Identity := ⟨r.realm, r.name, r.owner, r.instanceId⟩

theorem isMatch_iff_le (a b : Record) : a.lock.isMatch b.lock ↔ who a ≤ who b := by
  simp only [isMatch, Bool.and_eq_true, and_assoc, Record.lock, agrees_iff_within]
  exact Iff.rfl

/-- Matching is a partial order on identities, and equality above a complete one. Leases have no
part in it. -/
theorem isMatch_partialOrder (a b c : Record) :
    a.lock.isMatch a.lock ∧
    (a.lock.isMatch b.lock → b.lock.isMatch c.lock → a.lock.isMatch c.lock) ∧
      (a.lock.isMatch b.lock ∧ b.lock.isMatch a.lock ↔ who a = who b) ∧
      ((who a).Complete → (a.lock.isMatch b.lock ↔ who b = who a)) ∧
      ∀ lease expiry lease' expiry',
        (a.lock.withLease lease expiry).isMatch (b.lock.withLease lease' expiry') =
          a.lock.isMatch b.lock := by
  refine ⟨?_, ?_, ?_, ?_, fun _ _ _ _ => rfl⟩
  · exact (isMatch_iff_le a a).mpr le_rfl
  · simp only [isMatch_iff_le]
    exact le_trans
  · simp only [isMatch_iff_le]
    exact le_antisymm_iff.symm
  · rw [isMatch_iff_le]
    exact Identity.Complete.le_iff

/-- A request for any holder, one for the holder's own lock, and the record of that. -/
theorem isMatch_partialOrder_open :
    let any : Record := { realm := "jobs", name := "nightly" }
    let own : Record := { any with owner := "ada" }
    let held : Record := { own with instanceId := "one", lease := some 10, expiry := some 25 }
    (any.lock.isMatch own.lock ∧ own.lock.isMatch held.lock ∧ any.lock.isMatch held.lock) ∧
      (who held).Complete ∧ (held.lock.isMatch own.lock ↔ who own = who held) := by
  intro any own held
  have hany : any.lock.isMatch own.lock := by decide
  have hown : own.lock.isMatch held.lock := by decide
  have hheld : (who held).Complete := ⟨nofun, nofun, nofun, nofun⟩
  exact ⟨⟨hany, hown, (isMatch_partialOrder any own held).2.1 hany hown⟩, hheld,
    (isMatch_partialOrder held own any).2.2.2.1 hheld⟩

end Leasehold.Lock
