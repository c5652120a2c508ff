import Leasehold.Service.Memory
import Leasehold.Proofs.Record
import Leasehold.Proofs.System

/-!
# The laws of locks in memory

Every operation holds the lock of the process, so it runs as one transaction. The rules of
`Decision` decide, and a release clears the key on every success.
-/

namespace Leasehold.Memory
open Session

abbrev system : System where
  I := interface
  Store := Store
  client := client
  losses := ∅
  service := service
  empty := []
  whole := true
  Slot := String
  slot := Lock.keyOf
  Raw := Lock
  raw := Assoc.find?
  read := .ok
  passes := fun _ _ => True
  writable := fun _ => True
  fits := fun _ => True
  extend := Decision.extend

/-- Nothing changes between two calls. -/
def terms : Terms interface Store Unit := .plain client (fun _ => True) (fun _ => True) False

theorem record_eq (s : Store) (k : String) : system.record s k = Assoc.find? s k := by
  show (Assoc.find? s k).bind some = _
  cases Assoc.find? s k <;> rfl

section Calls
variable {α : Type} {g : Unit} {s₀ s₁ : Store}

theorem obeys_step (c : Call) {Q : Except Error (Reply c) → Unit → Store → Store → Prop} :
    (ask (I := interface) c).Obeys terms Q g s₀ s₁ ↔
      s₁ = s₀ ∧ Q ((client c s₁).1.mapError .fault) g s₁ (client c s₁).2 := by
  constructor
  · intro h
    obtain ⟨hs, h⟩ := (obeys_ask (T := terms) c Q).mp h
    exact ⟨hs, (h s₁ ⟨trivial, fun _ => rfl⟩ trivial).2 client rfl⟩
  · rintro ⟨hs, hQ⟩
    refine obeys_ask_plain hs fun s _ hc => ⟨trivial, ?_⟩
    rw [hc id]
    exact hQ

theorem obeys_read {Q : Except Error (Option Lock) → Unit → Store → Store → Prop} (key : String) :
    (read key).Obeys terms Q g s₀ s₁ ↔ s₁ = s₀ ∧ Q (.ok (Assoc.find? s₁ key)) g s₁ s₁ :=
  obeys_step (.read key)

theorem obeys_write {Q : Except Error Unit → Unit → Store → Store → Prop}
    (key : String) (l : Lock) :
    (write key l).Obeys terms Q g s₀ s₁ ↔ s₁ = s₀ ∧ Q (.ok ()) g s₁ (Assoc.put s₁ key l) :=
  obeys_step (.write key l)

theorem obeys_remove {Q : Except Error Unit → Unit → Store → Store → Prop} (key : String) :
    (remove key).Obeys terms Q g s₀ s₁ ↔ s₁ = s₀ ∧ Q (.ok ()) g s₁ (Assoc.erase s₁ key) :=
  obeys_step (.remove key)

end Calls

theorem conforms_clear {op : Operation} (hk : op.kind = .release) (before : Option Lock) :
    op.Conforms Decision.extend before (op.decide before)
      (if (op.decide before).1.isSuccess then none else before) where
  operation := Operation.operation_decide before
  success := Operation.isSuccess_decide before
  renewed := Operation.renewed_decide before
  writes := fun _ h => absurd hk h
  removes := fun hp _ => .inl (by rw [Operation.isSuccess_decide, hp]; rfl)
  unchanged := fun hp => by rw [Operation.isSuccess_decide, hp]; rfl

variable {contention : Prop} {op : Operation} {c : Claim} {s : Store}

theorem settles {v : Verdict} {s' : Store}
    (hs : ∀ k, k ≠ c.key → Assoc.find? s' k = Assoc.find? s k)
    (h : op.Conforms Decision.extend (Assoc.find? s c.key) v (Assoc.find? s' c.key)) :
    system.Settles contention op c (.ok v) s s' where
  others := fun k hk => by rw [record_eq, record_eq]; exact hs k hk
  ends := fun _ => .ruled (by rw [record_eq, record_eq]; exact h) fun _ _ _ => trivial

theorem settles_put {v : Verdict} {l : Lock}
    (h : op.Conforms Decision.extend (Assoc.find? s c.key) v (some l)) :
    system.Settles contention op c (.ok v) s (Assoc.put s c.key l) :=
  settles (fun _ hk => Assoc.find?_put_ne (Ne.symm hk) s l) (by rw [Assoc.find?_put_self]; exact h)

theorem settles_erase {v : Verdict} (h : op.Conforms Decision.extend (Assoc.find? s c.key) v none) :
    system.Settles contention op c (.ok v) s (Assoc.erase s c.key) :=
  settles (fun _ hk => Assoc.find?_erase_ne hk s) (by rw [Assoc.find?_erase_self]; exact h)

theorem obeys_attempt (h : op.check = .ok c) (s : Store) :
    (op.attempt service c).Obeys terms (fun r _ => system.Settles contention op c r) () s s := by
  cases hk : op.kind with
  | acquire =>
    simp only [Operation.attempt, hk, service, acquire, Claim.key_raw, Claim.lock_raw, bind_eq,
      obeys_bind, obeys_read,
      Operation.acquire_request h hk, Operation.acquire_decision hk, true_and]
    split
    · rename_i ho
      rw [obeys_bind, obeys_write]
      refine ⟨rfl, settles_put ?_⟩
      rw [Operation.decide_snd (by rw [hk]; decide)]
      exact Operation.conforms_of_effect (Operation.effect_acquired hk ho)
    · rename_i ho
      refine settles (fun _ _ => rfl) ?_
      rw [Operation.decide_snd (by rw [hk]; decide)]
      exact Operation.conforms_of_effect (Operation.effect_not_acquired hk ho)
  | renew =>
    simp only [Operation.attempt, hk, service, renew, Claim.key_raw, Claim.lock_raw, bind_eq,
      obeys_bind, obeys_read,
      Operation.renew_request h hk, true_and]
    split
    · rename_i o l ho
      rw [obeys_bind, obeys_write]
      refine ⟨rfl, settles_put ?_⟩
      rw [← ho]
      exact Operation.conforms_of_effect (Operation.effect_renewed hk ho)
    · rename_i o ho
      refine settles (fun _ _ => rfl) ?_
      rw [← ho]
      exact Operation.conforms_of_effect (Operation.effect_not_renewed hk ho)
  | release =>
    have hd := conforms_clear hk (Assoc.find? s c.key)
    simp only [Operation.attempt, hk, service, release, Claim.key_raw, Claim.lock_raw, bind_eq,
      obeys_bind, obeys_read,
      Operation.release_request h hk, true_and]
    split
    · rename_i ho
      rw [obeys_bind, obeys_remove]
      refine ⟨rfl, settles_erase ?_⟩
      rw [Operation.decide_snd (by rw [hk]; decide)]
      rwa [if_pos ho] at hd
    · rename_i ho
      refine settles (fun _ _ => rfl) ?_
      rw [Operation.decide_snd (by rw [hk]; decide)]
      rwa [if_neg ho] at hd

def laws : system.Laws where
  Token := Unit
  terms := fun _ => terms
  good := fun _ => True
  good_eq := fun _ => rfl
  seen := fun _ _ => trivial
  sound := fun _ => Terms.plain_sound fun _ _ => trivial
  fair := nofun
  extend := fun _ _ _ => ⟨_, _, rfl⟩
  extend_live := fun hnow hlive => Decision.extend_live _ hnow hlive
  client_mem := fun _ => rfl
  losses_mem := nofun
  passes_refl := fun _ => trivial
  slot_inj := Lock.keyOf_inj
  writable_of_fits := fun _ _ _ => trivial
  good_empty := trivial
  record_empty := fun _ => rfl
  record_of_silent := fun h => congrArg system.record h
  good_sweep := fun _ _ => trivial
  admits_sweep := nofun
  attempt := fun _ _ _ h s => obeys_attempt h s
  find := by
    intro _ realm name s
    refine (obeys_read (Lock.keyOf realm name)).2 ⟨rfl, ?_, rfl⟩
    rw [record_eq]

end Leasehold.Memory
