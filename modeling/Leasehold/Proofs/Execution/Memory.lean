import Leasehold.Proofs.Execution
import Leasehold.Proofs.Service.Memory

/-!
# Records in memory in trouble

An operation reads, decides and writes at most once, so that a failed one has written nothing. The
map itself does not fail; what is said of failing calls holds of any map in its place.
-/

namespace Leasehold.Memory
open Session
variable {op : Operation} {c : Claim} {s : Store} {P : Fault → Prop}

theorem ensures_then {α : Type} {Q : Except Error α → Store → Prop} {call : Call} {a : α} :
    Ensures (troubled {client} P) Q ((ask (I := interface) call).bind fun _ => done a) s ↔
      Q (.ok a) (client call s).2 ∧ ∀ f, P f → Q (.error (.fault f)) s := by
  rw [ensures_ask_bind]
  cases call <;> exact and_congr_left fun _ => ensures_done

theorem ensures_read {α : Type} {Q : Except Error α → Store → Prop} {key : String}
    {k : Option Lock → Session interface α} :
    Ensures (troubled {client} P) Q ((read key).bind k) s ↔
      Ensures (troubled {client} P) Q (k (Assoc.find? s key)) s ∧ ∀ f, P f →
      Q (.error (.fault f)) s :=
  ensures_ask_bind (I := interface) (c := .read key)

/-- The map that a permitted operation leaves behind: the record is written, or there is none to
write and the key is cleared. -/
def leaves (op : Operation) (c : Claim) (s : Store) : Store :=
  if op.permits (Assoc.find? s c.key) then
    (op.written Decision.extend (Assoc.find? s c.key)).elim (Assoc.erase s c.key)
      (Assoc.put s c.key)
  else s

theorem leaves_put {l : Lock} (h : op.effect (Assoc.find? s c.key) = .put l) :
    leaves op c s = Assoc.put s c.key l := by
  obtain ⟨hp, hw⟩ := Operation.written_of_put h
  rw [leaves, if_pos hp, hw, Option.elim_some]

theorem leaves_refused (h : (op.decide (Assoc.find? s c.key)).1.isSuccess = false) :
    leaves op c s = s := by
  rw [Operation.isSuccess_decide] at h
  rw [leaves, if_neg (by rw [h]; exact Bool.false_ne_true)]

/-- What an operation does once it has read the record: when it is permitted it writes its own, or
clears the key. -/
def change (op : Operation) (c : Claim) (existing : Option Lock) : Session interface Unit :=
  if op.permits existing then (op.written Decision.extend existing).elim (remove c.key)
    (write c.key) else done ()

/-- An operation reads, decides and changes at most one key. -/
theorem attempt_eq (h : op.check = .ok c) : op.attempt service c =
    (read c.key).bind fun existing => (change op c existing).bind fun _ =>
      done (op.decide existing) := by
  cases hk : op.kind with
  | acquire =>
    simp only [Operation.attempt, hk, service, acquire, Claim.key_raw, Claim.lock_raw, bind_eq,
      Session.bind_assoc, Operation.acquire_request h hk,
      Operation.acquire_decision hk]
    refine congrArg (Session.bind _) (funext fun existing => ?_)
    rw [← Operation.decide_snd (by rw [hk]; decide) existing, Operation.isSuccess_decide, change]
    split
    · rw [Session.bind_assoc, Operation.written, hk]
      rfl
    · rfl
  | renew =>
    simp only [Operation.attempt, hk, service, renew, Claim.key_raw, Claim.lock_raw, bind_eq,
      Operation.renew_request h hk]
    refine congrArg (Session.bind _) (funext fun existing => ?_)
    have hrenewed := @Operation.renewed_decide op existing
    have hwritten : op.written Decision.extend existing = op.renewed Decision.extend existing := by
      simp only [Operation.written, hk]
    rw [change, hwritten]
    cases ho : op.decide existing with
    | mk o l =>
      rw [ho] at hrenewed
      cases hp : op.permits existing with
      | false =>
        rw [hp] at hrenewed
        cases hrenewed
        rfl
      | true =>
        rw [hp] at hrenewed
        obtain ⟨m, rfl⟩ : ∃ m, existing = some m := by
          cases existing with
          | none => simp only [Operation.permits, hk] at hp; cases hp
          | some m => exact ⟨m, rfl⟩
        simp only [Operation.renewed, hk, Option.map_some, if_true] at hrenewed ⊢
        cases hrenewed
        rfl
  | release =>
    simp only [Operation.attempt, hk, service, release, Claim.key_raw, Claim.lock_raw, bind_eq,
      Session.bind_assoc, Operation.release_request h hk]
    refine congrArg (Session.bind _) (funext fun existing => ?_)
    rw [← Operation.decide_snd (by rw [hk]; decide) existing, Operation.isSuccess_decide, change]
    split
    · rw [Session.bind_assoc, Operation.written, hk, Operation.renewed, hk]
      rfl
    · rfl

/-- An operation is decided by the rules, unless one of its calls fails. -/
theorem ensures_attempt {Q : Except Error Verdict → Store → Prop} (h : op.check = .ok c) :
    Ensures (troubled {client} P) Q (op.attempt service c) s ↔
      Q (.ok (op.decide (Assoc.find? s c.key))) (leaves op c s) ∧ ∀ f, P f →
      Q (.error (.fault f)) s := by
  rw [attempt_eq h, ensures_read]
  refine and_congr_left fun hfail => ?_
  rw [change, leaves]
  split
  · cases op.written Decision.extend (Assoc.find? s c.key) with
    | none => exact ensures_then.trans (and_iff_left hfail)
    | some l => exact ensures_then.trans (and_iff_left hfail)
  · exact ensures_done

theorem ensures_kept (h : op.check = .ok c) :
    Ensures (troubled {client} P) (fun r s' => Unsuccessful r → s' = s) (op.attempt service c) s :=
  (ensures_attempt h).mpr ⟨fun hu => leaves_refused (hu _ rfl), fun _ _ _ => rfl⟩

theorem ensures_ruled (h : op.check = .ok c) :
    Ensures {client} (fun r _ => op.Ruled (Assoc.find? s c.key) (fun _ => True) r)
      (op.attempt service c) s :=
  ((ensures_attempt h).mpr ⟨.inl rfl, nofun⟩).of_subset (subset_troubled {client} fun _ => False)

theorem ensures_answered (h : op.check = .ok c) :
    Ensures {client} (fun r _ => ∃ v, r = .ok v) (op.attempt service c) s :=
  ((ensures_attempt h).mpr ⟨⟨_, rfl⟩, nofun⟩).of_subset (subset_troubled {client} fun _ => False)

theorem ensures_found (realm name : String) :
    Ensures {client} (fun r _ => r = .ok (Assoc.find? s (Lock.keyOf realm name)))
      (find realm name) s :=
  Ensures.of_subset (subset_troubled {client} fun _ => False)
    (ensures_ask_troubled (I := interface) (c := .read (Lock.keyOf realm name)) |>.mpr ⟨rfl, nofun⟩)

end Leasehold.Memory
