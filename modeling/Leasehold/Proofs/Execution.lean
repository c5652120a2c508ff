import Leasehold.Proofs.Operation
import Leasehold.Proofs.Session.Ensures

/-!
# Services in trouble

The rules of `Ensures` for what all services have in common: the checks before an operation and the
record of its outcome after it (`Operation.ensures_session`), and the faults that a service answers
for (`recovered`). A reading `Escapes` when it fails with a fault that the service does not answer
for.
-/

namespace Leasehold
open Session

section Recovered
variable {α : Type}

/-- A result in which the errors that `answers` accepts are answered with `failed`. -/
def recovered (answers : Error → Bool) (failed : α) : Except Error α → Except Error α
  | .ok a => .ok a
  | .error e => if answers e then .ok failed else .error e

/-- The reading fails with a fault of none of the given kinds. -/
def Escapes (kinds : List Fault.Kind) (reading : Except Fault α) : Prop :=
  ∃ f, reading = .error f ∧ f.kind ∉ kinds

@[simp] theorem not_escapes_ok {kinds : List Fault.Kind} {a : α} : ¬ Escapes kinds (.ok a) := by
  rintro ⟨_, ⟨⟩, -⟩

@[simp] theorem escapes_error {kinds : List Fault.Kind} {f : Fault} :
    Escapes kinds (.error f : Except Fault α) ↔ f.kind ∉ kinds := by
  simp only [Escapes, Except.error.injEq, exists_eq_left']

theorem escapes_map {β : Type} {kinds : List Fault.Kind} (g : α → β) {reading : Except Fault α} :
    Escapes kinds (reading.map g) ↔ Escapes kinds reading := by
  cases reading with
  | ok a => exact iff_of_false not_escapes_ok not_escapes_ok
  | error f => exact escapes_error.trans escapes_error.symm

theorem answersFor_fault (kinds : List Fault.Kind) (f : Fault) :
    Service.answersFor kinds (.fault f) = decide (f.kind ∈ kinds) := by
  simp only [Service.answersFor, List.contains_eq_mem]

theorem recovered_ok {answers : Error → Bool} {failed a : α} {r : Except Error α}
    (h : recovered answers failed r = .ok a) : r = .ok a ∨ a = failed := by
  cases r with
  | ok b => exact .inl h
  | error e =>
    simp only [recovered] at h
    split at h
    · cases h; exact .inr rfl
    · cases h

theorem recovered_map {β : Type} (f : α → β) (answers : Error → Bool) (failed : α)
    (r : Except Error α) :
    (recovered answers failed r).map f = recovered answers (f failed) (r.map f) := by
  cases r with
  | ok a => rfl
  | error e =>
    simp only [recovered]
    split
    · rename_i h
      simp only [Except.map, h, if_true]
    · rename_i h
      simp only [Except.map, h]
      rfl

theorem exists_recovered {kinds : List Fault.Kind} {failed : α} {reading : Except Fault α} :
    (∃ a, recovered (Service.answersFor kinds) failed (reading.mapError .fault) = .ok a) ↔
    ¬ Escapes kinds reading := by
  cases reading with
  | ok a => exact iff_of_true ⟨a, rfl⟩ not_escapes_ok
  | error f =>
    simp only [Except.mapError, recovered, answersFor_fault, decide_eq_true_eq,
      escapes_error, not_not]
    by_cases hf : f.kind ∈ kinds
    · simp only [hf, if_true, iff_true]; exact ⟨_, rfl⟩
    · simp only [hf, if_false, iff_false]; exact nofun

theorem recovered_fault {kinds : List Fault.Kind} {failed : α} {f : Fault} (hf : f.kind ∈ kinds) :
    recovered (Service.answersFor kinds) failed (.error (.fault f)) = .ok failed := by
  simp only [recovered, answersFor_fault, hf, decide_true, if_true]

end Recovered

variable {I : Interface} {σ α : Type} {clients : Set (Client I σ)} {s : σ}

theorem Service.ensures_guarded {answers : Error → Bool} {event : String} {realm name : Value}
    {failed : α} {session : Session I α} {Q : Except Error α → σ → Prop} :
    Ensures clients Q (Service.guarded answers event realm name failed session) s ↔
      Ensures clients (fun r t => Q (recovered answers failed r) t) session s := by
  rw [Service.guarded, ensures_rescue]
  refine iff_of_eq (congrArg (Ensures clients · session s) (funext fun r => funext fun t => ?_))
  cases r with
  | ok a => rfl
  | error e =>
    simp only [recovered, Service.report, ensures_note, ensures_done]
    split <;> rfl

theorem Service.ensures_guarded_all {event : String} {realm name : Value} {failed : α}
    {session : Session I α} :
    Ensures clients (fun r _ => ∃ a, r = .ok a)
      (Service.guarded (fun _ => true) event realm name failed session) s := by
  rw [Service.ensures_guarded]
  intro r _ _
  cases r with
  | ok a => exact ⟨a, rfl⟩
  | error e => exact ⟨failed, rfl⟩

theorem Service.guarded_map {β : Type} (f : α → β) (answers : Error → Bool) (event : String)
    (realm name : Value) (failed : α) (session : Session I α) :
    (Service.guarded answers event realm name failed session).bind (fun a => done (f a)) =
      Service.guarded answers event realm name (f failed) (session.bind fun a => done (f a)) := by
  rw [Service.guarded, rescue_map]
  rfl

theorem Service.getLock_eq (service : Service I) {realm name : String} (hr : realm ≠ "")
    (hn : name ≠ "") :
    service.getLock (some realm) (some name) = service.find realm name := by
  have htruthy {s : String} (hs : s ≠ "") : (Value.text s).isTruthy = true := decide_eq_true hs
  simp only [Service.getLock, RawClaim.checkKey, RawClaim.demandName, Option.map_some, htruthy hr,
    htruthy hn, if_true]
  rfl

namespace Operation
variable {op : Operation} {c : Claim} {Q : Except Error Answer → σ → Prop}

theorem ensures_session_of_error (service : Service I) {e : Error} (h : op.check = .error e) :
    Ensures clients Q (op.session service) s ↔ Q (.error e) s := by
  rw [op.session_of_error service h, ensures_fail]

theorem ensures_finish (service : Service I) {session : Session I Verdict} :
    Ensures clients Q (session.bind fun v => service.finish (v.2.getD op.lock) v.1) s ↔
      Ensures clients (fun r t => Q (r.map op.answer) t) session s := by
  rw [ensures_bind]
  refine iff_of_eq (congrArg (Ensures clients · _ s) (funext fun r => funext fun t => ?_))
  cases r with
  | ok v =>
    show Ensures clients Q (service.finish (v.2.getD op.lock) v.1) t = Q (.ok (op.answer v)) t
    rw [Service.finish, ensures_amend, ensures_note, ensures_done]
    rfl
  | error e => rfl

theorem ofLock_of_check (h : op.check = .ok c) :
    ∃ l, RawClaim.ofLock (some op.lock) = .ok (c, l) := by
  have renewal {r : Record} {c : RawClaim} {delta : Int} {m : Lock}
      (h : RawClaim.forRenewal (some r.lock) = .ok (c, delta, m)) : ∃ m,
        RawClaim.ofLock (some r.lock) = .ok (c.texts, m) := by
    obtain ⟨⟨c', m'⟩, ho, hrest⟩ := ok_of_bind h
    obtain ⟨lease, -, hrest⟩ := ok_of_bind hrest
    cases hrest
    exact ⟨_, (ofLock_eq_ok ho).1 ▸ ho⟩
  obtain ⟨kind, l, now⟩ := op
  cases kind <;> simp only [check, Functor.map, Except.map] at h <;> split at h <;> cases h <;>
    rename_i p hp
  · obtain ⟨⟨c', delta, m⟩, hr, hrest⟩ := ok_of_bind hp
    obtain ⟨expiry, -, hrest⟩ := ok_of_bind hrest
    cases hrest
    exact renewal hr
  · obtain ⟨c', delta, m⟩ := p
    exact renewal hp
  · exact ⟨p.2, (ofLock_eq_ok hp).1 ▸ hp⟩

theorem checkKey_of_check (h : op.check = .ok c) :
    RawClaim.checkKey (some (.text c.realm)) (some (.text c.name)) =
      .ok (.text c.realm, .text c.name) := by
  obtain ⟨l, ho⟩ := ofLock_of_check h
  obtain ⟨l', hl, ho⟩ := ok_of_bind ho
  cases hl
  obtain ⟨⟨realm, name⟩, hk, ho⟩ := ok_of_bind ho
  obtain ⟨owner, -, ho⟩ := ok_of_bind ho
  obtain ⟨instanceId, -, ho⟩ := ok_of_bind ho
  cases ho
  rwa [op.lock_of_check h] at hk

theorem getLock_claim {I : Interface} (service : Service I) (h : op.check = .ok c) :
    service.getLock (some c.realm) (some c.name) = service.find c.realm c.name := by
  simp only [Service.getLock, Option.map_some, checkKey_of_check h]
  rfl

theorem getLock_of_check {I : Interface} (service : Service I) (h : op.check = .ok c) :
    service.getLock op.record.realm op.record.name = service.find c.realm c.name := by
  rw [op.record_of_check h]
  exact getLock_claim service h

theorem ensures_session (service : Service I) (h : op.check = .ok c) :
    Ensures clients Q (op.session service) s ↔
      Ensures clients (fun r t => Q (r.map op.answer) t) (op.attempt service c) s := by
  rw [op.session_of_check service h, ensures_finish]

end Operation

/-! ### Judgements -/

namespace Operation
variable (op : Operation)

/-- The verdict goes by the record that is there: acquisitions and releases end in a conflict when
they are not permitted, and operations succeed when they are. -/
structure Suits (existing : Option Lock) (v : Verdict) : Prop where
  conflict : op.kind ≠ .renew → (v.1 = op.kind.conflict ↔ op.permits existing = false)
  success : v.1.isSuccess = op.permits existing

/-- The result goes by the record that is there, provided that what the operation writes can be
written. -/
structure Judges (existing : Option Lock) (writable : Prop) (r : Except Error Verdict) : Prop where
  conflict : op.kind ≠ .renew →
    ((∃ v, r = .ok v ∧ v.1 = op.kind.conflict) ↔ op.permits existing = false)
  success : writable → ((∃ v, r = .ok v ∧ v.1.isSuccess = true) ↔ op.permits existing = true)

variable {op} {existing : Option Lock} {writable : Prop}

theorem Suits.judges {v : Verdict} (h : op.Suits existing v) :
    op.Judges existing writable (.ok v) where
  conflict := fun hk => by simpa only [Except.ok.injEq, exists_eq_left'] using h.conflict hk
  success := fun _ => by simp only [Except.ok.injEq, exists_eq_left', h.success]

theorem Suits.of_permitted {v : Verdict} (hp : op.permits existing = true)
    (hs : v.1.isSuccess = true) :
    op.Suits existing v := by
  refine ⟨fun _ => ?_, hs.trans hp.symm⟩
  rw [hp]
  refine iff_of_false (fun hv => ?_) nofun
  rw [hv] at hs
  cases hk : op.kind <;> rw [hk] at hs <;> cases hs

theorem Suits.of_refused {v : Verdict} (hp : op.permits existing = false)
    (hv : v.1 = op.kind.conflict) :
    op.Suits existing v := by
  refine ⟨fun _ => iff_of_true hv hp, ?_⟩
  rw [hp, hv]
  cases op.kind <;> rfl

theorem effect_of_failure (h : (op.decide existing).1.isSuccess = false) :
    op.effect existing = .keep := by
  cases he : op.effect existing with
  | keep => rfl
  | put l => rw [isSuccess_decide, (written_of_put he).1] at h; cases h
  | delete =>
    cases hk : op.kind with
    | acquire => simp only [effect, hk] at he; split at he <;> cases he
    | renew =>
      simp only [effect, hk] at he; cases hr : (op.decide existing).2 <;> rw [hr] at he <;> cases he
    | release =>
      simp only [effect, hk] at he
      split at he
      · rename_i ho; rw [ho] at h; cases h
      · cases he

theorem effect_of_success (hk : op.kind ≠ .release) (hs : (op.decide existing).1.isSuccess = true) :
    op.effect existing = .put ((op.decide existing).2.getD op.lock) := by
  have hp : op.permits existing = true := (isSuccess_decide existing).symm.trans hs
  exact put_of_written hp ((conforms_decide op existing).shown hk hp)

theorem suits_decide (existing : Option Lock) : op.Suits existing (op.decide existing) := by
  refine ⟨fun hk => ?_, isSuccess_decide existing⟩
  obtain ⟨kind, l, now⟩ := op
  cases existing with
  | none => cases kind <;> first | exact absurd rfl hk | exact iff_of_false nofun nofun
  | some m =>
    cases hm : l.lock.isMatch m <;> cases he : m.isExpired now <;> cases kind <;>
      first | exact absurd rfl hk | simp [decide, permits, owns, lock, Lock.isGone,
        Decision.acquire, Decision.release, hm, he,
        Lock.isActive, Kind.conflict]

/-! The rules, for stores that test a condition and tell apart afterwards what they found. -/

theorem decide_taken (hk : op.kind = .acquire) (hp : op.permits existing = true) :
    op.decide existing = (if op.owns existing then .lockReplaced else .acquired, none) := by
  obtain ⟨kind, l, now⟩ := op
  cases hk
  cases existing with
  | none => rfl
  | some m =>
    cases hm : l.lock.isMatch m <;> cases he : m.isExpired now <;>
      simp [decide, permits, owns, lock, Lock.isGone, Decision.acquire, Lock.isActive,
        hm, he] at hp ⊢

theorem decide_not_taken (hk : op.kind = .acquire) (hp : op.permits existing = false) :
    op.decide existing = (.acquireConflict, none) := by
  have hrenew : op.kind ≠ .renew := by rw [hk]; decide
  rw [← decide_snd hrenew, ((suits_decide existing).conflict hrenew).mpr hp, hk]
  rfl

theorem decide_freed (hk : op.kind = .release) (ho : op.owns existing = true) :
    op.decide existing = (if existing.any (·.isExpired op.now) then .releasedExpired else .released,
      none) := by
  obtain ⟨kind, l, now⟩ := op
  cases hk
  cases existing with
  | none => cases ho
  | some m =>
    have hm : l.lock.isMatch m = true := ho
    simp only [decide, lock, Decision.release, hm, Option.any_some, Bool.not_true,
      Bool.false_eq_true, if_false]

theorem decide_not_freed (hk : op.kind = .release) (ho : op.owns existing = false) :
    op.decide existing = (Decision.afterRefusedRelease existing op.now, none) := by
  obtain ⟨kind, l, now⟩ := op
  cases hk
  cases existing with
  | none => rfl
  | some m =>
    have hm : l.lock.isMatch m = false := ho
    simp only [decide, lock, Decision.release, Decision.afterRefusedRelease, hm,
      Bool.not_false, if_true]

variable (op) in
/-- The result is that of the rules, or a failure because what they put is not `W`. -/
def Ruled (existing : Option Lock) (W : Lock → Prop) (r : Except Error Verdict) : Prop :=
  r = .ok (op.decide existing) ∨ (∀ v, r = .ok v → v.1 = op.kind.failed) ∧
    ∃ l, op.effect existing = .put l ∧ ¬ W l

section Ruled
variable {W : Lock → Prop} {r : Except Error Verdict}

/-- What should be written and cannot be is no conflict. -/
theorem Ruled.judges (h : op.Ruled existing W r) :
    op.Judges existing (∀ l, op.effect existing = .put l → W l) r := by
  rcases h with rfl | ⟨hfailed, l, he, hl⟩
  · exact (suits_decide existing).judges
  · refine ⟨fun _ => ?_, fun hw => absurd (hw l he) hl⟩
    rw [(written_of_put he).1]
    refine iff_of_false ?_ nofun
    rintro ⟨v, hv, hc⟩
    rw [hfailed v hv] at hc
    cases hk : op.kind <;> rw [hk] at hc <;> cases hc

theorem Ruled.eq_decide {v : Verdict} (h : op.Ruled existing W (.ok v))
    (hs : v.1.isSuccess = true) :
    v = op.decide existing := by
  rcases h with hv | ⟨hfailed, -⟩
  · exact Except.ok.inj hv
  · rw [hfailed v rfl] at hs
    cases hk : op.kind <;> rw [hk] at hs <;> cases hs

end Ruled

end Operation

/-! ### Failed requests -/

/-- The request was answered with a failure, or not at all. -/
def Failed (r : Except Error Answer) : Prop := ∀ a, r = .ok a → a.action = .failed

/-- The operation did not succeed. -/
def Unsuccessful (r : Except Error Verdict) : Prop := ∀ v, r = .ok v → v.1.isSuccess = false

theorem Answer.action_ofOutcome (l : Lock) (o : Outcome) :
    (ofOutcome l o).action = .failed ↔ o.isSuccess = false := by
  simp only [ofOutcome, Outcome.isSuccess]
  cases o.isHeld <;> cases o.isCleared <;> simp [succeeded, cleared, failed]

theorem Operation.failed_answer (op : Operation) (r : Except Error Verdict) :
    Failed (r.map op.answer) ↔ Unsuccessful r := by
  cases r with
  | ok v =>
    simp only [Failed, Unsuccessful, Except.map, Except.ok.injEq, forall_eq', Operation.answer,
      Answer.action_ofOutcome]
  | error e => exact iff_of_true (by rintro _ ⟨⟩) (by rintro _ ⟨⟩)

end Leasehold
