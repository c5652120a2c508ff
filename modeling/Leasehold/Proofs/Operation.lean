import Leasehold.Proofs.Record
import Leasehold.Service

/-!
# Operations and what they come to

An operation is an acquisition, a renewal or a release, by the record that the caller hands over.
Seen from the record that the store holds for the lock, it is permitted or not
(`Operation.permits`), and when it is permitted it writes a record or removes one. `Conforms` says
so up to what the stores do differently: which of several codes a verdict has, whether an expired
record stays, and how a renewal counts (`extend`).

`Operation.decide` and `Operation.effect` are the rules of `Decision` for all three operations; they
conform (`conforms_decide`).
-/

namespace Leasehold

theorem ok_of_bind {ε α β : Type} {x : Except ε α} {f : α → Except ε β} {b : β}
    (h : x >>= f = .ok b) :
    ∃ a, x = .ok a ∧ f a = .ok b := by
  cases x with
  | error e => cases h
  | ok a => exact ⟨a, rfl, h⟩

theorem ok_bind {ε α β : Type} (a : α) (f : α → Except ε β) : (.ok a >>= f) = f a := rfl

/-- Nothing is there, or only a record that has expired. -/
def Lock.isGone (existing : Option Lock) (now : Int) : Bool := existing.all (·.isExpired now)

theorem Lock.isGone_mono {existing : Option Lock} {t u : Int} (h : isGone existing t = true)
    (ht : t ≤ u) :
    isGone existing u = true := by
  cases existing with
  | none => rfl
  | some l =>
    simp only [isGone, Option.all_some, isExpired] at h ⊢
    cases he : l.expiry with
    | none => rw [he] at h; cases h
    | some e =>
      simp only [he, decide_eq_true_eq] at h ⊢
      omega

/-- The record with `delta` added to lease and expiry, as stores do it that cannot read the
clock. -/
def Lock.prolong (l : Lock) (delta _now : Int) : Lock :=
  l.withLease (some (Decision.orZero l.lease + delta)) (some (Decision.orZero l.expiry + delta))

/-- The rules of decision move a live record by the lease, since a clock that is not negative cannot
have passed an expiry of zero. -/
theorem Decision.extend_live (c : Claim) {lease expiry delta now : Int} (hnow : 0 ≤ now)
    (hlive : now ≤ expiry) :
    Decision.extend (c.lock (some lease) (some expiry)) delta now = c.lock (some (lease + delta))
      (some (expiry + delta)) := by
  have he : Decision.orNow (some expiry) now = expiry := by
    show (if expiry = 0 then now else expiry) = expiry
    by_cases h : expiry = 0
    · rw [if_pos h]; omega
    · rw [if_neg h]
  show c.lock (some (lease + delta)) (some (Decision.orNow (some expiry) now + delta)) = _
  rw [he]

theorem Claim.isGone_lock (c : Claim) (lease : Option Int) (expiry now : Int) :
    Lock.isGone (some (c.lock lease (some expiry))) now = decide (expiry < now) := rfl

theorem Claim.isMatch_lock {c c' : Claim} (hr : c.realm = c'.realm) (hn : c.name = c'.name)
    (lease expiry lease' expiry' : Option Int) :
    (c.lock lease expiry).isMatch (c'.lock lease' expiry') =
      (decide (c.owner = c'.owner) && decide (c.instanceId = c'.instanceId)) := by
  simp [Lock.isMatch, Claim.lock, Lock.agrees_text, hr, hn, eq_comm]

namespace Answer

theorem success_ofOutcome (l : Lock) (o : Outcome) :
    (ofOutcome l o).success = some o.isSuccess := by
  cases o <;> rfl

theorem lock_ofOutcome {o : Outcome} (l : Lock) (hs : o.isSuccess = true)
    (ho : o.operation ≠ .release) :
    (ofOutcome l o).lock = l := by
  cases o <;> first | rfl | exact absurd rfl ho | cases hs

end Answer

/-- The outcome of an operation, and the record that a renewal made. -/
abbrev Verdict := Outcome × Option Lock

namespace Operation

inductive Kind where
  | acquire
  | renew
  | release
deriving DecidableEq, Repr

def Kind.action : Kind → Action
  | .acquire => .acquire
  | .renew => .renew
  | .release => .release

/-- The outcome of an operation that lost every race. -/
def Kind.exhausted : Kind → Outcome
  | .acquire => .acquireMaxRetries
  | .renew => .renewMaxRetries
  | .release => .releaseMaxRetries

/-- The outcome of an operation on a lock that is someone else's, or not to be renewed. -/
def Kind.conflict : Kind → Outcome
  | .acquire => .acquireConflict
  | .renew => .renewConflict
  | .release => .releaseConflict

/-- The outcome of an operation that failed. -/
def Kind.failed : Kind → Outcome
  | .acquire => .acquireError
  | .renew => .renewError
  | .release => .releaseError

/-- Under which an operation logs a fault. -/
def Kind.event : Kind → String
  | .acquire => "Error acquiring lock"
  | .renew => "Error renewing lock"
  | .release => "Error releasing lock"

end Operation

/-- The texts of a claim; what is no text counts as empty. -/
def RawClaim.texts (c : RawClaim) : Claim :=
  ⟨c.realm.text?.getD "", c.name.text?.getD "", c.owner.text?.getD "", c.instanceId.text?.getD ""⟩

/-- What a caller asks of a service. -/
structure Operation where
  kind : Operation.Kind
  record : Record
  now : Int

namespace Operation
variable {I : Interface} (op : Operation)

/-- The record that the caller hands over. -/
def lock : Lock := op.record.lock

def session (s : Service I) : Session I Answer :=
  match op.kind with
  | .acquire => s.acquireLock (some op.lock) op.now
  | .renew => s.renewLock (some op.lock) op.now
  | .release => s.releaseLock (some op.lock) op.now

/-- The claim, when the record that was handed over has all that the operation needs. -/
def check : Except Error Claim :=
  match op.kind with
  | .acquire => (·.1.texts) <$> RawClaim.forAcquisition (some op.lock)
  | .renew => (·.1.texts) <$> RawClaim.forRenewal (some op.lock)
  | .release => (·.1.texts) <$> RawClaim.ofLock (some op.lock)

/-- The lease that a renewal adds. -/
def delta : Int := Decision.orZero op.lock.lease

/-- What the service does for a claim that was checked. -/
def attempt (s : Service I) (c : RawClaim) : Session I Verdict :=
  match op.kind with
  | .acquire =>
    (s.acquire c op.delta (Decision.orZero op.lock.expiry) op.now).bind fun o => .done (o, none)
  | .renew => s.renew c op.delta op.now
  | .release => (s.release c op.now).bind fun o => .done (o, none)

/-- What the caller gets. -/
def answer (v : Verdict) : Answer := Answer.ofOutcome (v.2.getD op.lock) v.1

/-! ### The checks -/

theorem demandName_eq_ok {field : String} {v : Option String} {w : Value}
    (h : RawClaim.demandName field (v.map .text) = .ok w) : ∃ s, v = some s ∧ w = .text s := by
  cases v with
  | none => cases h
  | some s =>
    simp only [RawClaim.demandName, Option.map_some] at h
    split at h
    · cases h; exact ⟨s, rfl, rfl⟩
    · cases h

/-- A record that passes the check has all its identities, and the claim has their texts. -/
theorem ofLock_eq_ok {r : Record} {c : RawClaim} {l : Lock}
    (h : RawClaim.ofLock (some r.lock) = .ok (c, l)) :
    c = c.texts ∧ l = r.lock ∧ r = c.texts.record r.lease r.expiry := by
  obtain ⟨realm, name, owner, instanceId, lease, expiry⟩ := r
  simp only [RawClaim.ofLock, RawClaim.demand, RawClaim.checkKey, Record.lock, bind, Except.bind,
    pure, Except.pure] at h
  cases hr : RawClaim.demandName "namespace" (realm.map .text) with
  | error e => rw [hr] at h; cases h
  | ok r =>
    cases hn : RawClaim.demandName "lock_name" (name.map .text) with
    | error e => rw [hr, hn] at h; cases h
    | ok n =>
      rw [hr, hn] at h
      obtain ⟨realm, rfl, rfl⟩ := demandName_eq_ok hr
      obtain ⟨name, rfl, rfl⟩ := demandName_eq_ok hn
      cases owner with
      | none => cases h
      | some o =>
        cases instanceId with
        | none => cases h
        | some i =>
          cases h
          exact ⟨rfl, rfl, rfl⟩

theorem forRenewal_eq_ok {r : Record} {c : RawClaim} {delta : Int} {l : Lock}
    (h : RawClaim.forRenewal (some r.lock) = .ok (c, delta, l)) :
    c = c.texts ∧ l = r.lock ∧ r = c.texts.record (some delta) r.expiry := by
  simp only [RawClaim.forRenewal, bind, Except.bind] at h
  cases ho : RawClaim.ofLock (some r.lock) with
  | error e => rw [ho] at h; cases h
  | ok p =>
    obtain ⟨c', m⟩ := p
    obtain ⟨hc, rfl, hl⟩ := ofLock_eq_ok ho
    rw [ho] at h
    cases hd : r.lease with
    | none => simp only [Record.lock_lease, hd, RawClaim.demand] at h; cases h
    | some d =>
      simp only [Record.lock_lease, hd, RawClaim.demand] at h
      cases h
      exact ⟨hc, rfl, by rw [← hd]; exact hl⟩

theorem forAcquisition_eq_ok {r : Record} {c : RawClaim} {lease expiry : Int} {l : Lock}
    (h : RawClaim.forAcquisition (some r.lock) = .ok (c, lease, expiry, l)) :
    c = c.texts ∧ l = r.lock ∧ r = c.texts.record (some lease) (some expiry) := by
  simp only [RawClaim.forAcquisition, bind, Except.bind] at h
  cases hr : RawClaim.forRenewal (some r.lock) with
  | error e => rw [hr] at h; cases h
  | ok p =>
    obtain ⟨c', d, m⟩ := p
    obtain ⟨hc, rfl, hl⟩ := forRenewal_eq_ok hr
    rw [hr] at h
    cases he : r.expiry with
    | none => simp only [Record.lock_expiry, he, RawClaim.demand] at h; cases h
    | some x =>
      simp only [Record.lock_expiry, he, RawClaim.demand] at h
      cases h
      exact ⟨hc, rfl, by rw [← he]; exact hl⟩

theorem record_of_check {c : Claim} (h : op.check = .ok c) :
    op.record = c.record op.record.lease op.record.expiry := by
  obtain ⟨kind, r, now⟩ := op
  cases kind <;> simp only [check, Functor.map, Except.map] at h <;> split at h <;> cases h
  · rename_i p hp; obtain ⟨c, d, x, m⟩ := p; rw [(forAcquisition_eq_ok hp).2.2]; rfl
  · rename_i p hp; obtain ⟨c, d, m⟩ := p; rw [(forRenewal_eq_ok hp).2.2]; rfl
  · rename_i p hp; obtain ⟨c, m⟩ := p; exact (ofLock_eq_ok hp).2.2

theorem lock_of_check {c : Claim} (h : op.check = .ok c) :
    op.lock = c.lock op.lock.lease op.lock.expiry :=
  congrArg Record.lock (op.record_of_check h)

theorem lease_of_check {c : Claim} (h : op.check = .ok c) (hk : op.kind ≠ .release) :
    op.lock.lease = some op.delta := by
  obtain ⟨kind, r, now⟩ := op
  cases kind <;> simp only [check, Functor.map, Except.map] at h <;> split at h <;> cases h
  · rename_i p hp
    obtain ⟨c, d, x, m⟩ := p
    rw [delta, lock, show r = _ from (forAcquisition_eq_ok hp).2.2]
    rfl
  · rename_i p hp
    obtain ⟨c, d, m⟩ := p
    rw [delta, lock, show r = _ from (forRenewal_eq_ok hp).2.2]
    rfl
  · exact absurd rfl hk

theorem expiry_of_check {c : Claim} (h : op.check = .ok c) (hk : op.kind = .acquire) :
    op.lock.expiry = some (Decision.orZero op.lock.expiry) := by
  obtain ⟨kind, r, now⟩ := op
  cases hk
  simp only [check, Functor.map, Except.map] at h
  split at h
  · cases h
  · rename_i p hp
    obtain ⟨c, d, x, m⟩ := p
    rw [lock, show r = _ from (forAcquisition_eq_ok hp).2.2]
    rfl

theorem session_of_error (s : Service I) {e : Error} (h : op.check = .error e) :
    op.session s = .fail e := by
  obtain ⟨kind, l, now⟩ := op
  cases kind <;> simp only [check, Functor.map, Except.map] at h <;> split at h <;> cases h <;>
    rename_i hp <;>
    simp only [session, Service.acquireLock, Service.renewLock, Service.releaseLock, hp] <;> rfl

theorem session_of_check (s : Service I) {c : Claim} (h : op.check = .ok c) :
    op.session s = (op.attempt s c).bind fun v => s.finish (v.2.getD op.lock) v.1 := by
  obtain ⟨kind, r, now⟩ := op
  cases kind <;> simp only [check, Functor.map, Except.map] at h <;> split at h <;> cases h <;>
    rename_i p hp
  · obtain ⟨c, d, x, m⟩ := p
    obtain ⟨hc, rfl, hr⟩ := forAcquisition_eq_ok hp
    simp only [session, attempt, Service.acquireLock, hp, Session.bind_assoc,
      ← show c = c.texts.raw from hc]
    rw [delta, lock, show r = _ from hr]; rfl
  · obtain ⟨c, d, m⟩ := p
    obtain ⟨hc, rfl, hr⟩ := forRenewal_eq_ok hp
    simp only [session, attempt, Service.renewLock, hp, ← show c = c.texts.raw from hc]
    rw [delta, lock, show r = _ from hr]; rfl
  · obtain ⟨c, m⟩ := p
    obtain ⟨hc, rfl, -⟩ := ofLock_eq_ok hp
    simp only [session, attempt, Service.releaseLock, hp, Session.bind_assoc,
      ← show c = c.texts.raw from hc]
    rfl

/-! ### Permission -/

/-- The record that is there is the caller's. -/
def owns (existing : Option Lock) : Bool := existing.any (op.lock.isMatch ·)

/-- A lock that is free or the caller's own may be taken and given back; to be renewed it must be
the caller's and live. -/
def permits (existing : Option Lock) : Bool :=
  match op.kind with
  | .renew => !Lock.isGone existing op.now && op.owns existing
  | _ => Lock.isGone existing op.now || op.owns existing

theorem owns_lock {op : Operation} {c c' : Claim} (h : op.check = .ok c) (hr : c'.realm = c.realm)
    (hn : c'.name = c.name) (lease expiry : Option Int) : op.owns (some (c'.lock lease expiry)) =
      (decide (c.owner = c'.owner) && decide (c.instanceId = c'.instanceId)) := by
  rw [owns, Option.any_some, op.lock_of_check h]
  exact Claim.isMatch_lock hr.symm hn.symm _ _ _ _

theorem expired_or_match {op : Operation} {l : Lock} (h : op.permits (some l) = true) :
    l.isExpired op.now = true ∨ op.lock.isMatch l = true := by
  cases hk : op.kind <;>
    simp only [permits, hk, owns, Lock.isGone, Option.all_some, Option.any_some, Bool.or_eq_true,
    Bool.and_eq_true] at h
  · exact h
  · exact .inr h.2
  · exact h

theorem eq_of_match {op : Operation} {c : Claim} {l : Lock} (h : op.check = .ok c)
    (hm : op.lock.isMatch l = true) :
    l = c.lock l.lease l.expiry := by
  rw [op.lock_of_check h] at hm
  obtain ⟨realm, name, owner, instanceId, lease, expiry⟩ := l
  simp only [Lock.isMatch, Claim.lock, Lock.agrees_text, Bool.and_eq_true, decide_eq_true_eq] at hm
  obtain ⟨⟨⟨rfl, rfl⟩, rfl⟩, rfl⟩ := hm
  rfl

/-- The record that a renewal makes; `extend` moves lease and expiry. -/
def renewed (extend : Lock → Int → Int → Lock) (existing : Option Lock) : Option Lock :=
  match op.kind with
  | .renew => existing.map (extend · op.delta op.now)
  | _ => none

/-- The record that a permitted operation writes. -/
def written (extend : Lock → Int → Int → Lock) (existing : Option Lock) : Option Lock :=
  match op.kind with
  | .acquire => some op.lock
  | _ => op.renewed extend existing

theorem written_of_check {op : Operation} {c : Claim} {extend : Lock → Int → Int → Lock}
    {existing : Option Lock} {l : Lock}
    (hext : ∀ l delta now, ∃ lease expiry, extend l delta now = l.withLease (some lease)
      (some expiry)) (h : op.check = .ok c) (hp : op.permits existing = true) (hl :
      op.written extend existing = some l) :
    ∃ lease expiry, l = c.lock (some lease) (some expiry) := by
  cases hk : op.kind with
  | acquire =>
    rw [written, hk] at hl
    cases hl
    exact ⟨op.delta, Decision.orZero op.lock.expiry, by
      rw [← op.expiry_of_check h hk, ← op.lease_of_check h (by rw [hk]; decide)]
      exact op.lock_of_check h⟩
  | renew =>
    rw [written, hk, renewed, hk] at hl
    cases existing with
    | none => cases hl
    | some m =>
      cases hl
      obtain ⟨lease, expiry, he⟩ := hext m op.delta op.now
      rw [permits, hk, Bool.and_eq_true] at hp
      exact ⟨lease, expiry, he.trans (by rw [eq_of_match h hp.2]; rfl)⟩
  | release => rw [written, hk, renewed, hk] at hl; cases hl

/-- The verdict on an operation and what it leaves under the key, up to the differences between
stores. -/
structure Conforms (extend : Lock → Int → Int → Lock) (before : Option Lock) (v : Verdict)
    (after : Option Lock) :
    Prop where
  operation : v.1.operation = op.kind.action
  success : v.1.isSuccess = op.permits before
  renewed : v.2 = if op.permits before then op.renewed extend before else none
  writes : op.permits before = true → op.kind ≠ .release → after = op.written extend before
  /-- An expired record may stay. -/
  removes : op.permits before = true → op.kind = .release →
    after = none ∨ after = before ∧ Lock.isGone before op.now = true
  unchanged : op.permits before = false → after = before

section Conforms
variable {op} {extend : Lock → Int → Int → Lock} {before after : Option Lock} {o : Outcome}

theorem Conforms.shown {v : Verdict} (h : op.Conforms extend before v after)
    (hk : op.kind ≠ .release) (hp : op.permits before = true) :
    op.written extend before = some (v.2.getD op.lock) := by
  have hr := h.renewed
  rw [if_pos hp] at hr
  cases hkind : op.kind with
  | acquire => rw [hr, written, Operation.renewed, hkind]; rfl
  | renew =>
    rw [permits, hkind, Bool.and_eq_true] at hp
    cases before with
    | none => cases hp.2
    | some l => rw [hr, written, Operation.renewed, hkind]; rfl
  | release => exact absurd hkind hk

theorem Conforms.success_answer {v : Verdict} (h : op.Conforms extend before v after) :
    (op.answer v).success = some (op.permits before) := by
  rw [answer, Answer.success_ofOutcome, h.success]

theorem Conforms.lock_answer {v : Verdict} (h : op.Conforms extend before v after)
    (hk : op.kind ≠ .release) (hp : op.permits before = true) :
    op.written extend before = some (op.answer v).lock := by
  have ho : v.1.operation ≠ .release := by
    rw [h.operation]
    cases hkind : op.kind with
    | acquire | renew => exact nofun
    | release => exact absurd hkind hk
  rw [h.shown hk hp, answer, Answer.lock_ofOutcome _ (h.success.trans hp) ho]

/-! Verdicts of stores that test a condition and write at once. -/

theorem conforms_taken (hk : op.kind = .acquire) (hp : op.permits before = true)
    (ho : o.operation = .acquire) (hs : o.isSuccess = true) :
    op.Conforms extend before (o, none) (some op.lock) where
  operation := by rw [hk]; exact ho
  success := hs.trans hp.symm
  renewed := by rw [if_pos hp, Operation.renewed, hk]
  writes := fun _ _ => by rw [written, hk]
  removes := fun _ h => by rw [hk] at h; cases h
  unchanged := fun h => by rw [hp] at h; cases h

theorem conforms_renewed (hk : op.kind = .renew) (hp : op.permits before = true) :
    op.Conforms extend before (.renewed, op.renewed extend before) (op.renewed extend before) where
  operation := by rw [hk]; rfl
  success := hp.symm
  renewed := by rw [if_pos hp]
  writes := fun _ _ => by rw [written, hk]
  removes := fun _ h => by rw [hk] at h; cases h
  unchanged := fun h => by rw [hp] at h; cases h

theorem conforms_freed (hk : op.kind = .release) (hp : op.permits before = true)
    (ho : o.operation = .release) (hs : o.isSuccess = true)
    (h : after = none ∨ after = before ∧ Lock.isGone before op.now = true) :
    op.Conforms extend before (o, none) after where
  operation := by rw [hk]; exact ho
  success := hs.trans hp.symm
  renewed := by rw [if_pos hp, Operation.renewed, hk]
  writes := fun _ h => absurd hk h
  removes := fun _ _ => h
  unchanged := fun h => by rw [hp] at h; cases h

theorem conforms_refused (hp : op.permits before = false) (ho : o.operation = op.kind.action)
    (hs : o.isSuccess = false) : op.Conforms extend before (o, none) before where
  operation := ho
  success := hs.trans hp.symm
  renewed := by rw [hp]; rfl
  writes := fun h => by rw [hp] at h; cases h
  removes := fun h => by rw [hp] at h; cases h
  unchanged := fun _ => rfl

end Conforms

/-! ### The rules of decision -/

/-- What the rules make of an operation on the record that is there. -/
def decide (existing : Option Lock) : Verdict :=
  match op.kind with
  | .acquire => (Decision.acquire existing op.lock op.now, none)
  | .renew => Decision.renew existing op.lock op.now
  | .release => (Decision.release existing op.lock op.now, none)

/-- What an operation does to a key. -/
inductive Effect where
  | keep
  | put (l : Lock)
  | delete
deriving DecidableEq, Repr

def Effect.apply : Effect → Option Lock → Option Lock
  | .keep, existing => existing
  | .put l, _ => some l
  | .delete, _ => none

/-- What the rules do to the key. -/
def effect (existing : Option Lock) : Effect :=
  match op.kind with
  | .acquire => if (op.decide existing).1.isSuccess then .put op.lock else .keep
  | .renew => (op.decide existing).2.elim .keep .put
  | .release => if (op.decide existing).1 = .released then .delete else .keep

variable {op}

/-! What the services hand to the rules is as good as the record that was handed over. -/

theorem acquire_request {c : Claim} (h : op.check = .ok c) (hk : op.kind = .acquire) :
    c.lock (some op.delta) (some (Decision.orZero op.lock.expiry)) = op.lock := by
  rw [← op.expiry_of_check h hk, ← op.lease_of_check h (by rw [hk]; decide)]
  exact (op.lock_of_check h).symm

theorem acquire_decision (hk : op.kind = .acquire) (existing : Option Lock) :
    Decision.acquire existing op.lock op.now = (op.decide existing).1 := by
  simp only [decide, hk]

theorem decide_snd (hk : op.kind ≠ .renew) (existing : Option Lock) :
    ((op.decide existing).1, (none : Option Lock)) = op.decide existing := by
  cases h : op.kind with
  | renew => exact absurd h hk
  | acquire | release => simp only [decide, h]

theorem isMatch_request {c : Claim} (h : op.check = .ok c) (lease expiry : Option Int) (l : Lock) :
    (c.lock lease expiry).isMatch l = op.lock.isMatch l := by
  rw [op.lock_of_check h]; rfl

theorem renew_request {c : Claim} (h : op.check = .ok c) (hk : op.kind = .renew)
    (existing : Option Lock) :
    Decision.renew existing (c.lock (some op.delta) none) op.now = op.decide existing := by
  simp only [decide, hk]
  cases existing with
  | none => rfl
  | some l => simp only [Decision.renew, isMatch_request h]; rfl

theorem release_request {c : Claim} (h : op.check = .ok c) (hk : op.kind = .release)
    (existing : Option Lock) :
    Decision.release existing (c.lock none none) op.now = (op.decide existing).1 := by
  simp only [decide, hk]
  cases existing with
  | none => rfl
  | some l => simp only [Decision.release, isMatch_request h]

theorem operation_decide (existing : Option Lock) :
    (op.decide existing).1.operation = op.kind.action := by
  obtain ⟨kind, l, now⟩ := op
  cases kind <;> simp only [decide, Kind.action]
  · unfold Decision.acquire; repeat' split
    all_goals rfl
  · unfold Decision.renew; repeat' split
    all_goals rfl
  · unfold Decision.release; repeat' split
    all_goals rfl

theorem isSuccess_decide (existing : Option Lock) :
    (op.decide existing).1.isSuccess = op.permits existing := by
  obtain ⟨kind, l, now⟩ := op
  cases existing with
  | none => cases kind <;> rfl
  | some m =>
    cases hm : l.lock.isMatch m <;> cases he : m.isExpired now <;> cases kind <;>
      simp [decide, permits, owns, lock, Lock.isGone, Decision.acquire, Decision.renew,
        Decision.release, hm, he,
        Lock.isActive, Outcome.isSuccess, Outcome.isHeld, Outcome.isCleared]

theorem renewed_decide (existing : Option Lock) :
    (op.decide existing).2 = if op.permits existing then op.renewed Decision.extend
      existing else none := by
  obtain ⟨kind, l, now⟩ := op
  cases existing with
  | none => cases kind <;> rfl
  | some m =>
    cases hm : l.lock.isMatch m <;> cases he : m.isExpired now <;> cases kind <;>
      simp [decide, permits, owns, lock, Lock.isGone, Decision.renew, hm, he, renewed, delta]

theorem decide_release (h : op.kind = .release) (existing : Option Lock) :
    (op.decide existing).1 = .released ↔ op.permits existing = true ∧
    Lock.isGone existing op.now = false := by
  obtain ⟨kind, l, now⟩ := op
  cases h
  cases existing with
  | none => simp [decide, permits, Lock.isGone, Decision.release]
  | some m =>
    cases hm : l.lock.isMatch m <;> cases he : m.isExpired now <;>
      simp [decide, permits, owns, lock, Lock.isGone, Decision.release, hm, he]

theorem conforms_decide (op : Operation) (before : Option Lock) :
    op.Conforms Decision.extend before (op.decide before) ((op.effect before).apply before) where
  operation := operation_decide before
  success := isSuccess_decide before
  renewed := renewed_decide before
  writes := by
    intro hp hk
    cases h : op.kind with
    | acquire => simp [effect, written, h, isSuccess_decide, hp, Effect.apply]
    | renew =>
      cases before with
      | none => simp [permits, h, Lock.isGone] at hp
      | some m => simp [effect, written, h, renewed_decide, hp, renewed, Effect.apply]
    | release => exact absurd h hk
  removes := by
    intro hp hk
    cases hg : Lock.isGone before op.now with
    | false =>
      have hd := (decide_release hk before).2 ⟨hp, hg⟩
      exact .inl (by simp [effect, hk, hd, Effect.apply])
    | true =>
      have hd : (op.decide before).1 ≠ .released := fun hd => by
        rw [((decide_release hk before).1 hd).2] at hg; cases hg
      exact .inr ⟨by simp [effect, hk, hd, Effect.apply], rfl⟩
  unchanged := by
    intro hp
    cases h : op.kind with
    | acquire => simp [effect, h, isSuccess_decide, hp, Effect.apply]
    | renew => simp [effect, h, renewed_decide, hp, Effect.apply]
    | release =>
      have hd : (op.decide before).1 ≠ .released := fun hd => by
        rw [((decide_release h before).1 hd).1] at hp; cases hp
      simp [effect, h, hd, Effect.apply]

theorem conforms_of_effect {existing : Option Lock} {e : Effect} (h : op.effect existing = e) :
    op.Conforms Decision.extend existing (op.decide existing) (e.apply existing) :=
  h ▸ conforms_decide op existing

section Effect
variable {existing : Option Lock} {o : Outcome} {l : Lock}

theorem effect_acquired (hk : op.kind = .acquire) (ho : (op.decide existing).1.isSuccess = true) :
    op.effect existing = .put op.lock := by
  simp only [effect, hk, ho, if_true]

theorem effect_not_acquired (hk : op.kind = .acquire)
    (ho : ¬(op.decide existing).1.isSuccess = true) :
    op.effect existing = .keep := by
  simp only [effect, hk, if_neg ho]

theorem effect_renewed (hk : op.kind = .renew) (ho : op.decide existing = (o, some l)) :
    op.effect existing = .put l := by
  simp only [effect, hk, ho, Option.elim]

theorem effect_not_renewed (hk : op.kind = .renew) (ho : op.decide existing = (o, none)) :
    op.effect existing = .keep := by
  simp only [effect, hk, ho, Option.elim]

theorem effect_released (hk : op.kind = .release) (ho : (op.decide existing).1 = .released) :
    op.effect existing = .delete := by
  simp only [effect, hk, ho, if_true]

theorem effect_not_released (hk : op.kind = .release) (ho : ¬(op.decide existing).1 = .released) :
    op.effect existing = .keep := by
  simp only [effect, hk, if_neg ho]

theorem put_of_written (hp : op.permits existing = true)
    (hl : op.written Decision.extend existing = some l) :
    op.effect existing = .put l := by
  cases hk : op.kind with
  | acquire =>
    simp only [written, hk, Option.some.injEq] at hl
    rw [← hl]
    exact effect_acquired hk ((isSuccess_decide existing).trans hp)
  | renew =>
    have hr := @renewed_decide op existing
    simp only [written, hk] at hl
    rw [if_pos hp, hl] at hr
    simp only [effect, hk, hr, Option.elim_some]
  | release => simp only [written, renewed, hk] at hl; cases hl

theorem written_of_put (h : op.effect existing = .put l) :
    op.permits existing = true ∧ op.written Decision.extend existing = some l := by
  cases hk : op.kind with
  | acquire =>
    simp only [effect, hk] at h
    split at h
    · rename_i ho
      cases h
      exact ⟨(isSuccess_decide existing).symm.trans ho, by simp only [written, hk]⟩
    · cases h
  | renew =>
    have hr := @renewed_decide op existing
    simp only [effect, hk] at h
    cases hl : (op.decide existing).2 with
    | none => rw [hl] at h; cases h
    | some m =>
      rw [hl] at h hr
      cases h
      cases hp : op.permits existing with
      | false => rw [hp] at hr; cases hr
      | true => rw [hp, if_pos rfl] at hr; exact ⟨rfl, by simp only [written, hk]; exact hr.symm⟩
  | release =>
    simp only [effect, hk] at h
    split at h <;> cases h

theorem isRecord_of_put {c : Claim} (h : op.check = .ok c) (he : op.effect existing = .put l) :
    l.IsRecord := by
  obtain ⟨hp, hl⟩ := written_of_put he
  obtain ⟨lease, expiry, rfl⟩ := written_of_check (fun _ _ _ => ⟨_, _, rfl⟩) h hp hl
  exact c.isRecord_lock _ _

end Effect

end Operation

/-- What a service is asked for: the record of a lock, or an operation. -/
inductive Task where
  | find (realm name : Option String)
  | operate (op : Operation)

def Task.session {I : Interface} (service : Service I) : Task → Session I (Option Lock ⊕ Answer)
  | .find realm name => (service.getLock realm name).bind fun l => .done (.inl l)
  | .operate op => (op.session service).bind fun a => .done (.inr a)

end Leasehold
