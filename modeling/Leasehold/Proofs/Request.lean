import Leasehold.Manager
import Leasehold.Proofs.System

/-!
# Requests to the manager

An `Ask` is a request whose arguments pass the checks of the manager. It comes to a reading of the
store or to one `Operation` of the service, with the expiry counted from the clock, between changes
of the log context and log entries (`exec_get`, `exec_operate`).

A store that only the manager has used is `ManagerOnly`: under every lock lies nothing or a record
of that lock whose lease reaches back to a time that is not negative. That is what makes the stores
count renewals alike.
-/

namespace Leasehold.Manager
open Session

/-- A namespace, lock name or instance id that passes the check. -/
abbrev Identifier := {s : String // Argument.isIdentifier s = true}

/-- A lease duration that passes the check. -/
abbrev Term := {d : Int // Argument.minLease ≤ d ∧ d ≤ Argument.maxLease}

/-- Who makes a request. -/
structure Caller where
  owner : Option String
  instanceId : Identifier

namespace Caller
variable (caller : Caller)

/-- An owner that is missing or empty is the anonymous one. -/
def name : String := (caller.owner.filter (· ≠ "")).getD anonymousOwner

def holder : String × String := (caller.name, caller.instanceId)

def claim (realm name : Identifier) : Claim := ⟨realm, name, caller.name, caller.instanceId⟩

end Caller

/-- A request with arguments that pass the checks. -/
inductive Ask where
  | get (realm name : Identifier)
  /-- A release has no lease; it passes over `lease`. -/
  | operate (kind : Operation.Kind) (realm name : Identifier) (caller : Caller) (lease : Term)

/-- The request as the manager runs it. -/
def Ask.session {I : Interface} (s : Service I) (t : Timing) : Ask → Session I Answer
  | get realm name => Manager.get s t (.text realm) (.text name)
  | operate .acquire realm name caller lease =>
    Manager.acquire s t (.text realm) (.text name) (.ofText? caller.owner)
      (.text caller.instanceId) (.int lease)
  | operate .renew realm name caller lease =>
    Manager.renew s t (.text realm) (.text name) (.ofText? caller.owner)
      (.text caller.instanceId) (.int lease)
  | operate .release realm name caller _ =>
    Manager.release s t (.text realm) (.text name) (.ofText? caller.owner) (.text caller.instanceId)

/-- The operation of claim `c` at time `now`. -/
def operation (kind : Operation.Kind) (c : Claim) (lease now : Int) : Operation :=
  ⟨kind, match kind with
    | .acquire => c.record (some lease) (some (now + lease))
    | .renew => c.record (some lease) none
    | .release => c.record none none, now⟩

/-- A clock reading, while the timer stands still. -/
def still (now : Int) : Timing := { now := .ok now, started := .int 0, ended := .int 0 }

theorem ne_empty_of_isIdentifier {s : String} (h : Argument.isIdentifier s = true) : s ≠ "" := by
  rintro rfl
  revert h
  decide

theorem colon_not_mem (s : Identifier) : ':' ∉ s.1.toList := by
  intro hc
  have h := s.2
  simp only [Argument.isIdentifier, Bool.and_eq_true, List.all_eq_true] at h
  exact absurd (h.2 ':' hc) (by decide)

/-! ### What a request runs -/

section Check
variable (realm name : Identifier) (caller : Caller) (lease : Term)

theorem identifier_text (field : String) (s : Identifier) :
    Argument.identifier field (.text s) = .ok s.1 := by
  simp only [Argument.identifier, s.2, if_true]

theorem leaseDuration_int : Argument.leaseDuration (.int lease) = .ok lease.1 := by
  have h := lease.2
  simp only [Argument.leaseDuration, h.1, h.2, decide_true, Bool.and_self, if_true]

theorem ownerOf_ofText? : ownerOf (.ofText? caller.owner) = .text caller.name := by
  obtain ⟨_ | s, _⟩ := caller
  · rfl
  · by_cases h : s = "" <;>
      simp [ownerOf, Value.ofText?, Value.isTruthy, Caller.name, Option.filter, h]

/-- What the manager makes of the arguments. -/
def request (lease : Option Int) :
    Request := ⟨realm, name, .text caller.name, caller.instanceId, lease⟩

theorem check_lease :
    check (.text realm) (.text name) (.ofText? caller.owner) (.text caller.instanceId)
    (.int lease) = .ok (request realm name caller (some lease)) := by
  simp only [check, identifier_text, leaseDuration_int, ownerOf_ofText?, bind, Except.bind,
    pure, Except.pure,
    Functor.map, Except.map]
  rfl

theorem check_no_lease :
    check (.text realm) (.text name) (.ofText? caller.owner) (.text caller.instanceId)
    .null = .ok (request realm name caller none) := by
  simp only [check, identifier_text, ownerOf_ofText?, bind, Except.bind, pure, Except.pure]
  rfl

end Check

theorem demandName_text {field s : String} (h : s ≠ "") :
    RawClaim.demandName field (some (.text s)) = .ok (.text s) := by
  simp only [RawClaim.demandName, Value.isTruthy, decide_not, decide_eq_false h,
    Bool.not_false, if_true]

theorem ofLock_claim {c : Claim} (hr : c.realm ≠ "") (hn : c.name ≠ "")
    (lease expiry : Option Int) :
    RawClaim.ofLock (some (c.lock lease expiry)) = .ok (c, c.lock lease expiry) := by
  simp only [RawClaim.ofLock, RawClaim.demand, RawClaim.checkKey, Claim.lock, demandName_text hr,
    demandName_text hn, bind,
    Except.bind, pure, Except.pure]
  rfl

theorem check_acquire {c : Claim} (hr : c.realm ≠ "") (hn : c.name ≠ "") (lease expiry now : Int) :
    (⟨.acquire, c.record (some lease) (some expiry), now⟩ : Operation).check = .ok c := by
  simp only [Operation.check, Operation.lock, Claim.lock_record, RawClaim.forAcquisition,
    RawClaim.forRenewal,
    ofLock_claim hr hn, bind, Except.bind]
  rfl

theorem check_operation (kind : Operation.Kind) {c : Claim} (hr : c.realm ≠ "") (hn : c.name ≠ "")
    (lease now : Int) :
    (operation kind c lease now).check = .ok c := by
  cases kind with
  | acquire => exact check_acquire hr hn lease (now + lease) now
  | _ =>
    simp only [Operation.check, operation, Operation.lock, Claim.lock_record, RawClaim.forRenewal,
      ofLock_claim hr hn,
      bind, Except.bind]
    rfl

section Session
variable {I : Interface} (s : Service I) {t : Timing} {now : Int} (realm name : Identifier)
  (caller : Caller) (lease : Term)

/-- The expiry that the log context shows after a success. -/
def shownExpiry (kind : Operation.Kind) (expiry : Int) (a : Answer) : Option Int :=
  match kind with
  | .acquire => if a.success = some true then some expiry else none
  | .renew => if a.success = some true then a.lock.expiry else none
  | .release => none

/-- The clock is read once the request has been bound; between that and the record of its end lies
the operation. -/
theorem session_operate_timed (t : Timing) (kind : Operation.Kind) :
    Ask.session s t (.operate kind realm name caller lease) =
      .amend (bindRequest kind.action realm name (some (.text caller.name))
        (some caller.instanceId.1) (if kind = .release then none else some lease.1))
      ((ofReading t.now).bind
        fun now => ((operation kind (caller.claim realm name) lease now).session s).bind fun a =>
        (ofReading t.elapsed).bind fun ms =>
          .amend (·.bind (resultFields s.name ms (resultLabel a)
            (shownExpiry kind (now + lease) a)))
            (.note completedEntry (.done a))) := by
  cases kind
  · simp only [Ask.session, acquire, check_lease, Session.ofExcept, bind_eq, Session.bind,
      start, context]
    rfl
  · simp only [Ask.session, renew, check_lease, Session.ofExcept, bind_eq, Session.bind,
      start, context]
    rfl
  · simp only [Ask.session, release, check_no_lease, Session.ofExcept, bind_eq, Session.bind,
      start, context]
    rfl

theorem session_operate (ht : t.now = .ok now) (kind : Operation.Kind) :
    Ask.session s t (.operate kind realm name caller lease) =
      .amend (bindRequest kind.action realm name (some (.text caller.name))
        (some caller.instanceId.1) (if kind = .release then none else some lease.1))
      (((operation kind (caller.claim realm name) lease now).session s).bind fun a =>
        (ofReading t.elapsed).bind fun ms =>
          .amend (·.bind (resultFields s.name ms (resultLabel a)
            (shownExpiry kind (now + lease) a)))
            (.note completedEntry (.done a))) := by
  rw [session_operate_timed, ht]
  rfl

theorem session_get : Ask.session s t (.get realm name) =
    .amend (bindRequest .get realm name none none none) ((s.find realm name).bind fun stored =>
      (ofReading t.elapsed).bind fun ms => (ofReading t.now).bind fun now =>
        .amend (·.bind (resultFields s.name ms
          (if stored.isSome then "success" else "not_found") none))
          (.note completedEntry
            (.done (Answer.ofStored (some realm.1) (some name.1) stored now)))) := by
  have hk : RawClaim.checkKey (some (.text realm.1)) (some (.text name.1)) =
    .ok (.text realm.1, .text name.1) := by
    simp only [RawClaim.checkKey, demandName_text (ne_empty_of_isIdentifier realm.2),
      demandName_text (ne_empty_of_isIdentifier name.2), bind, Except.bind, pure, Except.pure]
  simp only [Ask.session, get, identifier_text, Service.getLock, Option.map_some, hk,
    Session.ofExcept, bind_eq, Session.bind, context]
  rfl

variable {σ : Type} {clients : Set (Client I σ)} {st st' : σ} {r : Except Error Answer}

/-- A request does to the store what its operation does, and answers the same when the timer can be
read. -/
theorem exec_operate {kind : Operation.Kind} (ht : t.now = .ok now)
    (hx : Exec clients (Ask.session s t (.operate kind realm name caller lease)) st r st') :
    ∃ r₀, Exec clients ((operation kind (caller.claim realm name) lease now).session s) st r₀ st' ∧
      (∀ a, r = .ok a → r₀ = .ok a) ∧ ∀ ms, t.elapsed = .ok ms → r = r₀ := by
  rw [session_operate s realm name caller lease ht, exec_amend_iff] at hx
  rcases hx.of_bind with ⟨a, u, hop, hrest⟩ | ⟨e, hop, rfl⟩
  · cases he : t.elapsed with
    | error f =>
      simp only [he, ofReading, Session.bind, exec_fail_iff] at hrest
      obtain ⟨rfl, rfl⟩ := hrest
      exact ⟨_, hop, by rintro _ ⟨⟩, by rintro _ ⟨⟩⟩
    | ok ms =>
      simp only [he, ofReading, Session.bind, exec_amend_iff, exec_note_iff, exec_done_iff] at hrest
      obtain ⟨rfl, rfl⟩ := hrest
      exact ⟨_, hop, fun _ h => h, fun _ _ => rfl⟩
  · exact ⟨_, hop, fun _ h => h, fun _ _ => rfl⟩

/-- A `get` does to the store what the reading does, and shows what was read when timer and clock
can be read. -/
theorem exec_get (hx : Exec clients (Ask.session s t (.get realm name)) st r st') :
    ∃ r₀, Exec clients (s.find realm name) st r₀ st' ∧ (∀ e, r₀ = .error e → r = .error e) ∧
      ∀ stored ms now, r₀ = .ok stored → t.elapsed = .ok ms → t.now = .ok now →
        r = .ok (Answer.ofStored (some realm.1) (some name.1) stored now) := by
  rw [session_get, exec_amend_iff] at hx
  rcases hx.of_bind with ⟨stored, u, hfind, hrest⟩ | ⟨e, hfind, rfl⟩
  · cases he : t.elapsed with
    | error f =>
      simp only [he, ofReading, Session.bind, exec_fail_iff] at hrest
      obtain ⟨rfl, rfl⟩ := hrest
      exact ⟨_, hfind, by rintro _ ⟨⟩, by rintro _ _ _ - ⟨⟩⟩
    | ok ms =>
      cases hn : t.now with
      | error f =>
        simp only [he, hn, ofReading, Session.bind, exec_fail_iff] at hrest
        obtain ⟨rfl, rfl⟩ := hrest
        exact ⟨_, hfind, by rintro _ ⟨⟩, by rintro _ _ _ - - ⟨⟩⟩
      | ok now =>
        simp only [he, hn, ofReading, Session.bind, exec_amend_iff, exec_note_iff,
          exec_done_iff] at hrest
        obtain ⟨rfl, rfl⟩ := hrest
        exact ⟨_, hfind, by rintro _ ⟨⟩, by rintro _ _ _ ⟨rfl⟩ - ⟨rfl⟩; rfl⟩
  · exact ⟨_, hfind, by rintro _ ⟨rfl⟩; rfl, by rintro _ _ _ ⟨⟩⟩

end Session

theorem check_claim (kind : Operation.Kind) (realm name : Identifier) (caller : Caller)
    (lease now : Int) :
    (operation kind (caller.claim realm name) lease now).check = .ok (caller.claim realm name) := by
  have hr : (caller.claim realm name).realm ≠ "" := ne_empty_of_isIdentifier realm.2
  have hn : (caller.claim realm name).name ≠ "" := ne_empty_of_isIdentifier name.2
  exact check_operation kind hr hn lease now

end Leasehold.Manager

namespace Leasehold.System
open Session Manager
variable {S : System}

/-! ### Stores of the manager -/

/-- Nothing, or a record of the lock whose lease does not reach back before time zero. -/
def Dated (realm name : String) (existing : Option Lock) : Prop := ∀ l, existing = some l →
  ∃ c lease expiry, l = Claim.lock c (some lease) (some expiry) ∧ c.realm = realm ∧ c.name = name ∧
  0 ≤ lease ∧ lease ≤ expiry

/-- A store that only the manager has used. -/
structure ManagerOnly (L : S.Laws) (s : S.Store) : Prop where
  good : L.good s
  dated : ∀ realm name : Identifier, Dated realm name (S.record s (S.slot realm name))

variable {L : S.Laws} {realm name : Identifier} {caller : Caller} {lease : Term}
  {kind : Operation.Kind} {now : Int} {existing : Option Lock}

theorem Dated.filed {realm name : String} (h : Dated realm name existing) :
    Filed realm name existing := by
  intro l hl
  obtain ⟨c, lease, expiry, hl, hr, hn, -⟩ := h l hl
  exact ⟨c, lease, expiry, hl, hr, hn⟩

theorem ManagerOnly.empty (L : S.Laws) : ManagerOnly L S.empty :=
  ⟨L.good_empty, fun _ _ l hl => by rw [L.record_empty] at hl; cases hl⟩

theorem ManagerOnly.sweep {t : Int} {s s' : S.Store} (h : ManagerOnly L s) (hs : S.Sweep t s s') :
    ManagerOnly L s' := by
  refine ⟨L.good_sweep h.good hs, fun realm name l hl => ?_⟩
  rcases record_sweep hs (S.slot realm name) with hr | ⟨hr, -⟩
  · exact h.dated realm name l (hr ▸ hl)
  · rw [hr] at hl; cases hl

/-- What can be renewed is live, and the renewal moves it by the lease. -/
theorem Laws.renewable (L : S.Laws) (hd : Dated realm name existing) (hnow : 0 ≤ now)
    (hp : (operation .renew (caller.claim realm name) lease now).permits existing = true) :
    ∃ d e, existing = some ((caller.claim realm name).lock (some d) (some e)) ∧ 0 ≤ d ∧
    d ≤ e ∧ now ≤ e ∧
      (operation .renew (caller.claim realm name) lease now).renewed S.extend existing =
        some ((caller.claim realm name).lock (some (d + lease)) (some (e + lease))) := by
  simp only [Operation.permits, operation, Bool.and_eq_true, Bool.not_eq_true'] at hp
  cases existing with
  | none => cases hp.2
  | some l =>
    have hl := Operation.eq_of_match (check_claim .renew realm name caller lease now) hp.2
    obtain ⟨c, d, e, rfl, -, -, hd, hde⟩ := hd l rfl
    have hlive : now ≤ e := by
      have hg := hp.1
      rw [Claim.isGone_lock, decide_eq_false_iff_not] at hg
      omega
    rw [hl]
    refine ⟨d, e, rfl, hd, hde, hlive, ?_⟩
    exact congrArg some (L.extend_live hnow hlive)

theorem Laws.written (L : S.Laws) (hd : Dated realm name existing) (hnow : 0 ≤ now)
    (hp : (operation kind (caller.claim realm name) lease now).permits existing = true) {l : Lock}
    (hl : (operation kind (caller.claim realm name) lease now).written S.extend existing = some l) :
    ∃ d e, l = (caller.claim realm name).lock (some d) (some e) ∧ 0 ≤ d ∧ d ≤ e := by
  have hlease : 0 ≤ lease.1 := le_trans (by decide) lease.2.1
  cases kind with
  | acquire =>
    cases hl
    exact ⟨lease, now + lease, rfl, hlease, by omega⟩
  | renew =>
    obtain ⟨d, e, -, hd, hde, -, hr⟩ := L.renewable hd hnow hp
    have hw : (operation .renew (caller.claim realm name) lease now).renewed S.extend
      existing = some l := hl
    rw [hr] at hw
    cases hw
    exact ⟨_, _, rfl, by omega, by omega⟩
  | release => cases hl

/-! ### Requests on stores -/

variable {p : Prop} {t : Timing} {s s' : S.Store} {r : Except Error Answer}

theorem record_operation (kind : Operation.Kind) (c : Claim) (lease now : Int) :
    (operation kind c lease now).record.realm = some c.realm ∧
    (operation kind c lease now).record.name = some c.name := by
  cases kind <;> exact ⟨rfl, rfl⟩

theorem Laws.slot_ne (L : S.Laws) {realm name realm' name' : Identifier}
    (h : (realm, name) ≠ (realm', name')) :
    S.slot realm name ≠ S.slot realm' name' := by
  intro hs
  obtain ⟨hr, hn⟩ := L.slot_inj (colon_not_mem realm) (colon_not_mem realm') hs
  exact h (Prod.ext (Subtype.ext hr) (Subtype.ext hn))

theorem Laws.exec_operate (L : S.Laws) (hg : L.good s) (ht : t.now = .ok now)
    (hx : Exec (L.terms p).clients
      (Ask.session S.service t (.operate kind realm name caller lease)) s r s') :
    L.good s' ∧ ∃ r₀ u, S.record u = S.record s ∧
    S.Answers p (operation kind (caller.claim realm name) lease now) r₀ u s' ∧
      (∀ a, r = .ok a → r₀ = .ok a) ∧ ∀ ms, t.elapsed = .ok ms → r = r₀ := by
  obtain ⟨r₀, hop, hr⟩ := Manager.exec_operate S.service realm name caller lease ht hx
  obtain ⟨hg', u, hu, ha⟩ := L.exec_session hg hop
  exact ⟨hg', r₀, u, hu, ha, hr⟩

theorem Laws.exec_get (L : S.Laws) (hg : L.good s)
    (hx : Exec (L.terms p).clients (Ask.session S.service t (.get realm name)) s r s') :
    L.good s' ∧ S.record s' = S.record s ∧ ∀ ms now, t.elapsed = .ok ms → t.now = .ok now →
      r = .ok (Answer.ofStored (some realm.1) (some name.1)
        (S.record s (S.slot realm name)) now) := by
  obtain ⟨r₀, hfind, -, hr⟩ := Manager.exec_get S.service realm name hx
  obtain ⟨hg', rfl, hs⟩ := L.exec_find hg hfind
  exact ⟨hg', hs, fun ms now he ht => hr _ ms now rfl he ht⟩

theorem ManagerOnly.operated (h : ManagerOnly L s) (ht : t.now = .ok now)
    (hx : Exec (L.terms p).clients
      (Ask.session S.service t (.operate kind realm name caller lease)) s r s') :
    (∀ realm' name' : Identifier, (realm', name') ≠ (realm, name) →
      S.record s' (S.slot realm' name') = S.record s (S.slot realm' name')) ∧
    ∃ r₀, S.Did (operation kind (caller.claim realm name) lease now)
      (S.record s (S.slot realm name)) (S.record s' (S.slot realm name)) r₀ ∧
      (∀ a, r = .ok a → r₀ = .ok a) := by
  obtain ⟨-, r₀, u, hu, ha, hr, -⟩ := L.exec_operate h.good ht hx
  obtain ⟨hr', hn'⟩ := record_operation kind (caller.claim realm name) lease now
  have hfiled := (h.dated realm name).filed
  rw [← hu] at hfiled
  refine ⟨fun realm' name' hne => ?_, r₀, ?_, hr⟩
  · rw [ha.others hr' hn' (L.slot_ne hne), hu]
  · have hd := ha.did L hr' hn' hfiled
    rwa [hu] at hd

theorem ManagerOnly.exec (h : ManagerOnly L s) (ht : t.now = .ok now) (hnow : 0 ≤ now) {ask : Ask}
    (hx : Exec (L.terms p).clients (ask.session S.service t) s r s') : ManagerOnly L s' := by
  cases ask with
  | get realm name =>
    obtain ⟨hg, hs, -⟩ := L.exec_get h.good hx
    exact ⟨hg, fun realm' name' => by rw [hs]; exact h.dated realm' name'⟩
  | operate kind realm name caller lease =>
    refine ⟨(L.exec_operate h.good ht hx).1, fun realm' name' => ?_⟩
    obtain ⟨hothers, r₀, hd, -⟩ := h.operated ht hx
    by_cases hk : (realm', name') = (realm, name)
    · obtain ⟨rfl, rfl⟩ := Prod.mk.inj hk
      cases hd with
      | granted hc _ hp hw _ _ _ ha =>
        rintro l hl
        rw [ha, ← hw] at hl
        obtain ⟨d, e, rfl, hd, hde⟩ := L.written (h.dated realm' name') hnow hp hl
        exact ⟨_, d, e, rfl, rfl, rfl, hd, hde⟩
      | freed _ _ _ _ _ ha =>
        rcases ha with ha | ⟨ha, -⟩
        · intro l hl; rw [ha] at hl; cases hl
        · rw [ha]; exact h.dated realm' name'
      | refused _ ha => rw [ha]; exact h.dated realm' name'
    · rw [hothers realm' name' hk]
      exact h.dated realm' name'

theorem ManagerOnly.ruled (h : ManagerOnly L s) (ht : t.now = .ok now) {ms : Int}
    (he : t.elapsed = .ok ms)
    (hw : ∀ l, (operation kind (caller.claim realm name) lease now).permits
      (S.record s (S.slot realm name)) = true →
      (operation kind (caller.claim realm name) lease now).written S.extend
        (S.record s (S.slot realm name)) = some l →
      S.writable l)
    (hx : Exec (L.terms False).clients
      (Ask.session S.service t (.operate kind realm name caller lease)) s r s') :
    ∃ v, r = .ok ((operation kind (caller.claim realm name) lease now).answer v) ∧
      (operation kind (caller.claim realm name) lease now).Conforms S.extend
        (S.record s (S.slot realm name)) v
        (S.record s' (S.slot realm name)) := by
  obtain ⟨r₀, hop, -, hr⟩ := Manager.exec_operate S.service realm name caller lease ht hx
  obtain ⟨v, rfl, hc⟩ :=
    L.ruled h.good (check_claim kind realm name caller lease now) (h.dated realm name).filed hw hop
  exact ⟨v, hr ms he, hc⟩

theorem ManagerOnly.unwritten (h : ManagerOnly L s) (ht : t.now = .ok now) {l : Lock}
    (hp : (operation kind (caller.claim realm name) lease now).permits
      (S.record s (S.slot realm name)) = true)
    (hl : (operation kind (caller.claim realm name) lease now).written S.extend
      (S.record s (S.slot realm name)) = some l)
    (hn : ¬ S.writable l)
    (hx : Exec (L.terms p).clients (Ask.session S.service t (.operate kind realm name caller lease))
      s r s') {a : Answer}
    (ha : r = .ok a) : a.success = some false := by
  obtain ⟨r₀, hop, hr, -⟩ := Manager.exec_operate S.service realm name caller lease ht hx
  exact L.unwritten h.good (check_claim kind realm name caller lease now)
    (h.dated realm name).filed hp hl hn hop (hr a ha)

theorem ManagerOnly.grants (h : ManagerOnly L s) (ht : t.now = .ok now) {ms : Int}
    (he : t.elapsed = .ok ms) (hnow : 0 ≤ now) (hfree : S.record s (S.slot realm name) = none)
    (hfits : S.fits (now + lease)) (hx : Exec (L.terms False).clients
      (Ask.session S.service t (.operate .acquire realm name caller lease)) s r s') :
    ∃ a, r = .ok a ∧ a.success = some true ∧ a.lock = (caller.claim realm name).lock (some lease)
      (some (now + lease)) := by
  have hp : (operation .acquire (caller.claim realm name) lease now).permits
    (S.record s (S.slot realm name)) = true := by
    rw [hfree]; rfl
  have hw : (operation .acquire (caller.claim realm name) lease now).written S.extend
    (S.record s (S.slot realm name)) =
      some ((caller.claim realm name).lock (some lease) (some (now + lease))) := rfl
  have hlease : 0 ≤ lease.1 := le_trans (by decide) lease.2.1
  obtain ⟨v, rfl, hc⟩ := h.ruled ht he (fun l _ hl => by
    obtain rfl := Option.some.inj (hw.symm.trans hl)
    exact L.writable_of_fits hlease (by omega) hfits) hx
  exact ⟨_, rfl, by rw [hc.success_answer, hp],
    Option.some.inj ((hc.lock_answer nofun hp).symm.trans hw)⟩

end Leasehold.System
