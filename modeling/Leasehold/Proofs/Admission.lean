import Leasehold.Proofs.Report

/-!
# What the manager lets in

A request for a lease comes with any arguments. When an identifier is not one, or the lease is there
and is not one, the request is refused before anything happens: no call, no log entry, and the log
context as it was. When all of them are right no argument is refused later on, whatever the client
replies (`admission`).

A lease that is missing is neither. The check of the manager takes it for an operation that needs
none, so that the context of the request is bound before the request fails: an acquisition when it
adds up the expiry, and a renewal in the service. And a refusal shows the value that it refuses, so
one with an integer of too many digits fails itself.
-/

namespace Leasehold
open Session Manager

namespace Manager

/-! ### Arguments -/

/-- Three to sixty-four letters, digits, underscores and hyphens. -/
def IsIdentifier (v : Value) : Prop := ∃ i : Identifier, v = .text i

/-- A whole number of seconds, one at least and a day at most. -/
def IsTerm (v : Value) : Prop := ∃ d : Term, v = .int d

/-- How a wrong value is refused, which it is by its field unless it cannot be shown. -/
def Refuses (field : String) (v : Value) (e : Error) : Prop :=
  if v.isOverlong then e = .fault .longInteger else ∃ text, e = .argument field text

theorem refuses_of_refusal {α : Type} {x : Except Error α} {field : String} {v : Value}
    (text : String) (h : x = .error (Argument.refusal field text v)) :
    ∃ e, x = .error e ∧ Refuses field v e := by
  refine ⟨_, h, ?_⟩
  rw [Refuses, Argument.refusal]
  split
  · rfl
  · exact ⟨_, rfl⟩

theorem refuses_required (field : String) : Refuses field .null (.required field) := by
  simp only [Refuses, Value.isOverlong, Bool.false_eq_true, if_false]
  exact ⟨_, rfl⟩

theorem identifier_refuses {v : Value} (h : ¬ IsIdentifier v) (field : String) :
    ∃ e, Argument.identifier field v = .error e ∧ Refuses field v e := by
  by_cases hnull : v = .null
  · exact ⟨.required field, by rw [hnull]; rfl, hnull ▸ refuses_required field⟩
  · refine refuses_of_refusal Argument.identifierRule ?_
    cases v with
    | null => exact absurd rfl hnull
    | text s => exact if_neg fun hs => h ⟨⟨s, hs⟩, rfl⟩
    | _ => rfl

theorem leaseDuration_refuses {v : Value} (h : ¬ IsTerm v) :
    ∃ e, Argument.leaseDuration v = .error e ∧ Refuses "lease_duration" v e := by
  cases v with
  | null => exact ⟨.required "lease_duration", rfl, refuses_required "lease_duration"⟩
  | int n =>
    have hn : ¬ (Argument.minLease ≤ n && n ≤ Argument.maxLease) = true := fun hn => by
      rw [Bool.and_eq_true, decide_eq_true_eq, decide_eq_true_eq] at hn
      exact h ⟨⟨n, hn⟩, rfl⟩
    exact refuses_of_refusal Argument.termRule (if_neg hn)
  | _ => exact refuses_of_refusal " must be an integer, got " rfl

/-- The first argument that is wrong, by its field and value. A lease that is missing is not looked
at. -/
inductive FirstWrong (realm name instanceId lease : Value) : String → Value → Prop
  | realm (h : ¬ IsIdentifier realm) : FirstWrong realm name instanceId lease "namespace" realm
  | name (hr : IsIdentifier realm) (h : ¬ IsIdentifier name) :
    FirstWrong realm name instanceId lease "lock_name" name
  | instanceId (hr : IsIdentifier realm) (hn : IsIdentifier name) (h : ¬ IsIdentifier instanceId) :
    FirstWrong realm name instanceId lease "instance_id" instanceId
  | lease (hr : IsIdentifier realm) (hn : IsIdentifier name) (hi : IsIdentifier instanceId)
    (hnull : lease ≠ .null)
    (h : ¬ IsTerm lease) : FirstWrong realm name instanceId lease "lease_duration" lease

theorem exists_firstWrong {realm name instanceId lease : Value}
    (h : ¬ (IsIdentifier realm ∧ IsIdentifier name ∧ IsIdentifier instanceId) ∨ lease ≠ .null ∧
      ¬ IsTerm lease) :
    ∃ field v, FirstWrong realm name instanceId lease field v := by
  by_cases hr : IsIdentifier realm
  swap
  · exact ⟨_, _, .realm hr⟩
  by_cases hn : IsIdentifier name
  swap
  · exact ⟨_, _, .name hr hn⟩
  by_cases hi : IsIdentifier instanceId
  swap
  · exact ⟨_, _, .instanceId hr hn hi⟩
  obtain ⟨hnull, hl⟩ := h.resolve_left (not_not_intro ⟨hr, hn, hi⟩)
  exact ⟨_, _, .lease hr hn hi hnull hl⟩

section Check
variable (owner : Value)

theorem check_refuses {realm name instanceId lease v : Value} {field : String}
    (h : FirstWrong realm name instanceId lease field v) :
    ∃ e, check realm name owner instanceId lease = .error e ∧ Refuses field v e := by
  cases h with
  | realm h =>
    obtain ⟨e, he, hrefuses⟩ := identifier_refuses h "namespace"
    exact ⟨e, by simp only [check, he, bind, Except.bind], hrefuses⟩
  | name hr h =>
    obtain ⟨realm, rfl⟩ := hr
    obtain ⟨e, he, hrefuses⟩ := identifier_refuses h "lock_name"
    exact ⟨e, by simp only [check, identifier_text, he, bind, Except.bind], hrefuses⟩
  | instanceId hr hn h =>
    obtain ⟨⟨realm, rfl⟩, name, rfl⟩ := And.intro hr hn
    obtain ⟨e, he, hrefuses⟩ := identifier_refuses h "instance_id"
    exact ⟨e, by simp only [check, identifier_text, he, bind, Except.bind], hrefuses⟩
  | lease hr hn hi hnull h =>
    obtain ⟨⟨realm, rfl⟩, ⟨name, rfl⟩, instanceId, rfl⟩ := And.intro hr (And.intro hn hi)
    obtain ⟨e, he, hrefuses⟩ := leaseDuration_refuses h
    refine ⟨e, ?_, hrefuses⟩
    cases lease with
    | null => exact absurd rfl hnull
    | _ => simp only [check, identifier_text, he, bind, Except.bind, Functor.map, Except.map]

variable (realm name instanceId : Identifier)

theorem check_unleased : check (.text realm) (.text name) owner (.text instanceId) .null =
    .ok ⟨realm, name, ownerOf owner, instanceId, none⟩ := by
  simp only [check, identifier_text, bind, Except.bind, pure, Except.pure]

theorem check_leased (lease : Term) :
    check (.text realm) (.text name) owner (.text instanceId) (.int lease) =
    .ok ⟨realm, name, ownerOf owner, instanceId, some lease⟩ := by
  simp only [check, identifier_text, leaseDuration_int, bind, Except.bind, pure, Except.pure,
    Functor.map, Except.map]

end Check

/-! ### Requests with any arguments -/

/-- A request as it comes. A release has no lease; it passes over `lease`. -/
inductive RawAsk where
  | get (realm name : Value)
  | operate (kind : Operation.Kind) (realm name owner instanceId lease : Value)

def RawAsk.session {I : Interface} (s : Service I) (t : Timing) : RawAsk → Session I Answer
  | get realm name => Manager.get s t realm name
  | operate .acquire realm name owner instanceId lease =>
    Manager.acquire s t realm name owner instanceId lease
  | operate .renew realm name owner instanceId lease =>
    Manager.renew s t realm name owner instanceId lease
  | operate .release realm name owner instanceId _ =>
    Manager.release s t realm name owner instanceId

/-- The claim of a request with checked names. Its owner is any value that is truthy. -/
def rawClaim (realm name : Identifier) (owner : Value) (instanceId : Identifier) : RawClaim :=
  ⟨.text realm, .text name, ownerOf owner, .text instanceId⟩

/-- The record that the service is asked for. -/
def requested (kind : Operation.Kind) (c : RawClaim) (lease now : Int) : Lock :=
  match kind with
  | .acquire => c.lock (some lease) (some (now + lease))
  | .renew => c.lock (some lease) none
  | .release => c.lock none none

section Session
variable {I : Interface} (s : Service I) (t : Timing)

/-- What a request does once its arguments have passed and the clock has been read. -/
def concluding (kind : Operation.Kind) (c : RawClaim) (lease now : Int) : Session I Answer :=
  ((operation kind c.texts lease now).attempt s c).bind fun v =>
    (s.finish (v.2.getD (requested kind c lease now)) v.1).bind fun a =>
      (ofReading t.elapsed).bind fun ms =>
        .amend (·.bind (resultFields s.name ms (resultLabel a) (shownExpiry kind (now + lease) a)))
          (.note completedEntry (.done a))

variable (realm name : Identifier) (owner : Value) (instanceId : Identifier)

theorem ofLock_rawClaim (lease expiry : Option Int) :
    RawClaim.ofLock (some ((rawClaim realm name owner instanceId).lock lease expiry)) =
      .ok (rawClaim realm name owner instanceId,
        (rawClaim realm name owner instanceId).lock lease expiry) := by
  simp only [RawClaim.ofLock, RawClaim.demand, RawClaim.checkKey, RawClaim.lock, rawClaim,
    demandName_text (ne_empty_of_isIdentifier realm.2),
    demandName_text (ne_empty_of_isIdentifier name.2), bind,
    Except.bind, pure, Except.pure]

theorem acquireLock_rawClaim (lease expiry now : Int) :
    s.acquireLock (some ((rawClaim realm name owner instanceId).lock (some lease) (some expiry)))
      now =
      (s.acquire (rawClaim realm name owner instanceId) lease expiry now).bind
        (s.finish ((rawClaim realm name owner instanceId).lock (some lease) (some expiry))) := by
  simp only [Service.acquireLock, RawClaim.forAcquisition, RawClaim.forRenewal, ofLock_rawClaim,
    bind, Except.bind]
  rfl

theorem renewLock_rawClaim (lease now : Int) :
    s.renewLock (some ((rawClaim realm name owner instanceId).lock (some lease) none)) now =
      (s.renew (rawClaim realm name owner instanceId) lease now).bind fun v =>
        s.finish (v.2.getD ((rawClaim realm name owner instanceId).lock (some lease) none))
          v.1 := by
  simp only [Service.renewLock, RawClaim.forRenewal, ofLock_rawClaim, bind, Except.bind]
  rfl

theorem releaseLock_rawClaim (now : Int) :
    s.releaseLock (some ((rawClaim realm name owner instanceId).lock none none)) now =
      (s.release (rawClaim realm name owner instanceId) now).bind
        (s.finish ((rawClaim realm name owner instanceId).lock none none)) := by
  simp only [Service.releaseLock, ofLock_rawClaim, bind]
  rfl

theorem session_leased (kind : Operation.Kind) (lease : Term) :
    (RawAsk.operate kind (.text realm) (.text name) owner (.text instanceId) (.int lease)).session s
      t =
      .amend (bindRequest kind.action realm name (some (ownerOf owner)) (some instanceId.1)
          (if kind = .release then none else some lease.1))
        ((ofReading t.now).bind
          (concluding s t kind (rawClaim realm name owner instanceId) lease)) := by
  have hlock (held : Option Int) (lease expiry : Option Int) :
      Request.lock ⟨realm, name, ownerOf owner, instanceId, held⟩ lease expiry =
        (rawClaim realm name owner instanceId).lock lease expiry := rfl
  cases kind with
  | acquire =>
    simp only [RawAsk.session, acquire, check_leased, Session.ofExcept, bind_eq, Session.bind,
      start, context, hlock,
      acquireLock_rawClaim, Session.bind_assoc]
    refine congrArg _ (congrArg _ (funext fun now => ?_))
    simp only [concluding, operation, Operation.attempt, Session.bind_assoc]
    rfl
  | renew =>
    simp only [RawAsk.session, renew, check_leased, Session.ofExcept, bind_eq, Session.bind, start,
      context, hlock,
      renewLock_rawClaim, Session.bind_assoc]
    rfl
  | release =>
    simp only [RawAsk.session, release, check_unleased, Session.ofExcept, bind_eq, Session.bind,
      start, context, hlock,
      releaseLock_rawClaim, Session.bind_assoc]
    refine congrArg _ (congrArg _ (funext fun now => ?_))
    simp only [concluding, operation, Operation.attempt, Session.bind_assoc]
    rfl

theorem session_get_refused {realm name : Value} (h : ¬ (IsIdentifier realm ∧ IsIdentifier name)) :
    ∃ e, (RawAsk.get realm name).session s t = .fail e := by
  by_cases hr : IsIdentifier realm
  · have hname : ¬ IsIdentifier name := fun hname => h ⟨hr, hname⟩
    obtain ⟨realm, rfl⟩ := hr
    obtain ⟨e, he, -⟩ := identifier_refuses hname "lock_name"
    exact ⟨e, by simp only [RawAsk.session, Manager.get, identifier_text, he]; rfl⟩
  · obtain ⟨e, he, -⟩ := identifier_refuses hr "namespace"
    exact ⟨e, by simp only [RawAsk.session, Manager.get, he]; rfl⟩

theorem session_refused {kind : Operation.Kind}
    {realm name owner instanceId lease : Value} {e : Error}
    (h : check realm name owner instanceId (if kind = .release then .null else lease) = .error e) :
    (RawAsk.operate kind realm name owner instanceId lease).session s t = .fail e := by
  cases kind with
  | acquire =>
    have hcheck : check realm name owner instanceId lease = .error e := h
    simp only [RawAsk.session, acquire, hcheck]
    rfl
  | renew =>
    have hcheck : check realm name owner instanceId lease = .error e := h
    simp only [RawAsk.session, renew, hcheck]
    rfl
  | release =>
    have hcheck : check realm name owner instanceId .null = .error e := h
    simp only [RawAsk.session, release, hcheck]
    rfl

end Session

theorem faults_concluding (b : Backend) (t : Timing) (kind : Operation.Kind) (c : RawClaim)
    (lease now : Int) :
    (concluding b.system.service t kind c lease now).Writes (fun _ _ => True)
      fun r _ _ => ∀ e, r = .error e → e.IsFault := by
  rw [concluding, writes_bind]
  refine (b.reports_attempt fun h : False => h.elim).mono fun r log f hr => ?_
  cases r with
  | error e =>
    intro e' he
    exact hr.fault e' (by rw [Except.error.inj he])
  | ok v =>
    cases t.elapsed with
    | error f => rintro _ ⟨rfl⟩; exact ⟨f, rfl⟩
    | ok ms => exact nofun

/-! ### Requests for a lease -/

/-- The requests for a lease. -/
inductive Leasing where
  | acquire
  | renew

namespace Leasing

def kind : Leasing → Operation.Kind
  | acquire => .acquire
  | renew => .renew

/-- What a request ends in that names no lease. -/
def unleased : Leasing → Error
  | acquire => .fault .noLease
  | renew => .required "lease_duration"

/-- Without a lease, nothing follows the reading of the clock. -/
theorem session_unleased {I : Interface} (s : Service I) (t : Timing) (leasing : Leasing)
    (owner : Value) (realm name instanceId : Identifier) :
    (RawAsk.operate leasing.kind (.text realm) (.text name) owner (.text instanceId) .null).session
      s t =
      .amend (bindRequest leasing.kind.action realm name (some (ownerOf owner))
        (some instanceId.1) none) ((ofReading t.now).bind fun _ => .fail leasing.unleased) := by
  cases leasing with
  | acquire =>
    simp only [kind, RawAsk.session, Manager.acquire, check_unleased, Session.ofExcept, bind_eq,
      Session.bind, start,
      context]
    rfl
  | renew =>
    have hlock : Request.lock ⟨realm, name, ownerOf owner, instanceId, none⟩ none none =
        (rawClaim realm name owner instanceId).lock none none := rfl
    have hrefused : RawClaim.forRenewal
      (some ((rawClaim realm name owner instanceId).lock none none)) =
        .error (.required "lease_duration") := by
      simp only [RawClaim.forRenewal, ofLock_rawClaim, bind, Except.bind]
      rfl
    simp only [kind, RawAsk.session, Manager.renew, check_unleased, Session.ofExcept, bind_eq,
      Session.bind, start,
      context, Service.renewLock, hlock, hrefused]
    rfl

end Leasing

end Manager

/-! ### The result -/

section Result
variable (b : Backend) (client : Client b.system.I b.system.Store) (leasing : Leasing) (t : Timing)
  (realm name owner instanceId lease : Value) (s : b.system.Store) (c : Context)

/-- The run of a request, with its calls beside the store. -/
def Backend.leased : Run (b.system.Store × List (Step b.system.I)) Answer :=
  ((RawAsk.operate leasing.kind realm name owner instanceId lease).session b.system.service t).run
    (recorded client)
    (s, []) c

/-- Wrong arguments are refused before anything happens, and right ones never. A lease that is
missing passes the check: the log context is bound before the request fails. -/
theorem admission :
    (¬ (IsIdentifier realm ∧ IsIdentifier name ∧ IsIdentifier instanceId) ∨ lease ≠ .null ∧
      ¬ IsTerm lease →
      ∃ field v e, FirstWrong realm name instanceId lease field v ∧ Refuses field v e ∧
        b.leased client leasing t realm name owner instanceId lease s c =
          ⟨.error e, (s, []), c, []⟩) ∧
    (IsIdentifier realm → IsIdentifier name → IsIdentifier instanceId → IsTerm lease → ∀ field text,
      (b.leased client leasing t realm name owner instanceId lease s c).result ≠
        .error (.argument field text)) ∧
    (∀ realm' name' instanceId' : Identifier, realm = .text realm' → name = .text name' →
      instanceId = .text instanceId' →
      lease = .null → b.leased client leasing t realm name owner instanceId lease s c =
        ⟨(t.now.mapError .fault).bind fun _ => .error leasing.unleased, (s, []),
          bindRequest leasing.kind.action realm' name' (some (ownerOf owner))
            (some instanceId'.1) none c, []⟩) := by
  refine ⟨fun h => ?_, ?_, ?_⟩
  · obtain ⟨field, v, hwrong⟩ := exists_firstWrong h
    obtain ⟨e, he, hrefuses⟩ := check_refuses owner hwrong
    have hcheck : check realm name owner instanceId
      (if leasing.kind = .release then .null else lease) = .error e := by
      cases leasing <;> exact he
    refine ⟨field, v, e, hwrong, hrefuses, ?_⟩
    rw [Backend.leased, session_refused _ t hcheck]
    rfl
  · rintro ⟨realm, rfl⟩ ⟨name, rfl⟩ ⟨instanceId, rfl⟩ ⟨lease, rfl⟩ field text he
    rw [Backend.leased, session_leased, run] at he
    cases hnow : t.now with
    | error f => rw [hnow] at he; cases he
    | ok now =>
      rw [hnow] at he
      have hfaults :=
        faults_concluding b t leasing.kind (rawClaim realm name owner instanceId) lease now
      obtain ⟨-, hfault, -⟩ :=
        @Writes.run _ _ _ _ _ _ (recorded client) hfaults (fun _ _ => trivial) (s, []) _
      obtain ⟨f, hf⟩ := hfault _ he
      cases hf
  · rintro realm' name' instanceId' rfl rfl rfl rfl
    rw [Backend.leased, leasing.session_unleased]
    cases t.now <;> rfl

end Result

/-- A renewal without a lease is refused by the service, when the log context is bound already. -/
theorem admission_unleased (s : Memory.Store) :
    (Backend.memory.leased Memory.client .renew (still 5) (.text "jobs") (.text "nightly")
      (.text "ada") (.text "one") .null
      s []).result = .error (.required "lease_duration") ∧
    Assoc.find? (Backend.memory.leased Memory.client .renew (still 5) (.text "jobs")
      (.text "nightly") (.text "ada") (.text "one") .null s []).context "lock_operation" =
        some (.text "renew") := by
  have h :=
    (admission .memory Memory.client .renew (still 5) (.text "jobs") (.text "nightly") (.text "ada")
      (.text "one")
    .null s []).2.2 ⟨"jobs", by decide⟩ ⟨"nightly", by decide⟩ ⟨"one", by decide⟩ rfl rfl rfl rfl
  exact ⟨congrArg Run.result h, congrArg (fun r => Assoc.find? r.context "lock_operation") h⟩

/-- An acquisition without a lease refuses no argument: it fails when the expiry is to be
computed. -/
theorem not_admission_without_lease :
    ¬ ∀ (b : Backend) (client : Client b.system.I b.system.Store) (leasing : Leasing)
    (t : Timing) (realm name owner instanceId lease : Value) (s : b.system.Store) (c : Context),
    ¬ (IsIdentifier realm ∧ IsIdentifier name ∧ IsIdentifier instanceId ∧ IsTerm lease) →
      ∃ field text, b.leased client leasing t realm name owner instanceId lease s c =
        ⟨.error (.argument field text), (s, []), c, []⟩ := by
  intro h
  obtain ⟨field, text, hr⟩ :=
    h .memory Memory.client .acquire (still 5) (.text "jobs") (.text "nightly") (.text "ada")
    (.text "one") .null [] [] (by rintro ⟨-, -, -, _, ⟨⟩⟩)
  cases congrArg Run.result hr

end Leasehold
