import Leasehold.Proofs.Holding
import Leasehold.Proofs.Session.Writes

/-!
# Answers and what is recorded of them

A service has many ways to come to a verdict: a condition that fails, a commit that is lost, a fault
it answers for, at its first call or after some attempts. On each of them it leaves the log context
alone, and writes an entry of level error just when the verdict is one of failure or of races lost
(`Operation.Reports`). That is one lemma per store. What stands between the calls is `DebugOnly`: it
only logs for debugging, and the reports of a fault or of lost races come around it.

The outcome is recorded by `Service.finish` and nowhere else, so an answer and its record agree
(`answer_recorded`), whatever the store holds, which calls fail and what they reply.
-/

namespace Leasehold
open Session

/-- The outcome is reported as an error: something failed, or every race was lost. -/
def Outcome.alarms (o : Outcome) : Bool := o.isError || o.retriesExhausted

/-- The event of the entry that records an outcome. -/
def decisionEvent : String := "lock backend decision"

/-- A fault, and not an argument that is refused. -/
def Error.IsFault (e : Error) : Prop := ∃ f, e = .fault f

/-! ### Parts that only log for debugging -/

/-- The context is as it was, nothing but entries for debugging has been logged, and `R` holds of
the answer. Where there is none, there was a fault. -/
structure DebugOnly {α : Type} (R : α → Prop) (r : Except Error α) (log : List Log.Entry)
    (f : Context → Context) : Prop where
  context : f = id
  minor : ∀ e ∈ log, e.event ≠ decisionEvent ∧ e.level = .debug
  answer : ∀ a, r = .ok a → R a
  fault : ∀ e, r = .error e → e.IsFault

section DebugOnly
variable {I : Interface} {P : (c : I.Call) → Except Fault (I.Reply c) → Prop} {α β : Type}
    {R : α → Prop} {session : Session I α}

theorem DebugOnly.mono {R' : α → Prop} {r : Except Error α} {log : List Log.Entry}
    {f : Context → Context} (h : DebugOnly R r log f) (hR : ∀ a, R a → R' a) :
    DebugOnly R' r log f :=
  ⟨h.context, h.minor, fun a ha => hR a (h.answer a ha), h.fault⟩

theorem DebugOnly.ok {log : List Log.Entry} {f : Context → Context} {a : α} (hf : f = id)
    (hlog : ∀ e ∈ log, e.event ≠ decisionEvent ∧ e.level = .debug) (h : R a) :
    DebugOnly R (.ok a) log f :=
  ⟨hf, hlog, by rintro _ ⟨rfl⟩; exact h, by rintro _ ⟨⟩⟩

theorem DebugOnly.error {log : List Log.Entry} {f : Context → Context} {e : Error} (hf : f = id)
    (hlog : ∀ e ∈ log, e.event ≠ decisionEvent ∧ e.level = .debug) (h : e.IsFault) :
    DebugOnly R (.error e) log f :=
  ⟨hf, hlog, by rintro _ ⟨⟩, by rintro _ ⟨rfl⟩; exact h⟩

theorem debugOnly_done {a : α} (h : R a) : (done a : Session I α).Writes P (DebugOnly R) :=
  .ok rfl (List.forall_mem_nil _) h

theorem debugOnly_fail {e : Error} (h : e.IsFault) :
    (fail e : Session I α).Writes P (DebugOnly R) :=
  .error rfl (List.forall_mem_nil _) h

theorem debugOnly_note {entry : Log.Entry}
    (hentry : entry.event ≠ decisionEvent ∧ entry.level = .debug)
    (h : session.Writes P (DebugOnly R)) : (note entry session).Writes P (DebugOnly R) := by
  rw [writes_note]
  exact h.mono fun _ _ _ hr =>
    ⟨hr.context, List.forall_mem_cons.mpr ⟨hentry, hr.minor⟩, hr.answer, hr.fault⟩

theorem debugOnly_bind {R' : β → Prop} {k : α → Session I β} (h : session.Writes P (DebugOnly R))
    (hk : ∀ a, R a → (k a).Writes P (DebugOnly R')) : (session.bind k).Writes P (DebugOnly R') := by
  refine writes_bind.mpr (h.mono fun r log f hr => ?_)
  cases r with
  | error e => exact .error hr.context hr.minor (hr.fault e rfl)
  | ok a =>
    refine (hk a (hr.answer a rfl)).mono fun r' log' g hr' => ⟨?_, ?_, hr'.answer, hr'.fault⟩
    · rw [hr.context, hr'.context]
      rfl
    · exact List.forall_mem_append.mpr ⟨hr.minor, hr'.minor⟩

theorem debugOnly_rescue {answers : Error → Bool} {handler : Error → Session I α}
    (h : session.Writes P (DebugOnly R))
    (hh : ∀ e, e.IsFault → (handler e).Writes P (DebugOnly R)) :
    (session.rescue answers handler).Writes P (DebugOnly R) := by
  refine writes_rescue.mpr (h.mono fun r log f hr => ?_)
  cases r with
  | ok a => exact hr
  | error e =>
    dsimp only
    split
    · refine (hh e (hr.fault e rfl)).mono fun r' log' g hr' =>
        ⟨?_, List.forall_mem_append.mpr ⟨hr.minor, hr'.minor⟩, hr'.answer, hr'.fault⟩
      rw [hr.context, hr'.context]
      rfl
    · exact hr

theorem debugOnly_ask (c : I.Call) :
    (Session.ask c).Writes P (DebugOnly fun reply => P c (.ok reply)) := by
  rintro (f | reply) hr
  · exact debugOnly_fail ⟨f, rfl⟩
  · exact debugOnly_done hr

theorem debugOnly_ofReading (reading : Except Fault α) :
    (ofReading reading : Session I α).Writes P (DebugOnly fun a => reading = .ok a) := by
  cases reading with
  | ok a => exact debugOnly_done rfl
  | error f => exact debugOnly_fail ⟨f, rfl⟩

end DebugOnly

namespace Operation

/-- What a verdict comes with. Only a renewal that went well has a record, and when what the store
hands back is `genuine` that record has an expiry. -/
structure Sound (op : Operation) (genuine : Prop) (v : Verdict) : Prop where
  operation : v.1.operation = op.kind.action
  bare : op.kind ≠ .renew ∨ v.1.isSuccess = false → v.2 = none
  dated : genuine → op.kind = .renew → v.1.isSuccess = true → ∃ l expiry, v.2 = some l ∧
    l.expiry = some expiry

/-- What an attempt leaves in log and context besides its result. -/
structure Reports (op : Operation) (genuine : Prop) (r : Except Error Verdict)
    (log : List Log.Entry) (f : Context → Context) : Prop where
  context : f = id
  undecided : ∀ e ∈ log, e.event ≠ decisionEvent
  alarmed : (∃ e ∈ log, e.level = .error) ↔ ∃ v, r = .ok v ∧ v.1.alarms = true
  sound : ∀ v, r = .ok v → op.Sound genuine v
  fault : ∀ e, r = .error e → e.IsFault

/-- The verdicts of parts that only log for debugging. -/
def Settled (op : Operation) (genuine : Prop) (v : Verdict) : Prop :=
  op.Sound genuine v ∧ v.1.alarms = false

variable {op : Operation} {genuine : Prop}

theorem sound_bare {o : Outcome} (ho : o.operation = op.kind.action)
    (hs : op.kind = .renew → o.isSuccess = false) :
    op.Sound genuine (o, none) where
  operation := ho
  bare := fun _ => rfl
  dated := fun _ hk h => by rw [hs hk] at h; cases h

theorem sound_failed : op.Sound genuine (op.kind.failed, none) :=
  sound_bare (by cases op.kind <;> rfl) fun hk => by rw [hk]; rfl

theorem sound_exhausted : op.Sound genuine (op.kind.exhausted, none) :=
  sound_bare (by cases op.kind <;> rfl) fun hk => by rw [hk]; rfl

theorem settled_conflict : op.Settled genuine (op.kind.conflict, none) :=
  ⟨sound_bare (by cases op.kind <;> rfl) fun hk => by rw [hk]; rfl, by cases op.kind <;> rfl⟩

theorem settled_bare {o : Outcome} (hk : op.kind ≠ .renew) (ho : o.operation = op.kind.action)
    (ha : o.alarms = false) :
    op.Settled genuine (o, none) :=
  ⟨sound_bare ho fun h => absurd h hk, ha⟩

theorem settled_renewed (hk : op.kind = .renew) {l : Option Lock}
    (hl : genuine → ∃ m expiry, l = some m ∧ m.expiry = some expiry) :
    op.Settled genuine (.renewed, l) where
  left :=
    { operation := by rw [hk]; rfl
      bare := fun h => by rcases h with h | h; exacts [absurd hk h, nomatch h]
      dated := fun hg _ _ => hl hg }
  right := rfl

/-! What the rules decide. -/

section Decided
variable (existing : Option Lock) (l : Lock) (now : Int)

theorem settled_acquire (hk : op.kind = .acquire) :
    op.Settled genuine (Decision.acquire existing l now, none) := by
  refine settled_bare (by rw [hk]; decide) ?_ ?_ <;> unfold Decision.acquire <;> repeat' split
  all_goals first | rfl | (rw [hk]; rfl)

theorem settled_renew (hk : op.kind = .renew) :
    op.Settled genuine (Decision.renew existing l now) := by
  unfold Decision.renew
  repeat' split
  · exact ⟨sound_bare (by rw [hk]; rfl) fun _ => rfl, rfl⟩
  · exact ⟨sound_bare (by rw [hk]; rfl) fun _ => rfl, rfl⟩
  · exact ⟨sound_bare (by rw [hk]; rfl) fun _ => rfl, rfl⟩
  · exact settled_renewed hk fun _ => ⟨_, _, rfl, rfl⟩

theorem settled_release (hk : op.kind = .release) :
    op.Settled genuine (Decision.release existing l now, none) := by
  refine settled_bare (by rw [hk]; decide) ?_ ?_ <;> unfold Decision.release <;> repeat' split
  all_goals first | rfl | (rw [hk]; rfl)

end Decided

theorem Reports.of_debugOnly {r : Except Error Verdict} {log : List Log.Entry}
    {f : Context → Context} (h : DebugOnly (op.Settled genuine) r log f) :
    op.Reports genuine r log f where
  context := h.context
  undecided := fun e he => (h.minor e he).1
  alarmed := by
    refine iff_of_false ?_ ?_
    · rintro ⟨e, he, hlevel⟩
      rw [(h.minor e he).2] at hlevel
      cases hlevel
    · rintro ⟨v, hv, ha⟩
      rw [(h.answer v hv).2] at ha
      cases ha
  sound := fun v hv => (h.answer v hv).1
  fault := h.fault

theorem Reports.alarm {log : List Log.Entry} {f : Context → Context} {v : Verdict}
    {entry : Log.Entry} (hf : f = id) (hlog : ∀ e ∈ log, e.event ≠ decisionEvent)
    (hv : op.Sound genuine v) (ha : v.1.alarms = true) (hevent : entry.event ≠ decisionEvent)
    (hlevel : entry.level = .error) :
    op.Reports genuine (.ok v) (log ++ [entry]) (id ∘ f) where
  context := hf
  undecided := List.forall_mem_append.mpr ⟨hlog, List.forall_mem_singleton.mpr hevent⟩
  alarmed :=
    iff_of_true ⟨entry, List.mem_append_right _ (List.mem_singleton_self _), hlevel⟩ ⟨v, rfl, ha⟩
  sound := by rintro _ ⟨rfl⟩; exact hv
  fault := by rintro _ ⟨⟩

theorem event_ne_decisionEvent : op.kind.event ≠ decisionEvent := by
  cases op.kind <;> decide

/-- The fault that broke a session off is reported when it is answered for. -/
theorem reports_guarded {I : Interface} {P : (c : I.Call) → Except Fault (I.Reply c) → Prop}
    {session : Session I Verdict} {answers : Error → Bool} {realm name : Value}
    (h : session.Writes P (op.Reports genuine)) :
    (Service.guarded answers op.kind.event realm name (op.kind.failed, none) session).Writes P
      (op.Reports genuine) := by
  rw [Service.guarded, writes_rescue]
  refine h.mono fun r log f hr => ?_
  cases r with
  | ok v => exact hr
  | error e =>
    dsimp only
    split
    · exact .alarm hr.context hr.undecided sound_failed (by cases op.kind <;>
        rfl) event_ne_decisionEvent rfl
    · exact hr

end Operation

theorem Service.context_guarded {I : Interface}
    {P : (c : I.Call) → Except Fault (I.Reply c) → Prop} {α : Type} {session : Session I α}
    {answers : Error → Bool} {event : String} {realm name : Value} {failed : α}
    (h : session.Writes P (DebugOnly fun _ => True)) :
    (Service.guarded answers event realm name failed session).Writes P fun _ _ f => f = id := by
  rw [Service.guarded, writes_rescue]
  refine h.mono fun r log f hr => ?_
  cases r with
  | ok a => exact hr.context
  | error e =>
    dsimp only
    split
    · show id ∘ f = id
      rw [hr.context]
      rfl
    · exact hr.context

/-! ### The stores -/

/-- A reply that calls of the system may have: a fault, or what a client of the store replies at
some state of it. -/
def System.Genuine (S : System) (c : S.I.Call) (reply : Except Fault (S.I.Reply c)) : Prop :=
  (∃ f, reply = .error f) ∨ ∃ cl ∈ S.clients, ∃ s, reply = (cl c s).1

section Stores
variable {op : Operation} {c : RawClaim} {genuine : Prop}

namespace Memory
variable {P : (c : Call) → Except Fault (Reply c) → Prop}

theorem reports_attempt : (op.attempt service c).Writes P (op.Reports genuine) := by
  refine Writes.mono ?_ fun _ _ _ => Operation.Reports.of_debugOnly
  obtain ⟨kind, r, now⟩ := op
  cases kind with
  | acquire =>
    refine debugOnly_bind (R := fun o => Operation.Settled ⟨.acquire, r, now⟩ genuine (o, none)) ?_
      fun _ ho => debugOnly_done ho
    refine debugOnly_bind (debugOnly_ask (I := interface) (.read c.key)) fun existing _ => ?_
    dsimp only
    split
    · exact debugOnly_bind (debugOnly_ask (I := interface) (.write c.key _)) fun _ _ =>
        debugOnly_done (Operation.settled_acquire existing _ now rfl)
    · exact debugOnly_done (Operation.settled_acquire existing _ now rfl)
  | renew =>
    refine debugOnly_bind (debugOnly_ask (I := interface) (.read c.key)) fun existing _ => ?_
    have hsettled := @Operation.settled_renew ⟨.renew, r, now⟩ genuine existing
      (c.lock (some (Operation.delta ⟨.renew, r, now⟩)) none) now rfl
    revert hsettled
    generalize Decision.renew existing
      (c.lock (some (Operation.delta ⟨.renew, r, now⟩)) none) now = v
    obtain ⟨o, _ | l⟩ := v <;> intro hsettled
    · exact debugOnly_done hsettled
    · exact debugOnly_bind (debugOnly_ask (I := interface) (.write c.key l)) fun _ _ =>
        debugOnly_done hsettled
  | release =>
    refine debugOnly_bind (R := fun o => Operation.Settled ⟨.release, r, now⟩ genuine (o, none)) ?_
      fun _ ho => debugOnly_done ho
    refine debugOnly_bind (debugOnly_ask (I := interface) (.read c.key)) fun existing _ => ?_
    dsimp only
    split
    · exact debugOnly_bind (debugOnly_ask (I := interface) (.remove c.key)) fun _ _ =>
        debugOnly_done (Operation.settled_release existing _ now rfl)
    · exact debugOnly_done (Operation.settled_release existing _ now rfl)

theorem context_find (realm name : String) :
    (service.find realm name).Writes P fun _ _ f => f = id :=
  (debugOnly_ask (I := interface) (.read (Lock.keyOf realm name))).mono fun _ _ _ hr => hr.context

end Memory

namespace Table
variable {options : Options} {P : (c : Call) → Except Fault (Reply c) → Prop}

theorem expiry_ofRow {row : Row} {l : Lock} (h : ofRow row = .ok l) :
    ∃ expiry, l.expiry = some expiry := by
  obtain ⟨_, _, h⟩ := ok_of_bind h
  obtain ⟨_, _, h⟩ := ok_of_bind h
  obtain ⟨_, _, h⟩ := ok_of_bind h
  obtain ⟨_, _, h⟩ := ok_of_bind h
  obtain ⟨_, _, h⟩ := ok_of_bind h
  obtain ⟨expiry, _, h⟩ := ok_of_bind h
  cases h
  exact ⟨expiry, rfl⟩

theorem reports_attempt : (op.attempt (service options) c).Writes P (op.Reports genuine) := by
  obtain ⟨kind, r, now⟩ := op
  cases kind with
  | acquire =>
    have hsettled {o : Outcome} : o.operation = .acquire → o.alarms = false →
        Operation.Settled ⟨.acquire, r, now⟩ genuine (o, none) :=
      @Operation.settled_bare ⟨.acquire, r, now⟩ genuine o (by rintro ⟨⟩)
    show ((acquire options c _ _ now).bind fun o => done (o, none)).Writes P _
    rw [acquire, guarded, Service.guarded_map]
    refine @Operation.reports_guarded ⟨.acquire, r, now⟩ genuine interface P _ _ _ _
      (Writes.mono (debugOnly_bind
        (debugOnly_bind (debugOnly_ask (I := interface) _) fun row _ => ?_)
        fun _ ho => debugOnly_done ho)
        fun _ _ _ => Operation.Reports.of_debugOnly)
    cases row with
    | none => exact debugOnly_done (hsettled rfl rfl)
    | some row => exact debugOnly_done (hsettled rfl rfl)
  | renew =>
    refine @Operation.reports_guarded ⟨.renew, r, now⟩ genuine interface P _ _ _ _
      (Writes.mono (debugOnly_bind (debugOnly_ask (I := interface) _) fun row _ => ?_)
        fun _ _ _ => Operation.Reports.of_debugOnly)
    cases row with
    | none => exact debugOnly_done Operation.settled_conflict
    | some row =>
      refine debugOnly_bind (debugOnly_ofReading _) fun l hl =>
        debugOnly_done (Operation.settled_renewed rfl fun _ => ?_)
      obtain ⟨expiry, he⟩ := expiry_ofRow hl
      exact ⟨l, expiry, rfl, he⟩
  | release =>
    have hsettled {o : Outcome} : o.operation = .release → o.alarms = false →
        Operation.Settled ⟨.release, r, now⟩ genuine (o, none) :=
      @Operation.settled_bare ⟨.release, r, now⟩ genuine o (by rintro ⟨⟩)
    have hflag {row : Row} {live : Outcome} (hlive : live = .released ∨ live = .releaseConflict) :
        ((ofReading (expiredFlag row)).bind fun expired =>
          done (if expired then .releasedExpired else live) : Session interface Outcome).Writes P
            (DebugOnly fun o => Operation.Settled ⟨.release, r, now⟩ genuine (o, none)) := by
      refine debugOnly_bind (debugOnly_ofReading _) fun expired _ => debugOnly_done ?_
      cases expired with
      | true => exact hsettled rfl rfl
      | false => rcases hlive with rfl | rfl <;> exact hsettled rfl rfl
    show ((release options c now).bind fun o => done (o, none)).Writes P _
    rw [release, guarded, Service.guarded_map]
    refine @Operation.reports_guarded ⟨.release, r, now⟩ genuine interface P _ _ _ _
      (Writes.mono (debugOnly_bind
        (debugOnly_bind (debugOnly_ask (I := interface) _) fun row _ => ?_)
        fun _ ho => debugOnly_done ho)
        fun _ _ _ => Operation.Reports.of_debugOnly)
    cases row with
    | some row => exact hflag (.inl rfl)
    | none =>
      refine debugOnly_bind (debugOnly_ask (I := interface) _) fun row _ => ?_
      cases row with
      | some row => exact hflag (.inr rfl)
      | none => exact debugOnly_done (hsettled rfl rfl)

theorem context_find (realm name : String) :
    ((service options).find realm name).Writes P fun _ _ f => f = id := by
  show (find options realm name).Writes P _
  rw [find_eq]
  refine Service.context_guarded (debugOnly_bind (debugOnly_ask (I := interface) _) fun row _ => ?_)
  exact debugOnly_bind (debugOnly_ofReading _) fun _ _ => debugOnly_done trivial

end Table

namespace Documents
variable {options : Options} {P : (c : Call) → Except Fault (Reply c) → Prop}

theorem debugOnly_giveUp {α : Type} {R : α → Prop} (e : Error) (he : e.IsFault) :
    (giveUp e : Session interface α).Writes P (DebugOnly R) :=
  fun _ _ => debugOnly_fail he

theorem debugOnly_transaction {α : Type} {R : α → Prop} {body : Session interface (α × List Write)}
    (h : body.Writes P (DebugOnly fun p => R p.1)) (left : Nat) (again : Bool) :
    (attempt body left again).Writes P (DebugOnly R) := by
  induction left generalizing again with
  | zero => exact debugOnly_giveUp _ ⟨_, rfl⟩
  | succ left ih =>
    refine debugOnly_bind
      (debugOnly_rescue (debugOnly_bind (debugOnly_ask (I := interface) _) fun _ _ => h)
      debugOnly_giveUp) ?_
    rintro ⟨a, ws⟩ ha (f | _) -
    · dsimp only
      split
      · exact ih true
      · exact debugOnly_giveUp _ ⟨_, rfl⟩
    · exact debugOnly_done ha

theorem debugOnly_read (path : String) (inTransaction : Bool) :
    (read path inTransaction).Writes P (DebugOnly fun _ => True) := by
  refine debugOnly_bind (debugOnly_ask (I := interface) _) fun data _ => ?_
  cases data with
  | none => exact debugOnly_done trivial
  | some data => exact debugOnly_bind (debugOnly_ofReading _) fun _ _ => debugOnly_done trivial

theorem reports_operate {body : Session interface (Verdict × List Write)}
    (h : body.Writes P (DebugOnly fun p => op.Settled genuine p.1)) :
    (operate op.kind.event c (op.kind.failed, none) body).Writes P (op.Reports genuine) :=
  Operation.reports_guarded
    (Writes.mono (debugOnly_transaction h _ _) fun _ _ _ => Operation.Reports.of_debugOnly)

theorem reports_attempt : (op.attempt (service options) c).Writes P (op.Reports genuine) := by
  obtain ⟨kind, r, now⟩ := op
  cases kind with
  | acquire =>
    show ((acquire options c _ _ now).bind fun o => done (o, none)).Writes P _
    rw [acquire, operate, Service.guarded_map, transaction_map]
    refine @reports_operate ⟨.acquire, r, now⟩ c genuine P _ (debugOnly_bind
      (R := fun p => Operation.Settled ⟨.acquire, r, now⟩ genuine (p.1, none)) ?_ fun _ ho =>
        debugOnly_done ho)
    refine debugOnly_bind (debugOnly_read _ _) fun existing _ => ?_
    dsimp only
    split
    · exact debugOnly_bind (debugOnly_ofReading _) fun _ _ =>
        debugOnly_done (Operation.settled_acquire existing _ now rfl)
    · exact debugOnly_done (Operation.settled_acquire existing _ now rfl)
  | renew =>
    refine @reports_operate ⟨.renew, r, now⟩ c genuine P _
      (debugOnly_bind (debugOnly_read _ _) fun existing _ => ?_)
    have hsettled := @Operation.settled_renew ⟨.renew, r, now⟩ genuine existing
      (c.lock (some (Operation.delta ⟨.renew, r, now⟩)) none) now rfl
    revert hsettled
    generalize Decision.renew existing
      (c.lock (some (Operation.delta ⟨.renew, r, now⟩)) none) now = v
    obtain ⟨o, _ | l⟩ := v <;> intro hsettled
    · exact debugOnly_done hsettled
    · exact debugOnly_bind (debugOnly_ofReading _) fun _ _ => debugOnly_done hsettled
  | release =>
    show ((release options c now).bind fun o => done (o, none)).Writes P _
    rw [release, operate, Service.guarded_map, transaction_map]
    refine @reports_operate ⟨.release, r, now⟩ c genuine P _ (debugOnly_bind
      (R := fun p => Operation.Settled ⟨.release, r, now⟩ genuine (p.1, none)) ?_ fun _ ho =>
        debugOnly_done ho)
    exact debugOnly_bind (debugOnly_read _ _) fun existing _ =>
      debugOnly_done (Operation.settled_release existing _ now rfl)

theorem context_find (realm name : String) :
    ((service options).find realm name).Writes P fun _ _ f => f = id :=
  Service.context_guarded (debugOnly_read _ _)

end Documents

namespace KeyValue
variable {options : Options} {P : (c : Call) → Except Fault (Reply c) → Prop}

theorem debugOnly_read (key : String) : (read key).Writes P (DebugOnly fun _ => True) := by
  refine debugOnly_bind (debugOnly_ask (I := interface) _) fun entry _ => ?_
  cases entry with
  | none => exact debugOnly_done trivial
  | some e => exact debugOnly_bind (debugOnly_ofReading _) fun _ _ => debugOnly_done trivial

theorem debugOnly_put (key : String) (revision : Nat) (l : Lock) (now : Int) :
    (putIfUnchanged key revision l now).Writes P (DebugOnly fun _ => True) := by
  refine debugOnly_bind (debugOnly_ask (I := interface) _) fun lease _ =>
    debugOnly_bind (debugOnly_ofReading _) fun text _ => ?_
  refine debugOnly_bind (debugOnly_ask (I := interface) _) fun committed _ => ?_
  cases committed with
  | true => exact debugOnly_done trivial
  | false => exact debugOnly_bind (debugOnly_ask (I := interface) _) fun _ _ =>
    debugOnly_done trivial

section Tries
variable (key : String) (l : Lock) (now : Int)

theorem debugOnly_committed {α : Type} {R : α → Prop} {a : α} (h : R a) (committed : Bool) :
    (done (if committed then some a else none) : Session interface (Option α)).Writes P
      (DebugOnly fun o => ∀ a, o = some a → R a) := by
  refine debugOnly_done fun b hb => ?_
  cases committed with
  | true => exact Option.some.inj hb ▸ h
  | false => cases hb

theorem debugOnly_tryAcquire (hk : op.kind = .acquire) :
    (tryAcquire key l now).Writes P
      (DebugOnly fun o => ∀ a, o = some a → op.Settled genuine (a, none)) := by
  refine debugOnly_bind (debugOnly_read _) ?_
  rintro ⟨existing, revision⟩ -
  have hsettled (committed : Bool) :=
    debugOnly_committed (P := P) (R := fun o => op.Settled genuine (o, none))
    (@Operation.settled_acquire op genuine existing l now hk) committed
  dsimp only
  split
  · exact debugOnly_bind (debugOnly_put _ _ _ _) fun committed _ => hsettled committed
  · exact hsettled true

theorem debugOnly_tryRenew (hk : op.kind = .renew) :
    (tryRenew key l now).Writes P (DebugOnly fun o => ∀ v, o = some v → op.Settled genuine v) := by
  refine debugOnly_bind (debugOnly_read _) ?_
  rintro ⟨existing, revision⟩ -
  have hsettled := @Operation.settled_renew op genuine existing l now hk
  revert hsettled
  dsimp only
  generalize Decision.renew existing l now = v
  obtain ⟨o, _ | renewed⟩ := v <;> intro hsettled
  · exact debugOnly_committed hsettled true
  · exact debugOnly_bind (debugOnly_put _ _ _ _) fun committed _ =>
      debugOnly_committed hsettled committed

theorem debugOnly_tryRelease (hk : op.kind = .release) :
    (tryRelease key l now).Writes P
      (DebugOnly fun o => ∀ a, o = some a → op.Settled genuine (a, none)) := by
  refine debugOnly_bind (debugOnly_read _) ?_
  rintro ⟨existing, revision⟩ -
  have hsettled (committed : Bool) :=
    debugOnly_committed (P := P) (R := fun o => op.Settled genuine (o, none))
    (@Operation.settled_release op genuine existing l now hk) committed
  dsimp only
  split
  · exact debugOnly_bind (debugOnly_ask (I := interface) _) fun committed _ => hsettled committed
  · exact hsettled true

end Tries

/-- Lost commits are logged for debugging. -/
theorem debugOnly_retry {α : Type} {R : Option α → Prop} (hnone : R none) {operation : Action}
    {total : Nat} {attempt : Session interface (Option α)} (h : attempt.Writes P (DebugOnly R))
    (left : Nat) :
    (retry operation total attempt left).Writes P (DebugOnly R) := by
  induction left with
  | zero => exact debugOnly_done hnone
  | succ left ih =>
    refine debugOnly_bind h fun o ho => ?_
    cases o with
    | some a => exact debugOnly_done ho
    | none =>
      refine debugOnly_note ⟨?_, rfl⟩ ih
      show "CAS failed for " ++ operation.label ≠ decisionEvent
      cases operation <;> decide

theorem reports_operate {attempt : Session interface (Option Verdict)}
    (h : attempt.Writes P (DebugOnly fun o => ∀ v, o = some v → op.Settled genuine v)) :
    (operate options op.kind.action op.kind.event c (op.kind.exhausted, none)
      (op.kind.failed, none) attempt).Writes P
      (op.Reports genuine) := by
  simp only [operate, bind_eq]
  refine Operation.reports_guarded (I := interface) ?_
  rw [writes_bind]
  refine (debugOnly_retry (by rintro _ ⟨⟩) h _).mono fun r log f hr => ?_
  cases r with
  | error e => exact .of_debugOnly (.error hr.context hr.minor (hr.fault e rfl))
  | ok o =>
    cases o with
    | some v =>
      dsimp only
      rw [pure_eq_done, writes_done, List.append_nil]
      exact .of_debugOnly (.ok hr.context hr.minor (hr.answer _ rfl v rfl))
    | none =>
      have hevent : "Max retries exceeded" ≠ decisionEvent := by decide
      dsimp only
      rw [writes_note, writes_done]
      refine .alarm hr.context (fun e he => (hr.minor e he).1) Operation.sound_exhausted
        ?_ hevent rfl
      cases op.kind <;> rfl

theorem reports_attempt : (op.attempt (service options) c).Writes P (op.Reports genuine) := by
  -- an attempt that answers an outcome alone
  have bare {attempt : Session interface (Option Outcome)}
      (h : attempt.Writes P (DebugOnly fun o => ∀ a, o = some a → op.Settled genuine (a, none))) :
      (attempt.bind fun o => done (o.map fun a => (a, none))).Writes P
        (DebugOnly fun o => ∀ v, o = some v → op.Settled genuine v) := by
    refine debugOnly_bind h fun o ho => debugOnly_done fun v hv => ?_
    obtain ⟨a, ha, rfl⟩ := Option.map_eq_some_iff.mp hv
    exact ho a ha
  obtain ⟨kind, r, now⟩ := op
  cases kind with
  | acquire =>
    show ((acquire options c _ _ now).bind fun o => done (o, none)).Writes P _
    rw [acquire, operate_map]
    exact @reports_operate ⟨.acquire, r, now⟩ c genuine options P _
      (bare (debugOnly_tryAcquire _ _ _ rfl))
  | renew =>
    exact @reports_operate ⟨.renew, r, now⟩ c genuine options P _ (debugOnly_tryRenew _ _ _ rfl)
  | release =>
    show ((release options c now).bind fun o => done (o, none)).Writes P _
    rw [release, operate_map]
    exact @reports_operate ⟨.release, r, now⟩ c genuine options P _
      (bare (debugOnly_tryRelease _ _ _ rfl))

theorem context_find (realm name : String) :
    ((service options).find realm name).Writes P fun _ _ f => f = id :=
  Service.context_guarded (debugOnly_bind (debugOnly_read _) fun _ _ => debugOnly_done trivial)

end KeyValue

namespace Items
variable {options : Options} {P : (c : Call) → Except Fault (Reply c) → Prop}

/-- A failed condition is logged for debugging, any other fault as an error. -/
theorem reports_settle {session : Session interface Verdict}
    (h : session.Writes P (DebugOnly (op.Settled genuine))) :
    (settle op.kind.action op.kind.event c (op.kind.conflict, none)
      (op.kind.failed, none) session).Writes P
      (op.Reports genuine) := by
  rw [settle, writes_rescue]
  refine h.mono fun r log f hr => ?_
  cases r with
  | ok v => exact .of_debugOnly hr
  | error e =>
    dsimp only
    split
    · split
      · refine .of_debugOnly (.ok hr.context (List.forall_mem_append.mpr
          ⟨hr.minor, List.forall_mem_singleton.mpr ⟨?_, rfl⟩⟩) Operation.settled_conflict)
        show "Conditional check failed for " ++ op.kind.action.label ≠ decisionEvent
        cases op.kind <;> decide
      · refine .alarm hr.context (fun e he => (hr.minor e he).1) Operation.sound_failed
          (by cases op.kind <;> rfl)
          Operation.event_ne_decisionEvent rfl
    · exact .of_debugOnly hr

theorem debugOnly_getItem (key : String) : (getItem key).Writes P (DebugOnly fun _ => True) :=
  debugOnly_bind (debugOnly_ask (I := interface) _) fun _ _ =>
    (debugOnly_ofReading _).mono fun _ _ _ hr => hr.mono fun _ _ => trivial

theorem settled_cleared (hk : op.kind = .release) {o : Outcome}
    (ho : o.isCleared = true ∨ o = .releaseConflict) :
    op.Settled genuine (o, none) := by
  refine Operation.settled_bare (by rw [hk]; decide) ?_ ?_
  · rw [hk]
    rcases ho with ho | rfl
    · cases o <;> first | rfl | cases ho
    · rfl
  · rcases ho with ho | rfl
    · cases o <;> first | rfl | cases ho
    · rfl

theorem reports_release (hk : op.kind = .release) :
    (op.attempt (service options) c).Writes P (op.Reports genuine) := by
  obtain ⟨kind, l, now⟩ := op
  obtain rfl : kind = .release := hk
  show ((release c now).bind fun o => done (o, none)).Writes P _
  rw [release, guarded, Service.guarded_map]
  refine @Operation.reports_guarded ⟨.release, l, now⟩ genuine interface P _ _ _ _
    (Writes.mono ?_ fun _ _ _ => Operation.Reports.of_debugOnly)
  refine debugOnly_bind (R := fun o => o.isCleared = true ∨ o = .releaseConflict) ?_ fun o ho =>
    debugOnly_done (settled_cleared rfl ho)
  rintro (f | response) -
  · dsimp only
    split
    · refine debugOnly_bind (debugOnly_getItem _) fun existing _ => debugOnly_done ?_
      cases existing with
      | none => exact .inl rfl
      | some l =>
        simp only [Decision.afterRefusedRelease]
        split
        · exact .inl rfl
        · exact .inr rfl
    · exact debugOnly_fail ⟨_, rfl⟩
  · refine (debugOnly_ofReading _).mono fun _ _ _ hr => hr.mono fun o ho => ?_
    rw [releaseOutcome_eq] at ho
    cases hl : ofItem (part response "Attributes") with
    | error f => rw [hl] at ho; cases ho
    | ok l =>
      rw [hl] at ho
      cases ho
      dsimp only
      split <;> exact .inl rfl

/-- An item that the store hands back after a renewal has an expiry when it can be read. -/
def Dated (P : (c : Call) → Except Fault (Reply c) → Prop) (options : Options) (op : Operation)
    (c : RawClaim) : Prop :=
  ∀ response l, P (.update c.key (extension options op.delta) (isLive c op.now)) (.ok response) →
    ofItem (part response "Attributes") = .ok l → ∃ m expiry, l = some m ∧ m.expiry = some expiry

theorem reports_attempt (hdated : genuine → op.kind = .renew → Dated P options op c) :
    (op.attempt (service options) c).Writes P (op.Reports genuine) := by
  obtain ⟨kind, r, now⟩ := op
  cases kind with
  | acquire =>
    have hsettled {o : Outcome} : o.operation = .acquire → o.alarms = false →
        Operation.Settled ⟨.acquire, r, now⟩ genuine (o, none) :=
      @Operation.settled_bare ⟨.acquire, r, now⟩ genuine o (by rintro ⟨⟩)
    show ((acquire options c _ _ now).bind fun o => done (o, none)).Writes P _
    rw [acquire, settle_map]
    refine @reports_settle ⟨.acquire, r, now⟩ c genuine P _
      (debugOnly_bind (debugOnly_bind (debugOnly_ask (I := interface) _)
      fun response _ => debugOnly_bind (debugOnly_ofReading _) fun previous _ => ?_) fun _ ho =>
        debugOnly_done ho)
    cases previous with
    | none => exact debugOnly_done (hsettled rfl rfl)
    | some previous =>
      dsimp only
      split <;> exact debugOnly_done (hsettled rfl rfl)
  | renew =>
    refine @reports_settle ⟨.renew, r, now⟩ c genuine P _
      (debugOnly_bind (debugOnly_ask (I := interface) _) fun response hr => ?_)
    exact debugOnly_bind (debugOnly_ofReading _) fun l hl =>
      debugOnly_done (Operation.settled_renewed rfl fun hg => hdated hg rfl response l hr hl)
  | release => exact reports_release rfl

theorem context_find (realm name : String) :
    ((service options).find realm name).Writes P fun _ _ f => f = id :=
  Service.context_guarded (debugOnly_getItem _)

theorem expiry_extension {delta : Int} {w w' : Item}
    (h : Update.updated? (extension options delta) w = some w') :
    ∃ d, Assoc.find? w' "expiry" = some (.decimal d) := by
  rw [updated?_extension] at h
  obtain ⟨lease, -, h⟩ := Option.bind_eq_some_iff.mp h
  obtain ⟨expiry, -, rfl⟩ := Option.map_eq_some_iff.mp h
  unfold moved
  split
  · rw [Assoc.find?_put]
    split
    · exact ⟨_, rfl⟩
    · exact ⟨_, Assoc.find?_put_self ..⟩
  · exact ⟨_, Assoc.find?_put_self ..⟩

/-- An item with a number for its expiry has a record with an expiry, if any. -/
theorem dated_of_find? {w : Item} {d : Decimal} (hd : Assoc.find? w "expiry" = some (.decimal d))
    {l : Option Lock} (hl : reading (some w) = .ok l) :
    ∃ m expiry, l = some m ∧ m.expiry = some expiry := by
  have hw : (Value.map w).isTruthy = true := by
    cases w with
    | nil => cases hd
    | cons => rfl
  simp only [reading, ofItem, hw, if_true] at hl
  cases hm : Lock.ofValue (.map w) with
  | error f => rw [hm] at hl; cases hl
  | ok m =>
    rw [hm] at hl
    cases hl
    obtain ⟨_, _, hm⟩ := ok_of_bind hm
    obtain ⟨_, _, hm⟩ := ok_of_bind hm
    obtain ⟨_, _, hm⟩ := ok_of_bind hm
    obtain ⟨expiry, hexpiry, hm⟩ := ok_of_bind hm
    cases hm
    simp only [hd, Option.getD_some, Lock.whole] at hexpiry
    split at hexpiry
    · cases hexpiry
      exact ⟨_, _, rfl, rfl⟩
    · cases hexpiry

theorem dated_of_genuine (hP : ∀ c reply, P c reply → (system options).Genuine c reply) :
    Dated P options op c := by
  intro response l hr hl
  rcases hP _ _ hr with ⟨f, ⟨⟩⟩ | ⟨cl, hcl, s, hreply⟩
  rw [System.clients_eq rfl, Set.mem_singleton_iff] at hcl
  subst hcl
  replace hreply : _ = (client _ s).1 := hreply
  simp only [client] at hreply
  split at hreply
  · split at hreply
    · cases hw : Update.updated? (extension options op.delta) ((Assoc.find? s c.key).getD []) with
      | none => rw [hw] at hreply; cases hreply
      | some w =>
        rw [hw] at hreply
        cases hreply
        rw [ofItem_part] at hl
        obtain ⟨d, hd⟩ := expiry_extension hw
        exact dated_of_find? hd hl
    · cases hreply
  · cases hreply

end Items

end Stores

namespace Backend

theorem reports_attempt (b : Backend)
    {P : (c : b.system.I.Call) → Except Fault (b.system.I.Reply c) → Prop} {genuine : Prop}
    (hP : genuine → ∀ c reply, P c reply → b.system.Genuine c reply) {op : Operation}
    {c : RawClaim} :
    (op.attempt b.system.service c).Writes P (op.Reports genuine) := by
  cases b with
  | memory => exact Memory.reports_attempt
  | keyValue options => exact KeyValue.reports_attempt
  | table options => exact Table.reports_attempt
  | items options => exact Items.reports_attempt fun hg _ => Items.dated_of_genuine (hP hg)
  | documents options => exact Documents.reports_attempt

theorem context_find (b : Backend)
    {P : (c : b.system.I.Call) → Except Fault (b.system.I.Reply c) → Prop} (realm name : String) :
    (b.system.service.find realm name).Writes P fun _ _ f => f = id := by
  cases b with
  | memory => exact Memory.context_find realm name
  | keyValue options => exact KeyValue.context_find realm name
  | table options => exact Table.context_find realm name
  | items options => exact Items.context_find realm name
  | documents options => exact Documents.context_find realm name

end Backend

/-! ### Answers -/

theorem Answer.operation_ofOutcome (l : Lock) (o : Outcome) :
    (ofOutcome l o).operation = o.operation := by
  cases o <;> rfl

theorem Answer.lock_ofOutcome_redacted {o : Outcome} (l : Lock) (h : o.isHeld = false) :
    (ofOutcome l o).lock = l.redacted := by
  cases o <;> first | rfl | cases h

/-- An answer, and what has been written with it. -/
structure Operation.Recorded (op : Operation) (genuine : Prop) (v : Verdict) (a : Answer)
    (log : List Log.Entry) (f : Context → Context) : Prop where
  answer : a = op.answer v
  sound : op.Sound genuine v
  context : f = (·.record v.1)
  decided : (log.filter (·.event = decisionEvent)).length = 1
  alarmed : (∃ e ∈ log, e.level = .error) ↔ v.1.alarms = true

theorem Operation.Reports.recorded {I : Interface} (service : Service I) {op : Operation}
    {genuine : Prop} {v : Verdict} {log : List Log.Entry} {f : Context → Context}
    (h : op.Reports genuine (.ok v) log f) :
    op.Recorded genuine v (op.answer v) (log ++ [service.decisionEntry (v.2.getD op.lock)])
      ((id ∘ (·.record v.1)) ∘ f) where
  answer := rfl
  sound := h.sound v rfl
  context := by rw [h.context]; rfl
  decided := by
    have hlog : log.filter (·.event = decisionEvent) = [] :=
      List.filter_eq_nil_iff.mpr fun e he => by simpa using h.undecided e he
    rw [List.filter_append, hlog]
    rfl
  alarmed := by
    constructor
    · rintro ⟨e, he, hlevel⟩
      rcases List.mem_append.mp he with he | he
      · obtain ⟨_, ⟨rfl⟩, ha⟩ := h.alarmed.mp ⟨e, he, hlevel⟩
        exact ha
      · rw [List.mem_singleton.mp he] at hlevel
        cases hlevel
    · intro ha
      obtain ⟨e, he, hlevel⟩ := h.alarmed.mpr ⟨v, rfl, ha⟩
      exact ⟨e, List.mem_append_left _ he, hlevel⟩

theorem Service.writes_finish {I : Interface} {P : (c : I.Call) → Except Fault (I.Reply c) → Prop}
    {Q : Except Error Answer → List Log.Entry → (Context → Context) → Prop} (service : Service I)
    (l : Lock) (o : Outcome) :
    (service.finish l o).Writes P Q ↔
      Q (.ok (Answer.ofOutcome l o)) [service.decisionEntry l] (id ∘ (·.record o)) :=
  Iff.rfl

theorem Backend.records_session (b : Backend)
    {P : (c : b.system.I.Call) → Except Fault (b.system.I.Reply c) → Prop} {genuine : Prop}
    (hP : genuine → ∀ c reply, P c reply → b.system.Genuine c reply) (op : Operation) :
    (op.session b.system.service).Writes P fun r log f =>
      ∀ a, r = .ok a → ∃ v, op.Recorded genuine v a log f := by
  cases h : op.check with
  | error e =>
    rw [op.session_of_error _ h, writes_fail]
    intro a ha
    cases ha
  | ok c =>
    rw [op.session_of_check _ h, writes_bind]
    refine (b.reports_attempt hP).mono fun r log f hr => ?_
    cases r with
    | error e =>
      intro a ha
      cases ha
    | ok v =>
      dsimp only
      rw [Service.writes_finish]
      intro a ha
      obtain rfl := Except.ok.inj ha
      exact ⟨v, hr.recorded b.system.service⟩

/-- An answer agrees with what is recorded of it, and shows no more than it may: for every store,
whichever calls fail and whatever they reply. -/
theorem answer_recorded (b : Backend) {σ : Type} (client : Client b.system.I σ)
    (op : Operation) (s : σ) (context : Context) {a : Answer}
    (h : ((op.session b.system.service).run client s context).result = .ok a) :
    let run := (op.session b.system.service).run client s context
    a.operation = op.kind.action ∧
    (∃ o, a.outcome = some o ∧ o.operation = op.kind.action ∧
      Assoc.find? run.context Context.outcomeKey = some (.text o.code) ∧
      a.success = some (o.isHeld || o.isCleared) ∧
      ((∃ e ∈ run.log, e.level = .error) ↔ o.isError = true ∨ o.retriesExhausted = true)) ∧
    (run.log.filter (·.event = "lock backend decision")).length = 1 ∧
    (a.success ≠ some true ∨ op.kind = .release →
      a.lock = { realm := op.lock.realm, name := op.lock.name }) := by
  intro run
  have hrecords : (op.session b.system.service).Writes (fun _ _ => True)
      fun r log f => ∀ a, r = .ok a → ∃ v, op.Recorded False v a log f :=
        b.records_session False.elim op
  obtain ⟨f, hf, hcontext⟩ := hrecords.run (fun c s => trivial) s context
  obtain ⟨v, hv⟩ := hf a h
  obtain ⟨rfl, hsound, rfl, hdecided, halarmed⟩ := hv
  have hoperation : (op.answer v).operation = op.kind.action :=
    (Answer.operation_ofOutcome _ _).trans hsound.operation
  have hsuccess : (op.answer v).success = some v.1.isSuccess := Answer.success_ofOutcome _ _
  refine ⟨hoperation, ⟨v.1, Answer.outcome_ofOutcome _ _, hsound.operation, ?_, hsuccess, ?_⟩,
    hdecided, ?_⟩
  · rw [show run.context = context.record v.1 from hcontext]
    exact Assoc.find?_put_self ..
  · rw [halarmed, Outcome.alarms, Bool.or_eq_true]
  · intro hbare
    rw [hsuccess] at hbare
    have hfree : op.kind = .release ∨ v.1.isSuccess = false :=
      hbare.symm.imp_right fun hs => by simpa using hs
    have hrecord : v.2 = none := hsound.bare (hfree.imp_left fun hk => by rw [hk]; decide)
    have hheld : v.1.isHeld = false := by
      rcases hfree with hk | hs
      · have ho := hsound.operation
        rw [hk] at ho
        cases hv : v.1 <;> rw [hv] at ho <;> first | rfl | cases ho
      · exact (Bool.or_eq_false_iff.mp hs).1
    rw [Operation.answer, Answer.lock_ofOutcome_redacted _ hheld, hrecord]
    rfl

/-- Two commits are lost in a row, and the operation gives up: one record of it, and one report. -/
theorem answer_recorded_exhausted :
    let b : Backend := .keyValue { retries := 1 }
    let op : Operation :=
      ⟨.acquire, (Claim.mk "jobs" "nightly" "ada" "one").record (some 10) (some 15), 5⟩
    let run := (op.session b.system.service).run KeyValue.losing {} []
    run.result = .ok (.failed op.lock .acquireMaxRetries) ∧
      Assoc.find? run.context Context.outcomeKey = some (.text "ACQUIRE_MAX_RETRIES") ∧
      (∃ e ∈ run.log, e.level = .error) ∧
      (run.log.filter (·.event = "lock backend decision")).length = 1 := by
  intro b op run
  have hrun : run.result = .ok (.failed op.lock .acquireMaxRetries) := by decide +kernel
  obtain ⟨-, ⟨o, ho, -, hcontext, -, halarmed⟩, hdecided, -⟩ :=
    answer_recorded b KeyValue.losing op {} [] hrun
  obtain rfl := Option.some.inj ho
  exact ⟨hrun, hcontext, halarmed.mpr (.inr rfl), hdecided⟩

end Leasehold
