import Leasehold.Proofs.Admission
import Leasehold.Proofs.Report

/-!
# The log context of a request

Values that are null are not bound, so a field of an earlier request would stay if a later one did
not take it out. A request starts by taking out all fields that requests bind, and every field that
any part of it binds is one of those (`Context.bind_reset`). So what the log context shows of locks
afterwards is what this request has bound (`Manager.RawAsk.bound`), and fields of other origin are
as they were (`context_own`).
-/

namespace Leasehold
open Session

/-- The log context has no say in what is called and how it ends. -/
theorem Session.run_result {I : Interface} {σ α : Type} (session : Session I α)
    (client : Client I σ) (s : σ) (c c' : Context) :
    (session.run client s c).result = (session.run client s c').result := by
  induction session generalizing s c c' with
  | done | fail => rfl
  | note entry next ih => exact ih s c c'
  | amend change next ih => exact ih s (change c) (change c')
  | call q next ih => exact ih _ _ c c'

namespace Assoc
variable {κ α : Type} [DecidableEq κ]

theorem find?_append (m n : Assoc κ α) (k : κ) : find? (m ++ n) k = (find? m k).or (find? n k) := by
  induction m with
  | nil => rfl
  | cons e m ih =>
    simp only [List.cons_append, find?]
    split
    · rfl
    · exact ih

theorem find?_eq_none {m : Assoc κ α} {k : κ} (h : ∀ e ∈ m, e.1 ≠ k) : find? m k = none := by
  cases hf : find? m k with
  | none => rfl
  | some a => exact absurd rfl (h _ (mem_of_find? hf))

theorem put_of_find?_eq_none {m : Assoc κ α} {k : κ} (h : find? m k = none) (a : α) :
    put m k a = m ++ [(k, a)] := by
  induction m with
  | nil => rfl
  | cons e m ih =>
    simp only [find?] at h
    split at h
    · cases h
    · rename_i hne
      rw [put, if_neg hne, ih h]
      rfl

theorem putAll_of_fresh {m n : Assoc κ α} (h : ∀ e ∈ n, find? m e.1 = none) (hn : (keys n).Nodup) :
    putAll m n = m ++ n := by
  induction n generalizing m with
  | nil => exact (List.append_nil m).symm
  | cons e n ih =>
    obtain ⟨hne, hn⟩ := List.nodup_cons.mp hn
    have hput : put m e.1 e.2 = m ++ [e] := put_of_find?_eq_none (h e List.mem_cons_self) _
    have hfresh (e' : κ × α) (he' : e' ∈ n) : find? (m ++ [e]) e'.1 = none := by
      rw [find?_append, h e' (List.mem_cons_of_mem _ he'), Option.none_or]
      refine find?_eq_none fun e₀ he₀ => ?_
      rw [List.mem_singleton.mp he₀]
      rintro heq
      exact hne (heq ▸ List.mem_map_of_mem he')
    show putAll (put m e.1 e.2) n = _
    rw [hput, ih hfresh hn, List.append_assoc]
    rfl

end Assoc

namespace Context

/-- The fields that are bound: those that are not null. -/
def own (fields : Value.Fields) : Value.Fields := fields.filter fun e => !isNull e.2

theorem bind_bind (c : Context) (m n : Value.Fields) : (c.bind m).bind n = c.bind (m ++ n) := by
  simp only [bind, bindAll, Assoc.putAll, List.filter_append, List.foldl_append]

theorem record_eq_bind (c : Context) (o : Outcome) :
    c.record o = c.bind [(outcomeKey, .text o.code)] := rfl

theorem find?_reset (c : Context) (key : String) :
    Assoc.find? c.reset key = if key ∈ lockKeys then none else Assoc.find? c key := by
  rw [reset, Assoc.find?_drop]
  simp only [List.contains_eq_mem, decide_eq_true_eq]

/-- Distinct lock fields that are bound after a reset come after all that stays. -/
theorem bind_reset {fields : Value.Fields} (hkeys : ∀ key ∈ fields.map Prod.fst, key ∈ lockKeys)
    (hn : (fields.map Prod.fst).Nodup) (c : Context) :
    c.reset.bind fields = c.reset ++ own fields := by
  refine Assoc.putAll_of_fresh (fun e he => ?_) ?_
  · rw [find?_reset, if_pos (hkeys _ (List.mem_map_of_mem (List.mem_filter.mp he).1))]
  · exact List.Nodup.sublist (List.Sublist.map _ List.filter_sublist) hn

theorem find?_own {fields : Value.Fields} (hn : (fields.map Prod.fst).Nodup) (key : String) :
    Assoc.find? (own fields) key = (Assoc.find? fields key).filter fun v => !isNull v := by
  induction fields with
  | nil => rfl
  | cons e fields ih =>
    obtain ⟨hne, hn⟩ := List.nodup_cons.mp hn
    have ih := ih hn
    by_cases hkey : e.1 = key
    · have hnone : Assoc.find? (own fields) key = none :=
        Assoc.find?_eq_none fun e' he' hk =>
          hne (hkey.trans hk.symm ▸ List.mem_map_of_mem (List.mem_filter.mp he').1)
      rw [own] at hnone ⊢
      by_cases hnull : isNull e.2 = true <;> simp [Assoc.find?, hkey, hnull, hnone, Option.filter]
    · rw [own] at ih ⊢
      by_cases hnull : isNull e.2 = true <;> simp [Assoc.find?, hkey, hnull, ih]

end Context

namespace Manager

namespace RawAsk

/-- What a request has bound when it is completed: from its arguments, what the store found or the
answer, and the time that it took. -/
def bound (backend : String) (ms : Int) (found : Bool) (a : Answer) : RawAsk → Value.Fields
  | get realm name =>
    [("lock_namespace", .text realm.plain), ("lock_name", .text name.plain),
      ("lock_operation", .text "get"),
     ("auth_subject", .null), ("instance_id_hash", .null), ("requested_lease_duration_sec", .null),
     ("lock_service_outcome", .null), ("lock_backend", .text backend),
     ("backend_duration_ms", .int ms),
     ("lock_result", .text (if found then "success" else "not_found")),
     ("computed_expiry_epoch_sec", .null)]
  | operate kind realm name owner instanceId lease =>
    [("lock_namespace", .text realm.plain), ("lock_name", .text name.plain),
      ("lock_operation", .text kind.action.label),
     ("auth_subject", ownerOf owner), ("instance_id_hash", .text (Digest.sha256 instanceId.plain)),
     ("requested_lease_duration_sec",
       .ofInt? (if kind = .release then none else lease.toInt.toOption)),
     ("lock_service_outcome", .ofText? (a.outcome.map Outcome.code)),
     ("lock_backend", .text backend),
     ("backend_duration_ms", .int ms),
     ("lock_result", .text (if a.success = some true then "success" else "conflict")),
     ("computed_expiry_epoch_sec",
       .ofInt? (if kind ≠ .release ∧ a.success = some true then a.lock.expiry else none))]

/-- That is what the start of an operation binds, its outcome, and what its end binds. -/
theorem bound_operate (backend : String) (ms : Int) (found : Bool) (a : Answer)
    (kind : Operation.Kind) (realm name owner instanceId lease : Value) :
    (operate kind realm name owner instanceId lease).bound backend ms found a =
      requestFields kind.action realm.plain name.plain (some (ownerOf owner))
        (some instanceId.plain)
          (if kind = .release then none else lease.toInt.toOption) ++
        (Context.outcomeKey, .ofText? (a.outcome.map Outcome.code)) :: resultFields backend ms
          (resultLabel a) (if kind ≠ .release ∧
            a.success = some true then a.lock.expiry else none) := rfl

theorem keys_bound (backend : String) (ms : Int) (found : Bool) (a : Answer) (p : RawAsk) :
    (p.bound backend ms found a).map Prod.fst =
      ["lock_namespace", "lock_name", "lock_operation", "auth_subject", "instance_id_hash",
        "requested_lease_duration_sec", Context.outcomeKey, "lock_backend", "backend_duration_ms",
          "lock_result",
        "computed_expiry_epoch_sec"] := by
  cases p <;> rfl

theorem mem_lockKeys_of_bound {backend : String} {ms : Int} {found : Bool} {a : Answer}
    {p : RawAsk} :
    ∀ key ∈ (p.bound backend ms found a).map Prod.fst, key ∈ Context.lockKeys := by
  rw [keys_bound]
  decide

theorem nodup_bound {backend : String} {ms : Int} {found : Bool} {a : Answer} {p : RawAsk} :
    ((p.bound backend ms found a).map Prod.fst).Nodup := by
  rw [keys_bound]
  decide

theorem bind_bound (backend : String) (ms : Int) (found : Bool) (a : Answer) (p : RawAsk)
    (c : Context) :
    c.reset.bind (p.bound backend ms found a) = c.reset ++ Context.own
      (p.bound backend ms found a) :=
  Context.bind_reset mem_lockKeys_of_bound nodup_bound c

theorem find?_bound (backend : String) (ms : Int) (found : Bool) (a : Answer) (p : RawAsk)
    (c : Context) (key : String) :
    Assoc.find? (c.reset ++ Context.own (p.bound backend ms found a)) key =
      if key ∈ Context.lockKeys then
        (Assoc.find? (p.bound backend ms found a) key).filter fun v => !Context.isNull v
      else Assoc.find? c key := by
  rw [Assoc.find?_append, Context.find?_reset, Context.find?_own nodup_bound]
  split
  · rw [Option.none_or]
  · rename_i hkey
    rw [Assoc.find?_eq_none (m := p.bound backend ms found a)]
    · exact Option.or_none
    · rintro e he rfl
      exact hkey (mem_lockKeys_of_bound _ (List.mem_map_of_mem he))

end RawAsk

section Completed
variable {I : Interface} {s : Service I} {t : Timing} {σ : Type} {client : Client I σ} {st : σ}
  {context : Context} {a : Answer}

theorem Leasing.not_completed_unleased (leasing : Leasing) {owner : Value}
    {realm name instanceId : Identifier} :
    (((RawAsk.operate leasing.kind (.text realm) (.text name) owner
      (.text instanceId) .null).session s t).run client st
      context).result ≠ .ok a := by
  rw [leasing.session_unleased]
  cases t.now <;> exact nofun

theorem RawAsk.names_of_completed {realm name : Value}
    (h : (((RawAsk.get realm name).session s t).run client st context).result = .ok a) :
    IsIdentifier realm ∧ IsIdentifier name := by
  by_contra hn
  obtain ⟨e, he⟩ := session_get_refused s t hn
  rw [he] at h
  cases h

/-- A request that is completed had arguments that pass the checks. -/
theorem RawAsk.arguments_of_completed {kind : Operation.Kind}
    {realm name owner instanceId lease : Value}
    (h : (((RawAsk.operate kind realm name owner instanceId lease).session s t).run client st
      context).result = .ok a) :
    IsIdentifier realm ∧ IsIdentifier name ∧ IsIdentifier instanceId ∧
    (kind = .release ∨ IsTerm lease) := by
  have accepted (e : Error) : check realm name owner instanceId
    (if kind = .release then .null else lease) ≠ .error e := by
    intro he
    rw [session_refused s t he] at h
    cases h
  have hids : IsIdentifier realm ∧ IsIdentifier name ∧ IsIdentifier instanceId := by
    by_contra hn
    obtain ⟨field, v, hwrong⟩ := exists_firstWrong (.inl hn)
    obtain ⟨e, he, -⟩ := check_refuses owner hwrong
    exact accepted e he
  refine ⟨hids.1, hids.2.1, hids.2.2, ?_⟩
  by_cases hk : kind = .release
  · exact .inl hk
  · refine .inr ?_
    by_contra hn
    rw [if_neg hk] at accepted
    by_cases hnull : lease = .null
    · obtain ⟨⟨realm, rfl⟩, ⟨name, rfl⟩, instanceId, rfl⟩ := hids
      subst hnull
      cases kind with
      | acquire => exact Leasing.acquire.not_completed_unleased h
      | renew => exact Leasing.renew.not_completed_unleased h
      | release => exact hk rfl
    · obtain ⟨field, v, hwrong⟩ := exists_firstWrong (.inr ⟨hnull, hn⟩)
      obtain ⟨e, he, -⟩ := check_refuses owner hwrong
      exact accepted e he

end Completed

/-! ### What is bound -/

section Shown
variable {kind : Operation.Kind} {c : RawClaim} {lease now : Int} {v : Verdict}

/-- The answer to a verdict. -/
def answerOf (kind : Operation.Kind) (c : RawClaim) (lease now : Int) (v : Verdict) : Answer :=
  Answer.ofOutcome (v.2.getD (requested kind c lease now)) v.1

variable (hv : (operation kind c.texts lease now).Sound True v)
include hv

theorem lock_answerOf (hk : kind ≠ .release)
    (hs : (answerOf kind c lease now v).success = some true) :
    (answerOf kind c lease now v).lock = v.2.getD (requested kind c lease now) := by
  rw [answerOf, Answer.success_ofOutcome, Option.some.injEq] at hs
  refine Answer.lock_ofOutcome _ hs ?_
  rw [hv.operation]
  cases kind with
  | acquire => show Action.acquire ≠ .release; decide
  | renew => show Action.renew ≠ .release; decide
  | release => exact absurd rfl hk

theorem expiry_answerOf (hk : kind ≠ .release)
    (hs : (answerOf kind c lease now v).success = some true) :
    ∃ expiry, (answerOf kind c lease now v).lock.expiry = some expiry := by
  rw [lock_answerOf hv hk hs]
  cases kind with
  | acquire =>
    rw [hv.bare (.inl nofun)]
    exact ⟨now + lease, rfl⟩
  | renew =>
    rw [answerOf, Answer.success_ofOutcome, Option.some.injEq] at hs
    obtain ⟨l, expiry, hl, he⟩ := hv.dated trivial rfl hs
    exact ⟨expiry, by rw [hl]; exact he⟩
  | release => exact absurd rfl hk

theorem shownExpiry_answerOf : shownExpiry kind (now + lease) (answerOf kind c lease now v) =
    if kind ≠ .release ∧ (answerOf kind c lease now v).success = some true then
      (answerOf kind c lease now v).lock.expiry else none := by
  cases kind with
  | acquire =>
    have hk : Operation.Kind.acquire ≠ .release := nofun
    by_cases hs : (answerOf .acquire c lease now v).success = some true
    · rw [shownExpiry, if_pos hs, if_pos ⟨hk, hs⟩, lock_answerOf hv hk hs, hv.bare (.inl nofun)]
      rfl
    · rw [shownExpiry, if_neg hs, if_neg fun h => hs h.2]
  | renew => simp only [shownExpiry, ne_eq, reduceCtorEq, not_false_eq_true, true_and]
  | release => rfl

end Shown

/-- An operation that is completed records its outcome and binds the fields of its end. -/
theorem writes_concluding (b : Backend)
    {P : (c : b.system.I.Call) → Except Fault (b.system.I.Reply c) → Prop}
    (hP : ∀ c reply, P c reply → b.system.Genuine c reply) (t : Timing) (kind : Operation.Kind)
    (c : RawClaim) (lease now : Int) :
    (concluding b.system.service t kind c lease now).Writes P fun r _ f => ∀ a, r = .ok a →
      ∃ ms o, t.elapsed = .ok ms ∧ a.outcome = some o ∧
        (kind ≠ .release ∧ a.success = some true → ∃ expiry, a.lock.expiry = some expiry) ∧
        f = fun c => (c.record o).bind (resultFields b.system.service.name ms (resultLabel a)
          (if kind ≠ .release ∧ a.success = some true then a.lock.expiry else none)) := by
  have hattempt : ((operation kind c.texts lease now).attempt b.system.service c).Writes P
      ((operation kind c.texts lease now).Reports True) := b.reports_attempt fun _ => hP
  rw [concluding, writes_bind]
  refine hattempt.mono fun r log f hr => ?_
  cases r with
  | error e =>
    intro a ha
    cases ha
  | ok v =>
    have hsound : (operation kind c.texts lease now).Sound True v := hr.sound v rfl
    dsimp only
    rw [writes_bind, Service.writes_finish]
    cases t.elapsed with
    | error e =>
      dsimp only
      rw [ofReading, Session.bind, writes_fail]
      intro a ha
      cases ha
    | ok ms =>
      dsimp only
      rw [ofReading, Session.bind, writes_amend, writes_note, writes_done]
      rintro _ ⟨rfl⟩
      refine ⟨ms, v.1, rfl, Answer.outcome_ofOutcome _ _,
        fun h => expiry_answerOf hsound h.1 h.2, ?_⟩
      rw [hr.context]
      exact congrArg (fun e => fun c : Context => (c.record v.1).bind
        (resultFields b.system.service.name ms _ e))
        (shownExpiry_answerOf hsound)

theorem run_get (b : Backend) {σ : Type} {client : Client b.system.I σ} {t : Timing}
    {realm name : Identifier} {s : σ} {context : Context} {a : Answer}
    (h : (((RawAsk.get (.text realm) (.text name)).session b.system.service t).run client s
      context).result = .ok a) :
    ∃ ms stored, t.elapsed = .ok ms ∧
      ((b.system.service.find realm name).run client s context).result = .ok stored ∧
      (((RawAsk.get (.text realm) (.text name)).session b.system.service t).run client s
        context).context =
        context.reset.bind
          ((RawAsk.get (.text realm) (.text name)).bound b.system.service.name ms
            stored.isSome a) := by
  have hsession : (RawAsk.get (.text realm) (.text name)).session b.system.service t =
      Ask.session b.system.service t (.get realm name) := rfl
  rw [hsession, session_get, run, run_bind] at h ⊢
  have hcontext : ((b.system.service.find realm.1 name.1).run client s
      (bindRequest .get realm name none none none context)).context =
        bindRequest .get realm name none none none context := by
    obtain ⟨f, rfl, hcontext⟩ := Writes.run (b.context_find (P := fun _ _ => True) realm.1 name.1)
      (fun _ _ => trivial) s (bindRequest .get realm name none none none context)
    exact hcontext
  have hresult := run_result (b.system.service.find realm name) client s context
    (bindRequest .get realm name none none none context)
  rw [hresult]
  revert h hcontext
  generalize (b.system.service.find realm.1 name.1).run client s
    (bindRequest .get realm name none none none context) = r
  intro h hcontext
  cases hr : r.result with
  | error e =>
    simp only [Run.andThen, hr] at h
    cases h
  | ok stored =>
    simp only [Run.andThen, hr] at h ⊢
    cases he : t.elapsed with
    | error e =>
      rw [he] at h
      cases h
    | ok ms =>
      cases hn : t.now with
      | error e =>
        rw [he, hn] at h
        cases h
      | ok now =>
        refine ⟨ms, stored, rfl, rfl, ?_⟩
        rw [hcontext]
        exact Context.bind_bind ..

/-- What an operation that is completed has bound. -/
theorem run_operate (b : Backend) {σ : Type} {client : Client b.system.I σ}
    (hclient : ∀ c s, b.system.Genuine c (client c s).1) {t : Timing} {kind : Operation.Kind}
    {realm name owner instanceId lease : Value} {s : σ} {context : Context} {a : Answer}
    (h : (((RawAsk.operate kind realm name owner instanceId lease).session b.system.service t).run
      client s context).result
      = .ok a) :
    ∃ ms o, t.elapsed = .ok ms ∧ a.outcome = some o ∧
      (kind ≠ .release ∧ a.success = some true → ∃ expiry, a.lock.expiry = some expiry) ∧
      (((RawAsk.operate kind realm name owner instanceId lease).session b.system.service t).run
        client s context).context =
        context.reset.bind ((RawAsk.operate kind realm name owner instanceId lease).bound
          b.system.service.name ms true a) := by
  obtain ⟨⟨realm, rfl⟩, ⟨name, rfl⟩, ⟨instanceId, rfl⟩, hlease⟩ := RawAsk.arguments_of_completed h
  obtain ⟨d, hd⟩ : ∃ d : Term, kind = .release ∨ lease = .int d := by
    rcases hlease with hk | ⟨d, hd⟩
    · exact ⟨⟨1, by decide⟩, .inl hk⟩
    · exact ⟨d, .inr hd⟩
  have hsession : (RawAsk.operate kind (.text realm) (.text name) owner
    (.text instanceId) lease).session b.system.service t =
      .amend (bindRequest kind.action realm name (some (ownerOf owner)) (some instanceId.1)
          (if kind = .release then none else some d.1))
        ((ofReading t.now).bind
          (concluding b.system.service t kind (rawClaim realm name owner instanceId) d)) := by
    -- a release passes over the lease
    rcases hd with rfl | rfl
    · exact session_leased b.system.service t realm name owner instanceId .release d
    · exact session_leased b.system.service t realm name owner instanceId kind d
  rw [hsession, run] at h ⊢
  cases hnow : t.now with
  | error e => rw [hnow] at h; cases h
  | ok now =>
  rw [hnow] at h
  obtain ⟨f, hf, hcontext⟩ := (writes_concluding b (P := b.system.Genuine) (fun _ _ hr => hr) t kind
    (rawClaim realm name owner instanceId) d now).run hclient s _
  obtain ⟨ms, o, he, ho, hexpiry, rfl⟩ := hf a h
  refine ⟨ms, o, he, ho, hexpiry, hcontext.trans ?_⟩
  dsimp only
  rw [bindRequest, Context.record_eq_bind, Context.bind_bind, Context.bind_bind]
  have hlease : (if kind = .release then none else some d.1) = if kind =
    .release then none else lease.toInt.toOption := by
    rcases hd with rfl | rfl <;> rfl
  simp only [RawAsk.bound_operate, ho, hlease]
  rfl

end Manager

open Manager

/-- What the log context shows of locks after a request is what this request has bound, whatever it
showed before, and all other fields are as they were. -/
theorem context_own (b : Backend) {σ : Type} {client : Client b.system.I σ}
    (hclient : ∀ c s, b.system.Genuine c (client c s).1) (t : Timing) (p : RawAsk) (s : σ)
    (context : Context) {a : Answer}
    (h : ((p.session b.system.service t).run client s context).result = .ok a) :
    let after := ((p.session b.system.service t).run client s context).context
    (∀ key, key ∉ Context.lockKeys → Assoc.find? after key = Assoc.find? context key) ∧
    ∃ ms found, t.elapsed = .ok ms ∧
      after = context.reset ++ Context.own (p.bound b.system.service.name ms found a) ∧
      match p with
      | .get realm name =>
        (∃ stored, ((b.system.service.getLock realm.text? name.text?).run client s context).result =
          .ok stored ∧
          found = stored.isSome) ∧
        Assoc.find? after "lock_result" = some (.text (if found then "success" else "not_found")) ∧
        ∀ key ∈ ["auth_subject", "instance_id_hash", "requested_lease_duration_sec",
          "lock_service_outcome", "computed_expiry_epoch_sec"], Assoc.find? after key = none
      | .operate kind .. =>
        (∃ o, a.outcome = some o ∧ Assoc.find? after "lock_service_outcome" = some (.text o.code)) ∧
        Assoc.find? after "lock_result" =
          some (.text (if a.success = some true then "success" else "conflict")) ∧
        if kind ≠ .release ∧ a.success = some true then
          ∃ expiry, a.lock.expiry = some expiry ∧ Assoc.find? after "computed_expiry_epoch_sec" =
            some (.int expiry)
        else Assoc.find? after "computed_expiry_epoch_sec" = none := by
  intro after
  cases p with
  | get realm name =>
    obtain ⟨⟨realm, rfl⟩, name, rfl⟩ := RawAsk.names_of_completed h
    obtain ⟨ms, stored, he, hstored, hafter⟩ := run_get b h
    have hafter : after = _ := hafter.trans (RawAsk.bind_bound ..)
    refine ⟨fun key hkey => by rw [hafter, RawAsk.find?_bound, if_neg hkey], ms, stored.isSome, he,
      hafter, ⟨stored, ?_, rfl⟩, ?_, ?_⟩
    · rw [← hstored]
      exact congrArg (fun session : Session b.system.I (Option Lock) =>
        (session.run client s context).result)
        (b.system.service.getLock_eq (ne_empty_of_isIdentifier realm.2)
          (ne_empty_of_isIdentifier name.2))
    · rw [hafter, RawAsk.find?_bound, if_pos (by decide)]
      rfl
    · intro key hkey
      rw [hafter, RawAsk.find?_bound]
      simp only [List.mem_cons, List.not_mem_nil, or_false] at hkey
      rcases hkey with rfl | rfl | rfl | rfl | rfl <;> rfl
  | operate kind realm name owner instanceId lease =>
    obtain ⟨ms, o, he, ho, hexpiry, hafter⟩ := run_operate b hclient h
    have hafter : after = _ := hafter.trans (RawAsk.bind_bound ..)
    refine ⟨fun key hkey => by rw [hafter, RawAsk.find?_bound, if_neg hkey], ms, true, he, hafter,
      ⟨o, ho, ?_⟩, ?_, ?_⟩
    · rw [hafter, RawAsk.find?_bound, if_pos (by decide), RawAsk.bound, ho]
      rfl
    · rw [hafter, RawAsk.find?_bound, if_pos (by decide)]
      rfl
    · have hkey : "computed_expiry_epoch_sec" ∈ Context.lockKeys := by decide
      by_cases hgranted : kind ≠ .release ∧ a.success = some true
      · obtain ⟨expiry, hexpiry⟩ := hexpiry hgranted
        rw [if_pos hgranted]
        refine ⟨expiry, hexpiry, ?_⟩
        rw [hafter, RawAsk.find?_bound, if_pos hkey, RawAsk.bound, if_pos hgranted, hexpiry]
        rfl
      · rw [if_neg hgranted, hafter, RawAsk.find?_bound, if_pos hkey, RawAsk.bound, if_neg hgranted]
        rfl

/-- A refusal after a grant: the expiry of the grant goes, and what is not about locks stays. -/
theorem context_own_refused :
    let b : Backend := .items {}
    let run (owner : String) (s : b.system.Store) (context : Context) :=
      ((RawAsk.operate .acquire (.text "jobs") (.text "nightly") (.text owner) (.text "one")
        (.int 10)).session
        b.system.service (still 5)).run b.system.client s context
    let first := run "ada" b.system.empty [("request_id", .text "r1")]
    let second := run "bob" first.store first.context
    Assoc.find? first.context "computed_expiry_epoch_sec" = some (.int 15) ∧
      Assoc.find? second.context "computed_expiry_epoch_sec" = none ∧
      Assoc.find? second.context "request_id" = some (.text "r1") := by
  intro b run first second
  have hclient : ∀ c s, b.system.Genuine c (b.system.client c s).1 :=
    fun c s => .inr ⟨b.system.client, .inl rfl, s, rfl⟩
  have hfirst : first.result =
    .ok (.ofOutcome ((Claim.mk "jobs" "nightly" "ada" "one").lock (some 10) (some 15))
      .acquired) := by
    decide +kernel
  have hsecond : second.result =
    .ok (.ofOutcome { realm := "jobs", name := "nightly" } .acquireConflict) := by
    decide +kernel
  have hshown :=
    context_own b hclient (still 5)
      (.operate .acquire (.text "jobs") (.text "nightly") (.text "ada")
    (.text "one") (.int 10)) b.system.empty [("request_id", .text "r1")] hfirst
  have hhidden :=
    context_own b hclient (still 5)
      (.operate .acquire (.text "jobs") (.text "nightly") (.text "bob")
    (.text "one") (.int 10)) first.store first.context hsecond
  obtain ⟨hkept, -, -, -, -, -, -, hexpiry⟩ := hshown
  obtain ⟨hlater, -, -, -, -, -, -, hhidden⟩ := hhidden
  rw [if_pos (by decide)] at hexpiry
  rw [if_neg (by decide)] at hhidden
  obtain ⟨expiry, he, hexpiry⟩ := hexpiry
  obtain rfl := Option.some.inj he
  refine ⟨hexpiry, hhidden, ?_⟩
  exact (hlater "request_id" (by decide)).trans (hkept "request_id" (by decide))

end Leasehold
