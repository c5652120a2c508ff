import Leasehold.Proofs.Execution
import Leasehold.Proofs.Service.KeyValue

/-!
# A key-value store in trouble

What an operation does on any store, whatever its entries look like, when any call may fail and any
commit may be lost. An attempt grants a lease, commits and revokes; the lease is new (`Fresh`), so
that revoking it takes no entry along, and before the commit goes through no call changes an entry
(`EntriesKept`). Whatever goes wrong ends the operation in its failure.
-/

namespace Leasehold.KeyValue
open Session

/-! ### Steps -/

/-- Every lease that an entry hangs on has been granted. -/
def Fresh (s : Store) : Prop := ∀ e ∈ s.entries, ∀ n, e.2.lease = some n → n ≤ s.granted

/-- The call failed, or it read what is no record. -/
def Broke (step : Step interface) : Prop :=
  (∃ f, step.2 = .error f) ∨
    ∃ key text revision f, step = ⟨.get key, .ok (some (text, revision))⟩ ∧
    ofRecordText text = .error f

/-- No step went wrong. -/
def Unbroken (steps : List (Step interface)) : Prop := ∀ step ∈ steps, ¬ Broke step

theorem Unbroken.concat {steps : List (Step interface)} {step : Step interface} (h : Unbroken steps)
    (hs : ¬ Broke step) :
    Unbroken (steps ++ [step]) := by
  intro step' hm
  rcases List.mem_append.mp hm with hm | hm
  · exact h step' hm
  · rwa [List.mem_singleton.mp hm]

/-- The entries are the given ones, and their leases are granted. -/
structure Intact (entries : Assoc String Entry) (s : Store) : Prop where
  entries : s.entries = entries
  fresh : Fresh s

theorem Intact.grant {entries : Assoc String Entry} {s : Store} (h : Intact entries s) (ttl : Int) :
    Intact entries (s.grant ttl).2 ∧ Owns (some (s.grant ttl).1) (s.grant ttl).2 := by
  refine ⟨⟨h.entries, fun e he n hn => Nat.le_succ_of_le (h.fresh e he n hn)⟩, ?_⟩
  rintro n ⟨rfl⟩
  exact ⟨Nat.le_refl _, fun e he hn => Nat.not_succ_le_self _ (h.fresh e he _ hn)⟩

theorem Intact.revoke {entries : Assoc String Entry} {s : Store} {n : Nat} (h : Intact entries s)
    (ho : Owns (some n) s) :
    Intact entries (s.revoke n) := by
  have he := entries_revoke ho
  refine ⟨he.trans h.entries, fun e hm => ?_⟩
  rw [he] at hm
  exact h.fresh e hm

/-- The clients of which every call may be lost or fail. -/
abbrev unreliable (P : Fault → Prop) : Set (Client interface Store) :=
  troubled {cl | cl = client ∨ cl ∈ ({losing} : Set (Client interface Store))} P

/-- A call is served, fails without effect, or is a commit that is lost. -/
theorem ensures_ask_unreliable {P : Fault → Prop} {call : Call}
    {Q : Except Error (interface.Reply call) → Store × List (Step interface) → Prop}
    {p : Store × List (Step interface)}
    (hserved : Q ((client call p.1).1.mapError .fault)
      ((client call p.1).2, p.2 ++ [⟨call, (client call p.1).1⟩])) (hfails :
      ∀ f, Q (.error (.fault f)) (p.1, p.2 ++ [⟨call, .error f⟩]))
    (hlost : Q ((losing call p.1).1.mapError .fault)
      ((losing call p.1).2, p.2 ++ [⟨call, (losing call p.1).1⟩])) :
    Ensures (recorded '' unreliable P) Q (ask (I := interface) call) p := by
  rw [ensures_ask]
  rintro _ ⟨cl, hcl, rfl⟩
  rcases hcl with (rfl | rfl) | ⟨f, -, rfl⟩
  · exact hserved
  · exact hlost
  · exact hfails f

/-! ### Sessions that keep the entries -/

section EntriesKept
variable {α β : Type} {entries : Assoc String Entry} {P : Fault → Prop} {won : α → Prop}

/-- Entries change only together with a result that won; a result that is no error went without
trouble. -/
structure EntriesKept (entries : Assoc String Entry) (won : α → Prop) (r : Except Error α)
    (p : Store × List (Step interface)) : Prop where
  intact : (∀ a, r = .ok a → ¬ won a) → Intact entries p.1
  unbroken : ∀ a, r = .ok a → Unbroken p.2

/-- However unreliable the calls are, the session keeps the entries. -/
def KeepsEntries (P : Fault → Prop) (entries : Assoc String Entry) (won : α → Prop)
    (session : Session interface α) : Prop :=
  ∀ p : Store × List (Step interface), Intact entries p.1 → Unbroken p.2 →
    Ensures (recorded '' unreliable P) (EntriesKept entries won) session p

theorem keepsEntries_done (a : α) : KeepsEntries P entries won (done a) :=
  fun _ hi hu => ensures_done.mpr ⟨fun _ => hi, fun _ _ => hu⟩

theorem KeepsEntries.bind {session : Session interface α} {k : α → Session interface β}
    {won' : β → Prop} (h : KeepsEntries P entries (fun _ => False) session)
    (hk : ∀ a, KeepsEntries P entries won' (k a)) :
    KeepsEntries P entries won' (session.bind k) := by
  intro p hi hu
  rw [ensures_bind]
  refine (h p hi hu).mono fun r p' hr => ?_
  cases r with
  | ok a => exact hk a p' (hr.intact fun _ _ => id) (hr.unbroken a rfl)
  | error e => exact ⟨fun _ => hr.intact (by rintro _ ⟨⟩), by rintro _ ⟨⟩⟩

theorem not_broke_ok {call : Call} {reply : Reply call} (h : ∀ key, call ≠ .get key) :
    ¬ Broke ⟨call, .ok reply⟩ := by
  rintro (⟨f, ⟨⟩⟩ | ⟨key, _, _, _, hstep, -⟩)
  exact h key (congrArg Sigma.fst hstep)

theorem keepsEntries_read (key : String) : KeepsEntries P entries (fun _ => False) (read key) := by
  intro p hi hu
  have hget : Ensures (recorded '' unreliable P) (fun r p' => p'.1 = p.1 ∧ ∀ found, r = .ok found →
      p'.2 = p.2 ++ [⟨.get key, .ok found⟩]) (ask (I := interface) (.get key)) p := by
    refine ensures_ask_unreliable ?_ (fun f => ⟨rfl, by rintro _ ⟨⟩⟩) ?_
    all_goals exact ⟨rfl, by rintro _ ⟨rfl⟩; rfl⟩
  rw [read, bind_eq, ensures_bind]
  refine hget.mono fun r p' hr => ?_
  obtain ⟨hs, hsteps⟩ := hr
  have hi' : Intact entries p'.1 := hs ▸ hi
  cases r with
  | error e => exact ⟨fun _ => hi', by rintro _ ⟨⟩⟩
  | ok found =>
    have hsteps := hsteps found rfl
    -- the reading went well unless the text is no record, and then the session fails
    have hu' (hb : ¬ Broke ⟨.get key, .ok found⟩) : Unbroken p'.2 := hsteps ▸ hu.concat hb
    cases found with
    | none =>
      refine keepsEntries_done (none, 0) p' hi' (hu' ?_)
      rintro (⟨f, ⟨⟩⟩ | ⟨_, _, _, _, hstep, -⟩)
      cases hstep
    | some found =>
      obtain ⟨text, revision⟩ := found
      show Ensures _ _ ((ofReading (ofRecordText text)).bind fun l => done (some l, revision)) p'
      cases ht : ofRecordText text with
      | error f => exact ensures_fail.mpr ⟨fun _ => hi', by rintro _ ⟨⟩⟩
      | ok l =>
        refine keepsEntries_done (some l, revision) p' hi' (hu' ?_)
        rintro (⟨f, ⟨⟩⟩ | ⟨_, _, _, f, hstep, hf⟩)
        cases hstep
        rw [ht] at hf
        cases hf

/-- A commit that is not answered with success has changed nothing. -/
theorem ensures_commit {compares : List Compare} {change : Change}
    {p : Store × List (Step interface)} (hu : Unbroken p.2) :
    Ensures (recorded '' unreliable P)
      (fun r p' => (r ≠ .ok true → p'.1 = p.1) ∧ ∀ committed, r = .ok committed → Unbroken p'.2)
      (commit compares [change] []) p := by
  have hok (committed : Bool) : ¬ Broke ⟨.commit compares [change] [], .ok committed⟩ :=
    not_broke_ok nofun
  show Ensures _ _ (ask (I := interface) (.commit compares [change] [])) p
  refine ensures_ask_unreliable ⟨fun hne => ?_, fun _ _ => hu.concat (hok _)⟩
    (fun f => ⟨fun _ => rfl, by rintro _ ⟨⟩⟩)
    ⟨fun _ => rfl, fun _ _ => hu.concat (hok _)⟩
  cases hh : compares.all p.1.holds with
  | true => exact absurd (congrArg Except.ok hh) hne
  | false => simp only [client, hh]; rfl

theorem ensures_grant {ttl : Int} {p : Store × List (Step interface)} (hi : Intact entries p.1)
    (hu : Unbroken p.2) :
    Ensures (recorded '' unreliable P)
      (fun (r : Except Error Nat) p' =>
        Intact entries p'.1 ∧ ∀ n, r = .ok n → Owns (some n) p'.1 ∧ Unbroken p'.2)
      (grant ttl) p := by
  have hserved := hi.grant ttl
  have hu' : Unbroken (p.2 ++ [⟨.grant ttl, .ok (p.1.grant ttl).1⟩]) :=
    hu.concat (not_broke_ok nofun)
  refine @ensures_ask_unreliable P (.grant ttl)
    (fun (r : Except Error Nat) p' =>
      Intact entries p'.1 ∧ ∀ n, r = .ok n → Owns (some n) p'.1 ∧ Unbroken p'.2) p
    ⟨hserved.1, ?_⟩ (fun f => ⟨hi, by rintro _ ⟨⟩⟩) ⟨hserved.1, ?_⟩
  all_goals rintro _ ⟨rfl⟩; exact ⟨hserved.2, hu'⟩

/-- Revoking a lease that no entry hangs on. -/
theorem ensures_revoke {n : Nat} {p : Store × List (Step interface)} (hi : Intact entries p.1)
    (ho : Owns (some n) p.1) (hu : Unbroken p.2) :
    Ensures (recorded '' unreliable P) (EntriesKept entries fun _ => False) (revoke n) p := by
  have hserved := hi.revoke ho
  have hu' : Unbroken (p.2 ++ [⟨.revoke n, .ok ()⟩]) := hu.concat (not_broke_ok nofun)
  exact @ensures_ask_unreliable P (.revoke n) (EntriesKept entries fun _ => False) p
    ⟨fun _ => hserved, fun _ _ => hu'⟩
    (fun f => ⟨fun _ => hi, by rintro _ ⟨⟩⟩) ⟨fun _ => hserved, fun _ _ => hu'⟩

theorem keepsEntries_put (key : String) (revision : Nat) (l : Lock) (now : Int) :
    KeepsEntries P entries (· = true) (putIfUnchanged key revision l now) := by
  intro p hi hu
  rw [putIfUnchanged, bind_eq, ensures_bind]
  refine (ensures_grant hi hu).mono fun r p' hr => ?_
  cases r with
  | error e => exact ⟨fun _ => hr.1, by rintro _ ⟨⟩⟩
  | ok lease =>
    obtain ⟨ho, hu'⟩ := hr.2 lease rfl
    cases ht : recordText l with
    | error f => exact ensures_fail.mpr ⟨fun _ => hr.1, by rintro _ ⟨⟩⟩
    | ok text =>
      simp only [ofReading, bind_eq, Session.bind, ensures_bind]
      refine (ensures_commit hu').mono fun r p'' hc => ?_
      cases r with
      | error e => exact ⟨fun _ => hc.1 (by rintro ⟨⟩) ▸ hr.1, by rintro _ ⟨⟩⟩
      | ok committed =>
        cases committed with
        | true =>
          exact ensures_done.mpr ⟨fun hw => absurd rfl (hw true rfl), fun _ _ => hc.2 true rfl⟩
        | false =>
          -- the lost commit gives its lease back
          have hs := hc.1 (by rintro ⟨⟩)
          have hrevoke := @ensures_revoke entries P lease p'' (hs ▸ hr.1) (hs ▸ ho) (hc.2 false rfl)
          show Ensures _ _ ((revoke lease).bind fun _ => done false) p''
          rw [ensures_bind]
          refine hrevoke.mono fun r p''' hr => ?_
          cases r with
          | error e => exact ⟨fun _ => hr.intact (by rintro _ ⟨⟩), by rintro _ ⟨⟩⟩
          | ok _ =>
            exact ensures_done.mpr ⟨fun _ => hr.intact fun _ _ => id, fun _ _ => hr.unbroken () rfl⟩

theorem keepsEntries_delete (key : String) (revision : Nat) :
    KeepsEntries P entries (· = true) (deleteIfUnchanged key revision) := by
  intro p hi hu
  refine (ensures_commit hu).mono fun r p' hr => ⟨fun hw => ?_, hr.2⟩
  rw [hr.1 fun he => hw true he rfl]
  exact hi

theorem KeepsEntries.map {session : Session interface α} {f : α → β} {won' : β → Prop}
    (h : KeepsEntries P entries won session) (hf : ∀ a, won a → won' (f a)) :
    KeepsEntries P entries won' (session.bind fun a => done (f a)) := by
  intro p hi hu
  rw [ensures_map]
  refine (h p hi hu).mono fun r p' hr => ?_
  cases r with
  | ok a =>
    refine ⟨fun hn => hr.intact ?_, fun _ _ => hr.unbroken a rfl⟩
    rintro _ ⟨rfl⟩ hw
    exact hn _ rfl (hf a hw)
  | error e => exact ⟨fun _ => hr.intact (by rintro _ ⟨⟩), by rintro _ ⟨⟩⟩

theorem keepsEntries_retry {operation : Action} {total : Nat}
    {attempt : Session interface (Option α)} {won : Option α → Prop} (hnone : ¬ won none)
    (h : KeepsEntries P entries won attempt) (left : Nat) :
    KeepsEntries P entries won (retry operation total attempt left) := by
  induction left with
  | zero => exact keepsEntries_done none
  | succ left ih =>
    intro p hi hu
    rw [retry, ensures_bind]
    refine (h p hi hu).mono fun r p' hr => ?_
    cases r with
    | error e => exact ⟨fun _ => hr.intact (by rintro _ ⟨⟩), by rintro _ ⟨⟩⟩
    | ok a =>
      have hu' := hr.unbroken a rfl
      -- an attempt that lost its commit leaves the entries as they were for the next one
      cases a with
      | some a => exact ensures_done.mpr ⟨hr.intact, fun _ _ => hu'⟩
      | none => exact ensures_note.mpr (ih p' (hr.intact (by rintro _ ⟨rfl⟩; exact hnone)) hu')

end EntriesKept

/-! ### Operations -/

section Operation
variable {options : Options} {op : Operation} {c : Claim} {s : Store} {P : Fault → Prop}

/-- One attempt of an operation, as the rules want it. -/
def tries (options : Options) (op : Operation) (c : Claim) : Session interface (Option Verdict) :=
  (read (keyOf options c.realm c.name)).bind fun (existing, revision) =>
    match op.effect existing with
    | .keep => done (some (op.decide existing))
    | .put l =>
      (putIfUnchanged (keyOf options c.realm c.name) revision l op.now).bind fun committed =>
      done (if committed then some (op.decide existing) else none)
    | .delete => (deleteIfUnchanged (keyOf options c.realm c.name) revision).bind fun committed =>
      done (if committed then some (op.decide existing) else none)

theorem retry_map {α β : Type} (f : α → β) (operation : Action) (total : Nat)
    (attempt : Session interface (Option α)) (left : Nat) :
    (retry operation total attempt left).bind (fun o => done (o.map f)) =
      retry operation total (attempt.bind fun o => done (o.map f)) left := by
  induction left with
  | zero => rfl
  | succ left ih =>
    simp only [retry, Session.bind_assoc]
    refine congrArg (Session.bind _) (funext fun o => ?_)
    cases o with
    | some a => rfl
    | none => exact congrArg (note _) ih

theorem operate_map {α β : Type} (f : α → β) {c : RawClaim} (operation : Action) (event : String)
    (exhausted failed : α) (attempt : Session interface (Option α)) :
    (operate options operation event c exhausted failed attempt).bind (fun a => done (f a)) =
      operate options operation event c (f exhausted) (f failed)
        (attempt.bind fun o => done (o.map f)) := by
  rw [operate, Service.guarded_map]
  refine congrArg (Service.guarded _ _ _ _ _) ?_
  simp only [bind_eq, ← retry_map, Session.bind_assoc]
  refine congrArg (Session.bind _) (funext fun o => ?_)
  cases o <;> rfl

variable (options) in
theorem attempt_eq (h : op.check = .ok c) : op.attempt (service options) c =
    operate options op.kind.action op.kind.event c (op.kind.exhausted, none) (op.kind.failed, none)
      (tries options op c) := by
  cases hk : op.kind with
  | acquire =>
    simp only [Operation.attempt, hk, service, acquire, operate_map, Claim.lock_raw,
      Claim.raw_realm, Claim.raw_name, Value.plain, Operation.acquire_request h hk]
    refine congrArg (operate _ _ _ _ _ _) ?_
    simp only [tryAcquire, bind_eq, Session.bind_assoc, Operation.acquire_decision hk]
    refine congrArg (Session.bind _) (funext fun p => ?_)
    obtain ⟨existing, revision⟩ := p
    have hv :=
      congrArg (fun v => done (I := interface) (some v))
        (@Operation.decide_snd op (by rw [hk]; decide) existing)
    dsimp only
    by_cases ho : (op.decide existing).1.isSuccess = true
    · simp only [if_pos ho, Operation.effect_acquired hk ho, Session.bind_assoc]
      refine congrArg (Session.bind _) (funext fun committed => ?_)
      cases committed with
      | true => exact hv
      | false => rfl
    · simp only [if_neg ho, Operation.effect_not_acquired hk ho]
      exact hv
  | renew =>
    simp only [Operation.attempt, hk, service, renew]
    refine congrArg (operate _ _ _ _ _ _) ?_
    simp only [tryRenew, bind_eq, Claim.lock_raw, Claim.raw_realm, Claim.raw_name, Value.plain,
      Operation.renew_request h hk]
    refine congrArg (Session.bind _) (funext fun p => ?_)
    obtain ⟨existing, revision⟩ := p
    dsimp only
    cases ho : op.decide existing with
    | mk o renewed =>
      cases renewed with
      | none => simp only [Operation.effect_not_renewed hk ho]; rfl
      | some l => simp only [Operation.effect_renewed hk ho]; rfl
  | release =>
    simp only [Operation.attempt, hk, service, release, operate_map]
    refine congrArg (operate _ _ _ _ _ _) ?_
    simp only [tryRelease, bind_eq, Session.bind_assoc, Claim.lock_raw, Claim.raw_realm,
      Claim.raw_name, Value.plain, Operation.release_request h hk]
    refine congrArg (Session.bind _) (funext fun p => ?_)
    obtain ⟨existing, revision⟩ := p
    have hv :=
      congrArg (fun v => done (I := interface) (some v))
        (@Operation.decide_snd op (by rw [hk]; decide) existing)
    dsimp only
    by_cases ho : (op.decide existing).1 = .released
    · simp only [if_pos ho, Operation.effect_released hk ho, Session.bind_assoc]
      refine congrArg (Session.bind _) (funext fun committed => ?_)
      cases committed with
      | true => exact hv
      | false => rfl
    · simp only [if_neg ho, Operation.effect_not_released hk ho]
      exact hv

theorem keepsEntries_tries (entries : Assoc String Entry) :
    KeepsEntries P entries (fun o => ∃ v, o = some v ∧ v.1.isSuccess = true)
      (tries options op c) := by
  refine (keepsEntries_read _).bind fun p => ?_
  obtain ⟨existing, revision⟩ := p
  have hsuccess (hne : op.effect existing ≠ .keep) : (op.decide existing).1.isSuccess = true := by
    cases hs : (op.decide existing).1.isSuccess with
    | true => rfl
    | false => exact absurd (Operation.effect_of_failure hs) hne
  dsimp only
  obtain ⟨e, he⟩ : ∃ e, op.effect existing = e := ⟨_, rfl⟩
  rw [he]
  cases e with
  | keep => exact keepsEntries_done _
  | put l =>
    exact (keepsEntries_put _ _ _ _).map fun committed hc =>
      ⟨_, if_pos hc, hsuccess (by rw [he]; nofun)⟩
  | delete =>
    exact (keepsEntries_delete _ _).map fun committed hc =>
      ⟨_, if_pos hc, hsuccess (by rw [he]; nofun)⟩

/-- An operation is always answered. It has changed no entry unless it succeeded, and has failed if
any step went wrong. -/
theorem ensures_attempt (h : op.check = .ok c) (hs : Fresh s) :
    Ensures (recorded '' unreliable P)
      (fun r p => ∃ v, r = .ok v ∧ (v.1.isSuccess = false → p.1.entries = s.entries) ∧
      (¬ Unbroken p.2 → v = (op.kind.failed, none))) (op.attempt (service options) c) (s, []) := by
  have hkeeps : KeepsEntries P s.entries _
      (retry op.kind.action (options.retries + 1) (tries options op c) (options.retries + 1)) :=
    keepsEntries_retry (by rintro ⟨v, ⟨⟩, -⟩) (keepsEntries_tries s.entries) _
  have hretry := hkeeps (s, []) ⟨rfl, hs⟩ (List.forall_mem_nil _)
  rw [attempt_eq options h, operate, Service.ensures_guarded, bind_eq, ensures_bind]
  refine hretry.mono fun r p hr => ?_
  cases r with
  | error e =>
    exact ⟨_, rfl, fun _ => (hr.intact (by rintro _ ⟨⟩)).entries, fun _ => rfl⟩
  | ok o =>
    have hu := hr.unbroken o rfl
    cases o with
    | none =>
      refine ensures_note.mpr
        (ensures_done.mpr ⟨_, rfl, fun _ => (hr.intact ?_).entries, fun hn => absurd hu hn⟩)
      rintro _ ⟨rfl⟩ ⟨v, ⟨⟩, -⟩
    | some v =>
      refine ensures_done.mpr ⟨v, rfl, fun hv => (hr.intact ?_).entries, fun hn => absurd hu hn⟩
      rintro _ ⟨rfl⟩ ⟨_, ⟨rfl⟩, hw⟩
      rw [hv] at hw
      cases hw

theorem ensures_find_answered {σ : Type} {clients : Set (Client interface σ)} {s : σ}
    (realm name : String) :
    Ensures clients (fun r _ => ∃ l, r = .ok l) (find options realm name) s :=
  Service.ensures_guarded_all

theorem ensures_answered {σ : Type} {clients : Set (Client interface σ)} {s : σ}
    (h : op.check = .ok c) :
    Ensures clients (fun r _ => ∃ v, r = .ok v) (op.attempt (service options) c) s := by
  rw [attempt_eq options h]
  exact Service.ensures_guarded_all

end Operation

/-! ### What goes through -/

section Through
variable {options : Options} {op : Operation} {c : Claim} {s : Store} {P : Fault → Prop}
    {key : String}

theorem ensures_seq {α β : Type} {Q : Except Error β → Store → Prop}
    {clients : Set (Client interface Store)} {session : Session interface α}
    {k : α → Session interface β} (hk : ∀ a t, Ensures clients Q (k a) t)
    (hfail : ∀ e t, Q (.error e) t) : Ensures clients Q (session.bind k) s := by
  rw [ensures_bind]
  intro r t _
  cases r with
  | ok a => exact hk a t
  | error e => exact hfail e t

theorem ensures_commit_rough {compares : List Compare} {change : Change} :
    Ensures (unreliable P) (fun r s' => r = .ok true → s' = s.apply change)
      (commit compares [change] []) s := by
  have hserved : (client (.commit compares [change] []) s).1.mapError Error.fault = .ok true →
      (client (.commit compares [change] []) s).2 = s.apply change := by
    intro hr
    have hall : compares.all s.holds = true := Except.ok.inj hr
    simp only [client, hall, if_true]
    rfl
  refine (ensures_ask (I := interface) (c := .commit compares [change] [])).mpr
    (forall_troubled.mpr ⟨?_, ?_⟩)
  case refine_2 => rintro f - ⟨⟩
  rintro _ (rfl | rfl)
  · exact hserved
  · rintro ⟨⟩

theorem ensures_grant_rough (ttl : Int) :
    Ensures (unreliable P) (fun r s' => ∀ lease, r = .ok lease → s'.leases.find? lease = some ttl)
      (grant ttl) s := by
  have hserved : ∀ lease, (client (.grant ttl) s).1.mapError Error.fault = .ok lease →
      (client (.grant ttl) s).2.leases.find? lease = some ttl := by
    rintro _ ⟨rfl⟩
    exact Assoc.find?_put_self ..
  refine (ensures_ask (I := interface) (c := .grant ttl)).mpr
    (forall_troubled.mpr ⟨?_, fun f _ => ?_⟩)
  case refine_2 => rintro lease ⟨⟩
  rintro _ (rfl | rfl)
  · exact hserved
  · exact hserved

/-- The last change has put the text of the record under the key, on a running lease. -/
def Laid (key : String) (l : Lock) (now : Int) (s : Store) : Prop :=
  ∃ (text : String) (lease : Nat) (before : Store), recordText l = .ok text ∧
    before.leases.find? lease = some (timeToLive l now) ∧
    s = before.apply (.put key text (some lease))

theorem ensures_put_rough (revision : Nat) (l : Lock) (now : Int) :
    Ensures (unreliable P) (fun r s' => r = .ok true → Laid key l now s')
      (putIfUnchanged key revision l now) s := by
  rw [putIfUnchanged, bind_eq, ensures_bind]
  refine (ensures_grant_rough _).mono fun r t hr => ?_
  cases r with
  | error e => rintro ⟨⟩
  | ok lease =>
    have hlease := hr lease rfl
    cases ht : recordText l with
    | error f => exact ensures_fail.mpr (by rintro ⟨⟩)
    | ok text =>
      simp only [ofReading, bind_eq, Session.bind, ensures_bind]
      refine ensures_commit_rough.mono fun r t' hr => ?_
      cases r with
      | error e => rintro ⟨⟩
      | ok committed =>
        cases committed with
        | true => exact ensures_done.mpr fun _ => ⟨text, lease, t, ht, hlease, hr rfl⟩
        | false => exact ensures_seq (fun _ _ => ensures_done.mpr (by rintro ⟨⟩)) (by rintro _ _ ⟨⟩)

/-- An attempt that went through was decided by the rules, and what they put has been laid under the
key. -/
def Through (options : Options) (op : Operation) (c : Claim) (v : Verdict) (s : Store) : Prop :=
  ∃ existing, v = op.decide existing ∧ ∀ l, op.effect existing = .put l →
    Laid (keyOf options c.realm c.name) l op.now s

theorem ensures_through :
    Ensures (unreliable P) (fun r s' => ∀ v, r = .ok (some v) → Through options op c v s')
      (tries options op c) s := by
  rw [tries]
  refine ensures_seq (fun p t => ?_) (by rintro _ _ _ ⟨⟩)
  obtain ⟨existing, revision⟩ := p
  dsimp only
  obtain ⟨e, he⟩ : ∃ e, op.effect existing = e := ⟨_, rfl⟩
  rw [he]
  cases e with
  | keep =>
    refine ensures_done.mpr ?_
    rintro _ ⟨rfl⟩
    exact ⟨existing, rfl, by rw [he]; rintro _ ⟨⟩⟩
  | delete =>
    refine ensures_seq (fun committed t => ensures_done.mpr ?_) (by rintro _ _ _ ⟨⟩)
    intro v hv
    cases committed <;> cases hv
    exact ⟨existing, rfl, by rw [he]; rintro _ ⟨⟩⟩
  | put l =>
    rw [ensures_bind]
    refine (ensures_put_rough revision l op.now).mono fun r t' hr => ?_
    cases r with
    | error e => rintro _ ⟨⟩
    | ok committed =>
      refine ensures_done.mpr fun v hv => ?_
      cases committed <;> cases hv
      refine ⟨existing, rfl, ?_⟩
      rw [he]
      rintro _ ⟨rfl⟩
      exact hr rfl

theorem ensures_through_retry (operation : Action) (total left : Nat) :
    Ensures (unreliable P) (fun r s' => ∀ v, r = .ok (some v) → Through options op c v s')
      (retry operation total (tries options op c) left) s := by
  induction left generalizing s with
  | zero => exact ensures_done.mpr (by rintro _ ⟨⟩)
  | succ left ih =>
    rw [retry, ensures_bind]
    refine ensures_through.mono fun r t hr => ?_
    cases r with
    | error e => rintro _ ⟨⟩
    | ok o =>
      cases o with
      | some v => exact ensures_done.mpr hr
      | none => exact ensures_note.mpr ih

theorem ensures_through_attempt (h : op.check = .ok c) :
    Ensures (unreliable P) (fun r s' => ∀ v, r = .ok v → v.1.isSuccess = true →
      Through options op c v s')
      (op.attempt (service options) c) s := by
  rw [attempt_eq options h, operate, Service.ensures_guarded, bind_eq, ensures_bind]
  refine (ensures_through_retry _ _ _).mono fun r t hr => ?_
  have hfailed (o : Outcome) (ho : o.isSuccess = false) (v : Verdict)
    (hv : Except.ok (ε := Error) (o, none) = .ok v)
      (hs : v.1.isSuccess = true) : Through options op c v t := by
    cases hv
    rw [ho] at hs
    cases hs
  cases r with
  | error e => exact hfailed _ (by cases op.kind <;> rfl)
  | ok o =>
    cases o with
    | none => exact ensures_note.mpr (ensures_done.mpr (hfailed _ (by cases op.kind <;> rfl)))
    | some v => exact ensures_done.mpr fun v' hv' _ => hr v' (by cases hv'; rfl)

end Through

/-! ### Records of claims -/

/-- The text of a record. When a number of it has too many digits it cannot be read. -/
def Holds (text : String) (l : Lock) : Prop :=
  ofRecordText text = .ok l ∨ text = Json.render (.map l.toFields)

theorem Holds.reads {text : String} {l : Lock} (hl : l.IsRecord) (h : Holds text l) :
    ofRecordText text = .ok l ∨ ∃ f, ofRecordText text = .error f := by
  rcases h with h | rfl
  · exact .inl h
  · cases hlong : l.lease.any Number.isTooLong || l.expiry.any Number.isTooLong with
    | true => exact .inr ⟨_, ofRecordText_of_long hl hlong⟩
    | false => exact .inl (ofRecordText_of_short hl hlong)

section Held
variable {options : Options} {op : Operation} {c : Claim} {s : Store} {e : Entry} {l : Lock}
    {key : String}

theorem ensures_read {α : Type} {Q : Except Error α → Store → Prop}
    {k : Option Lock × Nat → Session interface α} (hf : s.entries.find? key = some e) :
    Ensures {client} Q ((read key).bind k) s ↔
      match ofRecordText e.value with
      | .ok l => Ensures {client} Q (k (some l, e.modified)) s
      | .error f => Q (.error (.fault f)) s := by
  rw [read, bind_eq, Session.bind_assoc]
  refine (ensures_ask_client (I := interface) (c := .get key)).trans ?_
  simp only [client, hf, Option.map_some]
  cases ofRecordText e.value with
  | ok l => rfl
  | error f => exact ensures_fail

theorem ensures_commit_client {α : Type} {Q : Except Error α → Store → Prop}
    {k : Bool → Session interface α} (hf : s.entries.find? key = some e) (hm : e.modified ≠ 0)
    (change : Change) :
    Ensures {client} Q ((commit [unchanged key e.modified] [change] []).bind k) s ↔
      Ensures {client} Q (k true) (s.apply change) := by
  refine (ensures_ask_client (I := interface)
    (c := .commit [unchanged key e.modified] [change] [])).trans ?_
  have hholds : [unchanged key e.modified].all s.holds = true := by
    simp only [List.all_cons, List.all_nil, Bool.and_true, unchanged, if_neg hm, Store.holds, hf,
      Option.elim_some, decide_true]
  simp only [client, hholds, if_true]
  rfl

theorem ensures_put_client {α : Type} {Q : Except Error α → Store → Prop}
    {k : Bool → Session interface α} (hf : s.entries.find? key = some e) (hm : e.modified ≠ 0)
    (l : Lock) (now : Int) :
    Ensures {client} Q ((putIfUnchanged key e.modified l now).bind k) s ↔
      match recordText l with
      | .ok text => Ensures {client} Q (k true)
          ((s.grant (timeToLive l now)).2.apply
            (.put key text (some (s.grant (timeToLive l now)).1)))
      | .error f => Q (.error (.fault f)) (s.grant (timeToLive l now)).2 := by
  rw [putIfUnchanged, bind_eq, Session.bind_assoc]
  refine (ensures_ask_client (I := interface) (c := .grant (timeToLive l now))).trans ?_
  dsimp only [client]
  cases recordText l with
  | error f => exact ensures_fail
  | ok text =>
    simp only [ofReading, bind_eq, Session.bind, Session.bind_assoc]
    exact ensures_commit_client (s := (s.grant (timeToLive l now)).2) hf hm _

/-- Nobody interferes: the first attempt decides. -/
theorem ensures_tries (hf : s.entries.find? (keyOf options c.realm c.name) = some e)
    (hm : e.modified ≠ 0) :
    Ensures {client} (fun r _ => match ofRecordText e.value with
      | .ok l =>
        r = .ok (some (op.decide (some l))) ∨ ∃ l' f, op.effect (some l) = .put l' ∧
        recordText l' = .error f ∧
        r = .error (.fault f)
      | .error f => r = .error (.fault f)) (tries options op c) s := by
  rw [tries, ensures_read hf]
  cases ofRecordText e.value with
  | error f => rfl
  | ok l =>
    dsimp only
    obtain ⟨effect, he⟩ : ∃ effect, op.effect (some l) = effect := ⟨_, rfl⟩
    rw [he]
    cases effect with
    | keep => exact ensures_done.mpr (.inl rfl)
    | delete => exact (ensures_commit_client hf hm _).mpr (ensures_done.mpr (.inl rfl))
    | put l' =>
      refine (ensures_put_client hf hm l' op.now).mpr ?_
      cases ht : recordText l' with
      | ok text => exact ensures_done.mpr (.inl rfl)
      | error f => exact .inr ⟨l', f, rfl, ht, rfl⟩

/-- Operations on a record of the lock are ruled by what it says, and fail when it cannot be
read. -/
theorem ensures_ruled (h : op.check = .ok c)
    (hf : s.entries.find? (keyOf options c.realm c.name) = some e) (hm : e.modified ≠ 0) :
    Ensures {client} (fun r _ => match ofRecordText e.value with
      | .ok l => op.Ruled (some l) Writable r
      | .error _ => r = .ok (op.kind.failed, none)) (op.attempt (service options) c) s := by
  rw [attempt_eq options h, operate, Service.ensures_guarded, bind_eq, ensures_bind, retry,
    ensures_bind]
  refine (ensures_tries hf hm).mono fun r s' hr => ?_
  cases hl : ofRecordText e.value with
  | error f =>
    simp only [hl] at hr
    subst hr
    rfl
  | ok l =>
    simp only [hl] at hr
    rcases hr with rfl | ⟨l', f, heffect, ht, rfl⟩
    · exact ensures_done.mpr (ensures_done.mpr (.inl rfl))
    · refine .inr ⟨by rintro _ ⟨rfl⟩; rfl, l', heffect, ?_⟩
      rintro ⟨text, ht'⟩
      rw [ht] at ht'
      cases ht'

theorem ensures_found {realm name : String}
    (hf : s.entries.find? (keyOf options realm name) = some e) :
    Ensures {client} (fun r _ => r = .ok (ofRecordText e.value).toOption)
      (find options realm name) s := by
  rw [find, Service.ensures_guarded, bind_eq, ensures_read hf]
  cases ofRecordText e.value with
  | ok l => exact ensures_done.mpr rfl
  | error f => rfl

end Held

end Leasehold.KeyValue
