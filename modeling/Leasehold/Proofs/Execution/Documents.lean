import Leasehold.Proofs.Execution
import Leasehold.Proofs.Service.Documents

/-!
# Documents in trouble

What an operation does on any store, whatever its documents look like. An operation is one
transaction: it reads the document, concludes what to answer and what to write (`conclude`), and
commits. A commit that was aborted is tried again from the reading on, so nothing is left behind
unless a commit went through.
-/

namespace Leasehold.Documents
open Session

/-- The record of a document, if any. -/
def reading : Option Value.Fields → Except Fault (Option Lock)
  | none => .ok none
  | some data => (Lock.ofFields data).map some

section Conclude
variable (options : Options) (op : Operation) (c : Claim)

/-- What an operation writes, by the record that it read. -/
def writes (existing : Option Lock) : Except Fault (List Write) :=
  match op.effect existing with
  | .keep => .ok []
  | .put l => (dataOf options l).map fun data => [.set (pathOf options c.realm c.name) data]
  | .delete => .ok [.delete (pathOf options c.realm c.name)]

/-- The verdict of an operation and its writes, by the document that it read. -/
def conclude (data : Option Value.Fields) : Except Fault (Verdict × List Write) :=
  (reading data).bind fun existing => (writes options op c existing).map fun ws =>
    (op.decide existing, ws)

end Conclude

/-! ### Transactions -/

section Transaction
variable {α β : Type} {s : Store} {P : Fault → Prop}

theorem attempt_map (f : α → β) (body : Session interface (α × List Write)) (left : Nat)
    (again : Bool) :
    (attempt body left again).bind (fun a => done (f a)) =
      attempt (body.bind fun p => done (f p.1, p.2)) left again := by
  induction left generalizing again with
  | zero => rfl
  | succ left ih =>
    have hopened : ((ask (I := interface) (.begin again)).bind fun _ => body.bind fun p => done
      (f p.1, p.2)).rescue
        (fun _ => true) giveUp =
          (((ask (I := interface) (.begin again)).bind fun _ => body).rescue (fun _ => true)
          giveUp).bind fun p => done (f p.1, p.2) := by
      rw [rescue_map, bind_assoc]
      rfl
    simp only [attempt, hopened, bind_assoc]
    refine congrArg (Session.bind _) (funext fun p => ?_)
    refine congrArg (call (I := interface) (.commit p.2)) (funext fun reply => ?_)
    cases reply with
    | ok _ => rfl
    | error e =>
      dsimp only
      split
      · exact ih true
      · rfl

/-- A transaction whose body makes one call and reads what comes back. -/
theorem ensures_attempt {Q : Except Error α → Store → Prop}
    {body : Session interface (α × List Write)} {result : Except Fault (α × List Write)}
    (hbody : ∀ Q : Except Error (α × List Write) → Store → Prop,
      Ensures (troubled {client} P) Q body s ↔
      Q (result.mapError .fault) s ∧ ∀ f, P f → Q (.error (.fault f)) s)
    (hok : ∀ a ws, result = .ok (a, ws) → Q (.ok a) (ws.foldl Write.apply s))
    (hfail : ∀ f, result = .error f → Q (.error (.fault f)) s)
    (htrouble : ∀ f, P f → Q (.error (.fault f)) s ∧
      Q (.error (.fault (.contention maxAttempts))) s)
    (left : Nat) (again : Bool) :
    Ensures (troubled {client} P) Q (attempt body (left + 1) again) s := by
  have hgiveUp {β : Type} {Q : Except Error β → Store → Prop} {e : Error} {s : Store}
    (h : Q (.error e) s) :
      Ensures (troubled {client} P) Q (giveUp e) s :=
    ensures_call_troubled.mpr ⟨ensures_fail.mpr h, fun _ _ => ensures_fail.mpr h⟩
  -- one attempt, when those after an aborted commit are understood
  have once {left : Nat}
    (hnext : ∀ f, P f → Ensures (troubled {client} P) Q (attempt body left true) s) (again : Bool) :
      Ensures (troubled {client} P) Q (attempt body (left + 1) again) s := by
    rw [attempt, ensures_bind, ensures_rescue, ensures_bind, ensures_ask_troubled]
    refine ⟨(hbody _).mpr ⟨?_, fun f hf => hgiveUp (htrouble f hf).1⟩, fun f hf => hgiveUp
      (htrouble f hf).1⟩
    cases hresult : result with
    | error f => exact hgiveUp (hfail f hresult)
    | ok p =>
      obtain ⟨a, ws⟩ := p
      refine ensures_call_troubled.mpr ⟨ensures_done.mpr (hok a ws hresult), fun f hf => ?_⟩
      dsimp only
      split
      · exact hnext f hf
      · exact hgiveUp (htrouble f hf).1
  induction left generalizing again with
  | zero => exact @once 0 (fun f hf => hgiveUp (htrouble f hf).2) again
  | succ left ih => exact once (fun _ _ => ih true) again

end Transaction

/-! ### Operations -/

section Attempt
variable {options : Options} {op : Operation} {c : Claim} {s : Store} {P : Fault → Prop}

/-- The transaction of an operation. -/
def body (options : Options) (op : Operation) (c : Claim) :
    Session interface (Verdict × List Write) :=
  (ask (I := interface) (.get (pathOf options c.realm c.name) true)).bind fun data =>
    (ofReading (conclude options op c data)).bind fun p => done (id p)

theorem transaction_map {α β : Type} (f : α → β) (body : Session interface (α × List Write)) :
    (transaction body).bind (fun a => done (f a)) = transaction
      (body.bind fun p => done (f p.1, p.2)) :=
  attempt_map f body maxAttempts false

theorem read_eq (path : String) (inTransaction : Bool) : read path inTransaction =
    (ask (I := interface) (.get path inTransaction)).bind fun data => ofReading (reading data) := by
  refine congrArg (Session.bind _) (funext fun data => ?_)
  cases data with
  | none => rfl
  | some data =>
    simp only [reading]
    cases Lock.ofFields data <;> rfl

theorem body_eq : body options op c = (read (pathOf options c.realm c.name) true).bind
    fun existing =>
    (ofReading (writes options op c existing)).bind fun ws => done (op.decide existing, ws) := by
  rw [read_eq, bind_assoc]
  refine congrArg (Session.bind _) (funext fun data => ?_)
  simp only [conclude]
  cases reading data with
  | error f => rfl
  | ok existing =>
    simp only [Except.bind, ofReading, Session.bind]
    cases writes options op c existing <;> rfl

variable (options) in
theorem attempt_eq (h : op.check = .ok c) : op.attempt (service options) c =
    operate op.kind.event c (op.kind.failed, none) (body options op c) := by
  cases hk : op.kind with
  | acquire =>
    simp only [Operation.attempt, hk, service, acquire, operate, Service.guarded_map,
      transaction_map, body_eq, bind_eq,
      bind_assoc, Claim.lock_raw, Claim.raw_realm, Claim.raw_name, Value.plain,
      Operation.acquire_request h hk, Operation.acquire_decision hk]
    refine congrArg _ (congrArg _ (congrArg (Session.bind _) (funext fun existing => ?_)))
    rw [← Operation.decide_snd (by rw [hk]; decide) existing]
    by_cases ho : (op.decide existing).1.isSuccess = true
    · simp only [if_pos ho, writes, Operation.effect_acquired hk ho]
      cases dataOf options op.lock <;> rfl
    · simp only [if_neg ho, writes, Operation.effect_not_acquired hk ho]
      rfl
  | renew =>
    simp only [Operation.attempt, hk, service, renew, operate, body_eq, bind_eq, Claim.lock_raw,
      Claim.raw_realm, Claim.raw_name, Value.plain, Operation.renew_request h hk]
    refine congrArg _ (congrArg _ (congrArg (Session.bind _) (funext fun existing => ?_)))
    cases ho : op.decide existing with
    | mk o renewed =>
      cases renewed with
      | none => simp only [writes, Operation.effect_not_renewed hk ho]; rfl
      | some l =>
        simp only [writes, Operation.effect_renewed hk ho]
        cases dataOf options l <;> rfl
  | release =>
    simp only [Operation.attempt, hk, service, release, operate, Service.guarded_map,
      transaction_map, body_eq, bind_eq,
      bind_assoc, Claim.lock_raw, Claim.raw_realm, Claim.raw_name, Value.plain,
      Operation.release_request h hk]
    refine congrArg _ (congrArg _ (congrArg (Session.bind _) (funext fun existing => ?_)))
    rw [← Operation.decide_snd (by rw [hk]; decide) existing]
    by_cases ho : (op.decide existing).1 = .released
    · simp only [if_pos ho, writes, Operation.effect_released hk ho]
      rfl
    · simp only [if_neg ho, writes, Operation.effect_not_released hk ho]
      rfl

theorem ensures_body {Q : Except Error (Verdict × List Write) → Store → Prop} :
    Ensures (troubled {client} P) Q (body options op c) s ↔
      Q ((conclude options op c (Assoc.find? s (pathOf options c.realm c.name))).mapError .fault)
        s ∧
      ∀ f, P f → Q (.error (.fault f)) s := by
  refine (ensures_ask_reading (I := interface)).trans (and_congr_left fun _ => ?_)
  show Q (((conclude options op c (Assoc.find? s _)).map id).mapError .fault) s ↔ _
  cases conclude options op c (Assoc.find? s (pathOf options c.realm c.name)) <;> rfl

variable {Q : Except Error Verdict → Store → Prop}

/-- The result of an operation, from its conclusion or the fault that it came to. -/
def concluded (op : Operation) (v : Except Fault Verdict) : Except Error Verdict :=
  recovered (Service.answersFor answered) (op.kind.failed, none) (v.mapError .fault)

theorem ensures_conclude (h : op.check = .ok c)
    (hok : ∀ v ws, conclude options op c (Assoc.find? s (pathOf options c.realm c.name)) =
      .ok (v, ws) →
      Q (.ok v) (ws.foldl Write.apply s))
    (hfail : ∀ f, conclude options op c (Assoc.find? s (pathOf options c.realm c.name)) = .error f →
      Q (concluded op (.error f)) s)
    (htrouble : ∀ f, P f → Q (concluded op (.error f)) s ∧ Q (.ok (op.kind.failed, none)) s) :
    Ensures (troubled {client} P) Q (op.attempt (service options) c) s := by
  rw [attempt_eq options h, operate, Service.ensures_guarded]
  exact ensures_attempt
    (Q := fun r t => Q (recovered (Service.answersFor answered) (op.kind.failed, none) r) t)
    (fun _ => ensures_body) hok hfail htrouble 4 false

theorem ensures_find {Q : Except Error (Option Lock) → Store → Prop} {realm name : String} :
    Ensures (troubled {client} P) Q (find options realm name) s ↔
      Q (recovered (Service.answersFor answered) none
        ((reading (Assoc.find? s (pathOf options realm name))).mapError .fault)) s ∧
      ∀ f, P f → Q (recovered (Service.answersFor answered) none (.error (.fault f))) s := by
  have hread : read (pathOf options realm name) false =
    (ask (I := interface) (.get (pathOf options realm name) false)).bind
      fun data => (ofReading (reading data)).bind fun l => done (id l) := by
    simp only [read_eq, id, bind_done]
  rw [find, Service.ensures_guarded, hread]
  refine (ensures_ask_reading (I := interface)).trans (and_congr_left fun _ => ?_)
  show Q (recovered _ none (((reading (Assoc.find? s _)).map id).mapError .fault)) s ↔ _
  cases reading (Assoc.find? s (pathOf options realm name)) <;> rfl

end Attempt

/-! ### Failures and the store -/

section Failures
variable {options : Options} {op : Operation} {c : Claim} {s : Store}

theorem conclude_eq_ok {data : Option Value.Fields} {v : Verdict} {ws : List Write}
    (h : conclude options op c data = .ok (v, ws)) :
    ∃ existing, reading data = .ok existing ∧ v = op.decide existing ∧
    writes options op c existing = .ok ws := by
  unfold conclude at h
  cases hr : reading data with
  | error f => rw [hr] at h; cases h
  | ok existing =>
    cases hw : writes options op c existing with
    | error f => simp only [hr, Except.bind, hw] at h; cases h
    | ok ws' =>
      simp only [hr, Except.bind, hw, Except.map, Except.ok.injEq, Prod.mk.injEq] at h
      obtain ⟨rfl, rfl⟩ := h
      exact ⟨existing, rfl, rfl, hw⟩

theorem unsuccessful_concluded (op : Operation) (f : Fault) :
    Unsuccessful (concluded op (.error f)) := by
  intro v hv
  simp only [concluded, Except.mapError, recovered] at hv
  split at hv <;> cases hv
  cases op.kind <;> rfl

theorem ensures_kept (h : op.check = .ok c) :
    Ensures (troubled {client} fun _ => True) (fun r s' => Unsuccessful r → s' = s)
      (op.attempt (service options) c) s := by
  refine ensures_conclude h ?_ (fun _ _ _ => rfl) (fun _ _ => ⟨fun _ => rfl, fun _ => rfl⟩)
  intro v ws hx hu
  obtain ⟨existing, -, rfl, hw⟩ := conclude_eq_ok hx
  rw [writes, Operation.effect_of_failure (hu _ rfl)] at hw
  cases hw
  rfl

end Failures

/-! ### Faults that are not answered for -/

section Raises
variable (options : Options) (op : Operation) (c : Claim) (s : Store)

/-- The document cannot be read, or the record to be put has no document, for a reason that is not
answered for. -/
def Raises : Prop :=
  Escapes answered (reading (Assoc.find? s (pathOf options c.realm c.name))) ∨
  ∃ existing l, reading (Assoc.find? s (pathOf options c.realm c.name)) = .ok existing ∧
  op.effect existing = .put l ∧
    Escapes answered (dataOf options l)

variable {options op c s}

theorem escapes_conclude :
    Escapes answered (conclude options op c (Assoc.find? s (pathOf options c.realm c.name))) ↔
    Raises options op c s := by
  unfold conclude Raises
  cases reading (Assoc.find? s (pathOf options c.realm c.name)) with
  | error f => simp [Except.bind]
  | ok existing =>
    simp only [Except.bind, escapes_map, not_escapes_ok, false_or, Except.ok.injEq, writes]
    cases he : op.effect existing with
    | put l => simp [escapes_map, he]
    | keep | delete => simp [he]

theorem ensures_answered (h : op.check = .ok c) {P : Fault → Prop}
    (hP : ∀ f, P f → f.kind ∈ answered) :
    Ensures (troubled {client} P) (fun r _ => ∃ v, r = .ok v) (op.attempt (service options) c) s ↔
      ¬ Raises options op c s := by
  have hconcluded (f : Fault) : (∃ v, concluded op (.error f) = .ok v) ↔ f.kind ∈ answered := by
    rw [concluded, exists_recovered]
    simp
  rw [← escapes_conclude]
  constructor
  · rintro hx ⟨f, hf, hn⟩
    have hfails : Ensures (troubled {client} fun _ => False)
      (fun r _ => r = concluded op (.error f))
        (op.attempt (service options) c) s :=
      ensures_conclude h (fun v ws hok => by rw [hf] at hok; cases hok)
        (fun g hg => by rw [hf] at hg; cases hg; rfl) nofun
    have hmem (P : Fault → Prop) : client ∈ troubled {client} P := .inl rfl
    obtain ⟨v, hv⟩ := hx.run (hmem _) []
    rw [hfails.run (hmem _) []] at hv
    exact hn ((hconcluded f).mp ⟨v, hv⟩)
  · intro hn
    refine ensures_conclude h (fun v _ _ => ⟨v, rfl⟩) (fun f hf => (hconcluded f).mpr ?_)
      fun f hf => ⟨(hconcluded f).mpr (hP f hf), _, rfl⟩
    by_contra hkind
    exact hn ⟨f, hf, hkind⟩

end Raises

/-! ### Records of claims

A record is found as it is, and operations on its lock go by what it says. -/

section Held
variable {options : Options} {op : Operation} {c : Claim} {s : Store}
    {data : Value.Fields} {l : Lock}

theorem ensures_found {realm name : String} (hl : Lock.ofFields data = .ok l)
    (hf : Assoc.find? s (pathOf options realm name) = some data) :
    Ensures {client} (fun r _ => r = .ok (some l)) (find options realm name) s := by
  refine Ensures.of_subset (subset_troubled {client} fun _ => False) ?_
  rw [ensures_find, hf, reading, hl]
  exact ⟨rfl, nofun⟩

theorem ensures_ruled (h : op.check = .ok c) (hl : Lock.ofFields data = .ok l)
    (hf : Assoc.find? s (pathOf options c.realm c.name) = some data) :
    Ensures {client} (fun r _ => op.Ruled (some l) options.writable r)
      (op.attempt (service options) c) s := by
  have hreading : reading (Assoc.find? s (pathOf options c.realm c.name)) = .ok (some l) := by
    rw [hf, reading, hl]; rfl
  refine Ensures.of_subset (subset_troubled {client} fun _ => False)
    (ensures_conclude h ?_ ?_ nofun)
  · intro v ws hx
    obtain ⟨existing, he, rfl, -⟩ := conclude_eq_ok hx
    cases hreading.symm.trans he
    exact .inl rfl
  · intro f hx
    simp only [conclude, hreading, Except.bind, writes] at hx
    obtain ⟨e, he⟩ : ∃ e, op.effect (some l) = e := ⟨_, rfl⟩
    rw [he] at hx
    cases e with
    | keep | delete => cases hx
    | put l' =>
      refine .inr ⟨?_, l', he, ?_⟩
      · intro v hv
        rcases recovered_ok hv with hv | rfl
        · cases hv
        · rfl
      · rintro ⟨d, hd⟩
        simp only [hd] at hx
        cases hx

end Held

end Leasehold.Documents
