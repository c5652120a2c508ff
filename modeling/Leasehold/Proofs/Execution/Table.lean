import Leasehold.Proofs.Execution
import Leasehold.Proofs.Service.Table

/-!
# An SQL table in trouble

What an operation does on any table, whatever its rows look like. A statement either fails and
changes nothing or returns a row; only a renewal has to read what is returned.
-/

namespace Leasehold.Table
open Session

section Statement
variable (options : Options) (op : Operation) (c : Claim)

/-- The statement that decides an operation. -/
def statement : Statement :=
  match op.kind with
  | .acquire => .upsert c op.delta (Decision.orZero op.lock.expiry) (options.clock op.now)
  | .renew => .extend c op.delta (options.clock op.now)
  | .release => .delete c (options.clock op.now)

/-- The verdict on a statement, from the row that it returns. What a release comes to that returns
none takes a second statement. -/
def verdict (row : Option Row) : Except Fault Verdict :=
  match op.kind, row with
  | .renew, some row => (ofRow row).map fun l => (.renewed, some l)
  | .release, some row =>
    (expiredFlag row).map fun expired => (if expired then .releasedExpired else .released, none)
  | .acquire, some _ => .ok (.acquired, none)
  | _, none => .ok (op.kind.conflict, none)

variable {op} in
theorem statement_release (hk : op.kind = .release) :
    statement options op c = .delete c (options.clock op.now) := by
  simp only [statement, hk]

end Statement

/-- A server that executes statements as `Store.execute` does or refuses them, but takes every
selection. -/
structure Restricts (execute : Store → Statement → Except Fault (Option Row × Store)) : Prop where
  sound : ∀ {s statement p}, execute s statement = .ok p → s.execute statement = .ok p
  select : ∀ s realm name, execute s (.select realm name) = s.execute (.select realm name)

theorem restricts_execute : Restricts Store.execute := ⟨id, fun _ _ _ => rfl⟩

theorem restricts_executeLimited : Restricts Store.executeLimited where
  sound := by
    intro s statement p h
    simp only [Store.executeLimited] at h
    split at h
    · cases h
    · obtain ⟨⟨row, s'⟩, hx, h⟩ := ok_of_bind h
      dsimp only at h
      split at h <;> cases h
      exact hx
  select := fun _ _ _ => rfl

section Attempt
variable {options : Options} {op : Operation} {c : Claim} {s : Store} {P : Fault → Prop}
  {execute : Store → Statement → Except Fault (Option Row × Store)}

theorem client_of_ok {t : String} {statement : Statement} {row : Option Row} {s' : Store}
    (h : execute s statement = .ok (row, s')) :
    clientOf execute ⟨t, statement⟩ s = (.ok row, s') := by
  simp only [clientOf, h]

theorem client_of_error {t : String} {statement : Statement} {f : Fault}
    (h : execute s statement = .error f) :
    clientOf execute ⟨t, statement⟩ s = (.error f, s) := by
  simp only [clientOf, h]

theorem ensures_query {α : Type} {statement : Statement} {decode : Option Row → Except Fault α}
    {Q : Except Error α → Store → Prop} :
    Ensures (troubled {clientOf execute} P) Q
        ((query options statement).bind fun row => (ofReading (decode row)).bind
          fun a => done (id a)) s ↔
      (match execute s statement with
        | .ok (row, s') => Q ((decode row).mapError .fault) s'
        | .error f => Q (.error (.fault f)) s) ∧
      ∀ f, P f → Q (.error (.fault f)) s := by
  refine (ensures_ask_reading (I := interface)).trans (and_congr_left fun _ => ?_)
  cases hx : execute s statement with
  | ok p =>
    obtain ⟨row, s'⟩ := p
    rw [client_of_ok hx]
    simp only [Except.bind]
    cases decode row <;> rfl
  | error f => rw [client_of_error hx]; rfl

variable (options c) in
theorem attempt_eq (hk : op.kind ≠ .release) : op.attempt (service options) c =
    guarded op.kind.event c.realm c.name (op.kind.failed, none)
      ((query options (statement options op c)).bind fun row =>
      (ofReading (verdict op row)).bind fun v => done (id v)) := by
  cases hkind : op.kind with
  | acquire =>
    obtain ⟨kind, l, now⟩ := op
    cases hkind
    simp only [Operation.attempt, service, acquire, guarded, Service.guarded_map,
      bind_eq, bind_assoc]
    refine congrArg _ (congrArg (Session.bind _) (funext fun row => ?_))
    cases row <;> rfl
  | renew =>
    obtain ⟨kind, l, now⟩ := op
    cases hkind
    show guarded _ _ _ _ ((query _ _).bind _) = _
    refine congrArg _ (congrArg (Session.bind _) (funext fun row => ?_))
    cases row with
    | none => rfl
    | some row =>
      simp only [verdict]
      cases ofRow row <;> rfl
  | release => exact absurd hkind hk

variable {Q : Except Error Verdict → Store → Prop}

/-- The result of an operation, from the verdict or the fault that it came to. -/
def concluded (op : Operation) (v : Except Fault Verdict) : Except Error Verdict :=
  recovered (Service.answersFor answered) (op.kind.failed, none) (v.mapError .fault)

theorem ensures_statement (hk : op.kind ≠ .release) :
    Ensures (troubled {clientOf execute} P) Q (op.attempt (service options) c) s ↔
      (match execute s (statement options op c) with
        | .ok (row, s') => Q (concluded op (verdict op row)) s'
        | .error f => Q (concluded op (.error f)) s) ∧
      ∀ f, P f → Q (concluded op (.error f)) s := by
  rw [attempt_eq options c hk, guarded, Service.ensures_guarded, ensures_query]
  rfl

/-- The outcome of a release that deleted no row, from the row of the second statement. -/
def classified : Option Row → Except Fault Verdict
  | some row =>
    (expiredFlag row).map fun expired =>
      (if expired then .releasedExpired else .releaseConflict, none)
  | none => .ok (.releasedNotFound, none)

/-- What the second statement of a release ensures. -/
def Classifies (execute : Store → Statement → Except Fault (Option Row × Store)) (options : Options)
    (op : Operation) (c : Claim) (P : Fault → Prop) (Q : Except Error Verdict → Store → Prop)
    (s : Store) : Prop :=
  (match execute s (.selectExpired c.realm c.name (options.clock op.now)) with
    | .ok (row, s') => Q (concluded op (classified row)) s'
    | .error f => Q (concluded op (.error f)) s) ∧
  ∀ f, P f → Q (concluded op (.error f)) s

/-- A release is one statement, and when it deletes nothing a second one. -/
theorem attempt_eq_release (hk : op.kind = .release) : op.attempt (service options) c =
    guarded op.kind.event c.realm c.name (op.kind.failed, none)
      ((query options (statement options op c)).bind
      fun row => match row with
        | some row => ofReading (verdict op (some row))
        | none =>
          (query options (.selectExpired c.realm c.name (options.clock op.now))).bind fun row =>
          (ofReading (classified row)).bind fun v => done (id v)) := by
  obtain ⟨kind, l, now⟩ := op
  cases hk
  simp only [Operation.attempt, service, release, guarded, Service.guarded_map, bind_eq, bind_assoc]
  refine congrArg _ (congrArg (Session.bind _) (funext fun row => ?_))
  cases row with
  | some row =>
    simp only [verdict]
    cases expiredFlag row <;> rfl
  | none =>
    show (Session.bind (query _ _) _).bind _ = _
    rw [bind_assoc]
    refine congrArg (Session.bind _) (funext fun row => ?_)
    cases row with
    | some row =>
      simp only [classified]
      cases expiredFlag row <;> rfl
    | none => rfl

theorem ensures_release (hk : op.kind = .release) :
    Ensures (troubled {clientOf execute} P) Q (op.attempt (service options) c) s ↔
      (match execute s (statement options op c) with
        | .ok (some row, s') => Q (concluded op (verdict op (some row))) s'
        | .ok (none, s') => Classifies execute options op c P Q s'
        | .error f => Q (concluded op (.error f)) s) ∧
      ∀ f, P f → Q (concluded op (.error f)) s := by
  rw [attempt_eq_release hk, guarded, Service.ensures_guarded, ensures_bind]
  refine (ensures_ask_troubled (I := interface)
    (c := ⟨options.table, statement options op c⟩)).trans
    (and_congr_left fun _ => ?_)
  cases hx : execute s (statement options op c) with
  | ok p =>
    obtain ⟨row, s'⟩ := p
    rw [client_of_ok hx]
    cases row with
    | some row => exact ensures_ofReading
    | none => exact ensures_query
  | error f => rw [client_of_error hx]; rfl

/-- The record of a row that came back, if any. -/
def decoded : Option Row → Except Fault (Option Lock)
  | none => .ok none
  | some row => (ofRow row).map some

/-- The record of a row that lies there, if any. -/
def reading (old : Option Row) : Except Fault (Option Lock) := decoded (old.map shown)

theorem find_eq (options : Options) (realm name : String) : find options realm name =
    guarded "Error getting lock" realm name none
      ((query options (.select realm name)).bind fun row => (ofReading (decoded row)).bind
        fun l => done (id l)) := by
  refine congrArg _ (congrArg (Session.bind _) (funext fun row => ?_))
  cases row with
  | none => rfl
  | some row =>
    simp only [decoded]
    cases ofRow row <;> rfl

theorem ensures_find (hex : Restricts execute) {Q : Except Error (Option Lock) → Store → Prop}
    {realm name : String} :
    Ensures (troubled {clientOf execute} P) Q (find options realm name) s ↔
      Q (recovered (Service.answersFor answered) none
        ((reading (Assoc.find? s.rows (realm, name))).mapError .fault)) s ∧
      ∀ f, P f → Q (recovered (Service.answersFor answered) none (.error (.fault f))) s := by
  rw [find_eq, guarded, Service.ensures_guarded, ensures_query, hex.select]
  rfl

end Attempt

/-! ### Statements -/

section Execute
variable {s s' : Store} {c : Claim}

/-- A statement that returns no row changes none. -/
theorem execute_none {statement : Statement} (h : s.execute statement = .ok (none, s')) :
    s' = s := by
  cases statement with
  | create => cases h; rfl
  | select realm name =>
    simp only [Store.execute, Except.ok.injEq, Prod.mk.injEq] at h
    exact h.2.symm
  | upsert | extend | delete | selectExpired =>
    simp only [Store.execute, bind, Except.bind, pure, Except.pure] at h
    repeat' split at h
    all_goals cases h; try rfl

theorem expiredFlag_row (expired : Truth) :
    expiredFlag [("expired", expired.value)] = .ok expired.value.isTruthy := by
  simp only [expiredFlag, column, Lock.demand, Assoc.find?, if_true, bind, Except.bind,
    pure, Except.pure]

theorem expiredFlag_bool (expired : Bool) :
    expiredFlag [("expired", .bool expired)] = .ok expired :=
  expiredFlag_row (some expired)

theorem expiredFlag_of_delete {clock : Clock} {row : Row}
    (h : s.execute (.delete c clock) = .ok (some row, s')) :
    ∃ expired, expiredFlag row = .ok expired := by
  simp only [Store.execute, bind, Except.bind, pure, Except.pure] at h
  repeat' split at h
  all_goals cases h
  exact ⟨_, expiredFlag_row _⟩

/-- The second statement of a release changes nothing, and its row can be read. -/
theorem classified_of_selectExpired {realm name : String} {clock : Clock} {row : Option Row}
    (h : s.execute (.selectExpired realm name clock) = .ok (row, s')) :
    s' = s ∧ ∃ v, classified row = .ok v := by
  simp only [Store.execute, bind, Except.bind, pure, Except.pure] at h
  repeat' split at h
  all_goals cases h
  · exact ⟨rfl, _, rfl⟩
  · exact ⟨rfl, _, by rw [classified, expiredFlag_row]; rfl⟩

end Execute

/-! ### Failures and the table -/

section FailsAfterWrite
variable (options : Options) (op : Operation) (c : Claim) (s : Store)

/-- The statement goes through and changes the table, but the row of a renewal cannot be read. -/
def FailsAfterWrite : Prop :=
  op.kind = .renew ∧ ∃ row s' f, s.executeLimited (statement options op c) = .ok (some row, s') ∧
    s' ≠ s ∧ ofRow row = .error f

variable {options op c s}

theorem unsuccessful_concluded (v : Except Fault Verdict) :
    Unsuccessful (concluded op v) ↔ ∀ w, v = .ok w → w.1.isSuccess = false := by
  cases v with
  | ok w => simp only [Unsuccessful, concluded, Except.mapError, recovered, Except.ok.injEq]
  | error f =>
    refine iff_of_true (fun v hv => ?_) (by rintro _ ⟨⟩)
    simp only [concluded, Except.mapError, recovered] at hv
    split at hv <;> cases hv
    cases op.kind <;> rfl

/-- Where results do not matter on the table as it was, all depends on a statement that returns a
row. -/
theorem ensures_statement_row {execute : Store → Statement → Except Fault (Option Row × Store)}
    (hex : Restricts execute) {P : Fault → Prop} {Q : Except Error Verdict → Store → Prop}
    (hs : ∀ r, Q r s) :
    Ensures (troubled {clientOf execute} P) Q (op.attempt (service options) c) s ↔
      ∀ row s', execute s (statement options op c) = .ok (some row, s') →
      Q (concluded op (verdict op (some row))) s' := by
  have trivially (r : Except Error Verdict) : Q r s ↔ True := iff_true_intro (hs r)
  by_cases hk : op.kind = .release
  · rw [ensures_release hk]
    simp only [trivially, implies_true, and_true]
    cases hx : execute s (statement options op c) with
    | error f => exact iff_of_true trivial (by rintro _ _ ⟨⟩)
    | ok p =>
      obtain ⟨row, s'⟩ := p
      cases row with
      | some row =>
        simp only [Except.ok.injEq, Prod.mk.injEq, Option.some.injEq, and_imp,
          forall_apply_eq_imp_iff, forall_eq']
      | none =>
        -- nothing was deleted, and the second statement only looks
        obtain rfl := execute_none (hex.sound hx)
        refine iff_of_true ⟨?_, fun _ _ => hs _⟩ (by rintro _ _ ⟨⟩)
        split
        · rename_i hx'
          rw [(classified_of_selectExpired (hex.sound hx')).1]
          exact hs _
        · exact hs _
  · rw [ensures_statement hk]
    simp only [trivially, implies_true, and_true]
    cases hx : execute s (statement options op c) with
    | error f => exact iff_of_true trivial (by rintro _ _ ⟨⟩)
    | ok p =>
      obtain ⟨row, s'⟩ := p
      cases row with
      | some row =>
        simp only [Except.ok.injEq, Prod.mk.injEq, Option.some.injEq, and_imp,
          forall_apply_eq_imp_iff, forall_eq']
      | none =>
        obtain rfl := execute_none (hex.sound hx)
        exact iff_of_true (hs _) (by rintro _ _ ⟨⟩)

/-- When a row is returned, only a renewal can still fail. -/
theorem unsuccessful_verdict {row : Row} {s' : Store}
    (hx : s.executeLimited (statement options op c) = .ok (some row, s')) :
    Unsuccessful (concluded op (verdict op (some row))) ↔ op.kind = .renew ∧
    ∃ f, ofRow row = .error f := by
  rw [unsuccessful_concluded]
  cases hk : op.kind with
  | acquire => simp [verdict, hk, Outcome.isSuccess, Outcome.isHeld]
  | renew =>
    cases hr : ofRow row <;> simp [verdict, hk, hr, Except.map, Outcome.isSuccess, Outcome.isHeld]
  | release =>
    rw [statement_release options c hk] at hx
    obtain ⟨expired, he⟩ := expiredFlag_of_delete (restricts_executeLimited.sound hx)
    cases expired <;> simp [verdict, hk, he, Except.map, Outcome.isSuccess, Outcome.isCleared]

theorem ensures_kept :
    Ensures (troubled {limitedClient} fun _ => True) (fun r s' => Unsuccessful r → s' = s)
      (op.attempt (service options) c) s ↔
      ¬ FailsAfterWrite options op c s := by
  rw [ensures_statement_row restricts_executeLimited fun _ _ => rfl]
  constructor
  · rintro hkept ⟨hk, row, s', f, hx, hne, hf⟩
    exact hne (hkept row s' hx ((unsuccessful_verdict hx).mpr ⟨hk, f, hf⟩))
  · intro hsound row s' hx hu
    obtain ⟨hk, f, hf⟩ := (unsuccessful_verdict hx).mp hu
    by_contra hne
    exact hsound ⟨hk, row, s', f, hx, hne, hf⟩

end FailsAfterWrite

/-! ### Faults that are not answered for -/

section Raises
variable (options : Options) (op : Operation) (c : Claim) (s : Store)

/-- A statement fails on the row that is there, or the row of a renewal cannot be read, for a reason
that is not answered for. -/
def Raises : Prop :=
  Escapes answered (s.executeLimited (statement options op c)) ∨
  (op.kind = .renew ∧ ∃ row s', s.executeLimited (statement options op c) = .ok (some row, s') ∧
    Escapes answered (ofRow row)) ∨
  op.kind = .release ∧ (∃ s', s.executeLimited (statement options op c) = .ok (none, s')) ∧
    Escapes answered (s.executeLimited (.selectExpired c.realm c.name (options.clock op.now)))

variable {options op c s}

theorem exists_concluded {v : Except Fault Verdict} :
    (∃ w, concluded op v = .ok w) ↔ ¬ Escapes answered v :=
  exists_recovered

theorem escapes_verdict {row : Row} {s' : Store}
    (hx : s.executeLimited (statement options op c) = .ok (some row, s')) :
    Escapes answered (verdict op (some row)) ↔ op.kind = .renew ∧ Escapes answered (ofRow row) := by
  cases hk : op.kind with
  | acquire => simp [verdict, hk]
  | renew => simp [verdict, hk, escapes_map]
  | release =>
    rw [statement_release options c hk] at hx
    obtain ⟨expired, he⟩ := expiredFlag_of_delete (restricts_executeLimited.sound hx)
    simp [verdict, hk, he, Except.map]

theorem ensures_answered {P : Fault → Prop} (hP : ∀ f, P f → f.kind ∈ answered) :
    Ensures (troubled {limitedClient} P) (fun r _ => ∃ v, r = .ok v)
      (op.attempt (service options) c) s ↔
      ¬ Raises options op c s := by
  have hanswered (f : Fault) (hf : P f) : ¬ Escapes answered (.error f : Except Fault Verdict) := by
    simpa using hP f hf
  have hfault (f : Fault) (hf : P f) : ∃ v, concluded op (.error f) = .ok v :=
    exists_concluded.mpr (hanswered f hf)
  by_cases hk : op.kind = .release
  · rw [ensures_release hk, and_iff_left hfault]
    simp only [Classifies, exists_concluded, and_iff_left hanswered, Raises]
    cases hx : s.executeLimited (statement options op c) with
    | error f => simp [hk]
    | ok p =>
      obtain ⟨row, s'⟩ := p
      cases row with
      | some row => simp [escapes_verdict hx, hk]
      | none =>
        obtain rfl := execute_none (restricts_executeLimited.sound hx)
        simp only [hk, reduceCtorEq, false_and, not_escapes_ok, Except.ok.injEq, Prod.mk.injEq,
          true_and, exists_eq',
          false_or]
        cases hx' : s'.executeLimited (.selectExpired c.realm c.name (options.clock op.now)) with
        | error f => simp
        | ok p =>
          obtain ⟨v, hv⟩ := (classified_of_selectExpired (restricts_executeLimited.sound hx')).2
          simp [hv]
  · rw [ensures_statement hk, and_iff_left hfault]
    simp only [exists_concluded, Raises, hk, false_and, or_false]
    cases hx : s.executeLimited (statement options op c) with
    | error f => simp
    | ok p =>
      obtain ⟨row, s'⟩ := p
      simp only [not_escapes_ok, false_or, Except.ok.injEq, Prod.mk.injEq]
      cases row with
      | some row => simp [escapes_verdict hx]
      | none => simp [verdict]

end Raises

/-! ### Records of claims

A record is found as it is, and operations on its lock go by what it says. -/

section Held
variable {options : Options} {op : Operation} {c c' : Claim} {s : Store} {row : Row}
    {lease expiry : Int}

theorem ensures_reading_found {realm name : String} {existing : Option Lock}
    (hl : reading (Assoc.find? s.rows (realm, name)) = .ok existing) :
    Ensures {client} (fun r _ => r = .ok existing) (find options realm name) s := by
  refine Ensures.of_subset (subset_troubled {client} fun _ => False) ?_
  rw [ensures_find restricts_execute, hl]
  exact ⟨rfl, nofun⟩

theorem reading_some {row : Row} {l : Lock} (hl : ofRow (shown row) = .ok l) :
    reading (some row) = .ok (some l) :=
  congrArg (Except.map some) hl

theorem ensures_row_found {realm name : String} {l : Lock}
    (hf : Assoc.find? s.rows (realm, name) = some row) (hl : ofRow (shown row) = .ok l) :
    Ensures {client} (fun r _ => r = .ok (some l)) (find options realm name) s :=
  ensures_reading_found (hf ▸ reading_some hl)

theorem ensures_found {realm name : String} (hw : Holds row c lease expiry)
    (hf : Assoc.find? s.rows (realm, name) = some row) :
    Ensures {client} (fun r _ => r = .ok (some (c.lock (some lease) (some expiry))))
      (find options realm name) s :=
  ensures_row_found hf hw.shown.ofRow

theorem StoredAs.reading {realm name : String} {old : Option Row} {existing : Option Lock}
    (hl : StoredAs realm name old existing) :
    reading old = .ok existing := by
  cases hl with
  | nothing => rfl
  | row hr hn hw => exact reading_some hw.shown.ofRow

theorem clock_eq (hclock : options.useServerTime = false) (now : Int) :
    options.clock now = .caller now := by
  simp only [Options.clock, hclock, Bool.false_eq_true, if_false]

section StoredAs
variable {existing : Option Lock} (hclock : options.useServerTime = false) (h : op.check = .ok c)
  (hl : StoredAs c.realm c.name (Assoc.find? s.rows (c.realm, c.name)) existing)
include hclock h hl

theorem ensures_released (hk : op.kind = .release) :
    Ensures {client} (fun r _ => r = .ok (op.decide existing))
      (op.attempt (service options) c) s := by
  refine Ensures.of_subset (subset_troubled {client} fun _ => False) ?_
  rw [ensures_release hk]
  refine ⟨?_, fun _ => False.elim⟩
  simp only [Classifies, statement, hk, clock_eq hclock]
  rcases execute_delete hl h with ⟨ho, hx⟩ | ⟨ho, hx⟩
  · rw [hx, Operation.decide_not_freed hk ho]
    dsimp only
    rw [execute_selectExpired hl]
    refine ⟨?_, fun _ => False.elim⟩
    cases existing with
    | none => rfl
    | some l =>
      simp only [Option.map_some, classified, expiredFlag_bool]
      rfl
  · rw [hx, Operation.decide_freed hk ho]
    simp only [verdict, hk, expiredFlag_bool]
    rfl

theorem ensures_suits :
    Ensures {client} (fun r _ => ∃ v, r = .ok v ∧ op.Suits existing v)
      (op.attempt (service options) c) s := by
  cases hk : op.kind with
  | acquire =>
    refine Ensures.of_subset (subset_troubled {client} fun _ => False) ?_
    rw [ensures_statement (by rw [hk]; decide)]
    refine ⟨?_, fun _ => False.elim⟩
    simp only [statement, hk, clock_eq hclock, execute_upsert hl h hk]
    cases hp : op.permits existing with
    | true =>
      simp only [if_true, verdict, hk]
      exact ⟨_, rfl, .of_permitted hp rfl⟩
    | false =>
      simp only [Bool.false_eq_true, if_false, verdict, hk]
      exact ⟨_, rfl, .of_refused hp (by rw [hk])⟩
  | renew =>
    refine Ensures.of_subset (subset_troubled {client} fun _ => False) ?_
    rw [ensures_statement (by rw [hk]; decide)]
    refine ⟨?_, fun _ => False.elim⟩
    simp only [statement, hk, clock_eq hclock]
    rcases execute_extend hl h hk with ⟨hp, hx⟩ | ⟨hp, row, l, hrow, -, hx⟩
    · rw [hx]
      simp only [verdict, hk]
      exact ⟨_, rfl, .of_refused hp (by rw [hk])⟩
    · rw [hx]
      simp only [verdict, hk, hrow]
      exact ⟨_, rfl, .of_permitted hp rfl⟩
  | release =>
    exact (ensures_released hclock h hl hk).mono fun r _ hr =>
      ⟨_, hr, Operation.suits_decide existing⟩

end StoredAs

end Held

end Leasehold.Table
