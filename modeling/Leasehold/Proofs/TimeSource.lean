import Leasehold.Proofs.Twin.Table

/-!
# The time of a table

Operations on an SQL table decide by one time, the server's or the caller's as the service is set
up, in every statement that they make. A statement looks at its clock and at the rows and at nothing
else (`execute_withClock`), and all statements of an operation have the clock of the options, so
that two operations whose clocks show the same time come out alike on the same rows
(`indistinguishable_of_time`).
-/

namespace Leasehold.Table
open Session
variable {s s' : Store} {options options' : Options} {op : Operation}

/-- The statement with another clock, if it has one. -/
def Statement.withClock (clock : Clock) : Statement → Statement
  | .create => .create
  | .select realm name => .select realm name
  | .upsert c lease expiry _ => .upsert c lease expiry clock
  | .extend c delta _ => .extend c delta clock
  | .delete c _ => .delete c clock
  | .selectExpired realm name _ => .selectExpired realm name clock

/-- The tables are the same but for the clocks of their servers. -/
def SameRows (s s' : Store) : Prop := s'.rows = s.rows

/-- Nobody can tell the two requests apart: whichever calls fail, they end in the same result and
write the same log, and they leave the same rows and the same log context. -/
def Indistinguishable (session session' : Session interface Answer) (s s' : Store) : Prop :=
  Twin Eq SameRows client (fun a a' _ _ => a' = a) session session' s s'

/-- All that a statement reads is the rows and one time, be it the server's or the caller's. -/
theorem execute_withClock (statement : Statement) (hrows : SameRows s s') {clock clock' : Clock}
    (htime : clock'.time s' = clock.time s) :
    Alike (fun p p' => p'.1 = p.1 ∧ SameRows p.2 p'.2) (s.execute (statement.withClock clock))
      (s'.execute (statement.withClock clock')) := by
  have hr : s'.rows = s.rows := hrows
  cases statement with
  | create => exact .ok ⟨rfl, hrows⟩
  | select realm name =>
    exact .ok ⟨congrArg (fun rows => (Assoc.find? rows (realm, name)).map shown) hr, hrows⟩
  | upsert claim lease expiry =>
    simp only [Statement.withClock, Store.execute, hr, htime]
    refine .bind_self fun c => ?_
    cases Assoc.find? s.rows (c.realm, c.name) with
    | none => exact .ok ⟨rfl, rfl⟩
    | some row =>
      refine .bind_self fun expired => .bind_self fun held => ?_
      split
      · exact .ok ⟨rfl, rfl⟩
      · exact .ok ⟨rfl, hrows⟩
  | extend claim delta =>
    simp only [Statement.withClock, Store.execute, hr, htime]
    refine .bind_self fun c => ?_
    cases Assoc.find? s.rows (c.realm, c.name) with
    | none => exact .ok ⟨rfl, hrows⟩
    | some row =>
      refine .bind_self fun lease => .bind_self fun expiry => .bind_self fun expired =>
        .bind_self fun held => ?_
      split
      · exact .ok ⟨rfl, rfl⟩
      · exact .ok ⟨rfl, hrows⟩
  | delete claim =>
    simp only [Statement.withClock, Store.execute, hr, htime]
    refine .bind_self fun c => ?_
    cases Assoc.find? s.rows (c.realm, c.name) with
    | none => exact .ok ⟨rfl, hrows⟩
    | some row =>
      refine .bind_self fun held => .bind_self fun expired => ?_
      split
      · exact .ok ⟨rfl, rfl⟩
      · exact .ok ⟨rfl, hrows⟩
  | selectExpired realm name =>
    simp only [Statement.withClock, Store.execute, hr, htime]
    refine .bind_self fun realm => .bind_self fun name => ?_
    cases Assoc.find? s.rows (realm, name) with
    | none => exact .ok ⟨rfl, hrows⟩
    | some row => exact .bind_self fun _ => .ok ⟨rfl, hrows⟩

/-- The statements of an operation have the clock of the options, and differ in nothing else. -/
theorem statement_withClock (options options' : Options) (op : Operation) (c : Claim) :
    (statement options op c).withClock (options'.clock op.now) = statement options' op c := by
  obtain ⟨kind, l, now⟩ := op
  cases kind <;> rfl

theorem twin_attempt_of_time {c : Claim} (hc : op.check = .ok c) (hrows : SameRows s s')
    (htime : (options'.clock op.now).time s' = (options.clock op.now).time s) :
    Twin Eq SameRows client (RenamesVerdict id) (op.attempt (service options) c)
      (op.attempt (service options') c) s s' := by
  have hstatement := execute_withClock (statement options op c) hrows htime
  rw [statement_withClock, statement_withClock] at hstatement
  have hlook := execute_withClock (.selectExpired c.realm c.name (options.clock op.now)) hrows htime
  refine twin_attempt (.refl hc) hrows (hstatement.mono fun p p' hp => ⟨hp.2, ?_⟩) fun _ =>
    hlook.mono fun p p' hp => ?_
  · rw [hp.1]
    exact ⟨rfl, .refl fun v _ => (Verdict.rename_id v).symm⟩
  · rw [hp.1]
    exact .refl fun v _ => (Verdict.rename_id v).symm

/-- Two services whose clocks show the same time on the same rows do the same. -/
theorem indistinguishable_of_time (hrows : SameRows s s')
    (htime : (options'.clock op.now).time s' = (options.clock op.now).time s) :
    Indistinguishable (op.session (service options)) (op.session (service options')) s s' := by
  cases hc : op.check with
  | error e =>
    rw [op.session_of_error (service options) hc, op.session_of_error (service options') hc]
    exact twin_fail hrows
  | ok c =>
    have hname : (service options').name = (service options).name := rfl
    have hsession : Twin Eq SameRows client (fun a a' _ _ => a' = a.rename id)
      (op.session (service options))
        ((op.rename id).session (service options')) s s' := by
      refine Operation.twin_session lasting_eq hname (.renamed hc) ?_
      rw [Operation.rename_id, Claim.rename_id]
      exact twin_attempt_of_time hc hrows htime
    simp only [Answer.rename_id, Operation.rename_id] at hsession
    exact hsession

theorem session_server (table : String) (op : Operation) (now : Int) :
    ({ op with now } : Operation).session (service ⟨table, true⟩) = op.session
      (service ⟨table, true⟩) := by
  obtain ⟨kind, l, now⟩ := op
  cases kind <;> rfl

/-- An operation has one time throughout. With the server's time nobody can tell when the caller
asked. With the caller's time nobody can tell what the server's clock shows. And the server's time
is used just as the caller's would be. -/
theorem one_time_source (table : String) (op : Operation) (s : Store) :
    (∀ now, Indistinguishable (op.session (service ⟨table, true⟩))
      (({ op with now } : Operation).session (service ⟨table, true⟩)) s s) ∧
    (∀ serverNow, Indistinguishable (op.session (service ⟨table, false⟩))
      (op.session (service ⟨table, false⟩)) s
      { s with serverNow }) ∧
    ∀ serverNow, Indistinguishable (op.session (service ⟨table, true⟩))
      (({ op with now := s.serverNow } : Operation).session (service ⟨table, false⟩)) s
        { s with serverNow } := by
  refine ⟨fun now => ?_, fun serverNow => indistinguishable_of_time rfl rfl, fun serverNow => ?_⟩
  · rw [session_server]
    exact indistinguishable_of_time rfl rfl
  · rw [← session_server table op s.serverNow]
    exact indistinguishable_of_time rfl rfl

/-- It does matter which of the two it is when the clocks differ. -/
example :
    let c : Claim := ⟨"jobs", "nightly", "ada", "one"⟩
    let s : Store := { rows := [(("jobs", "nightly"), rowOf c 10 100)], serverNow := 200 }
    let outcome (useServerTime : Bool) := (((Operation.session ⟨.release, c.record none none, 50⟩
      (service { useServerTime })).run client s []).result.toOption.bind (·.outcome))
    outcome true = some .releasedExpired ∧ outcome false = some .released := by
  decide +kernel

end Leasehold.Table
