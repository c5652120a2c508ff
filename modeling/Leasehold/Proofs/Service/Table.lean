import Leasehold.Service.Table
import Leasehold.Proofs.System

/-!
# The laws of locks in an SQL table

Every statement decides and writes at once, by the caller's clock. Only the outcome of a release
that deleted nothing takes a second statement; when the lock came back to the caller between the
two, the release is refused although it would be permitted. A row is always the row of a claim
(`Good`), so that no statement fails.
-/

namespace Leasehold.Table
open Session

abbrev system (options : Options) : System where
  I := interface
  Store := Store
  client := client
  losses := ∅
  service := service options
  empty := {}
  whole := false
  Slot := String × String
  slot := Prod.mk
  Raw := Row
  raw := fun s => Assoc.find? s.rows
  read := fun row => ofRow (shown row)
  passes := fun _ _ => True
  writable := fun _ => True
  fits := fun _ => True
  extend := Lock.prolong

namespace Truth
variable (a b : Bool)

@[simp] theorem not_some : Truth.not (some a) = some !a := rfl

@[simp] theorem and_some : Truth.and (some a) (some b) = some (a && b) := by
  cases a <;> cases b <;> rfl

@[simp] theorem or_some : Truth.or (some a) (some b) = some (a || b) := by
  cases a <;> cases b <;> rfl

@[simp] theorem value_some : Truth.value (some a) = .bool a := rfl

end Truth

@[simp] theorem bound_raw (c : Claim) : bound c = .ok c := rfl

/-! ### Rows of claims -/

theorem cell_of_find? {row : Row} {name : String} {v : Value} (h : Assoc.find? row name = some v) :
    cell row name = v := by
  rw [cell, h, Option.getD_some]

theorem find?_shown {name : String} (h : name ∈ columnNames) (row : Row) :
    Assoc.find? (shown row) name = some (cell row name) := by
  simp only [columnNames, List.mem_cons, List.not_mem_nil, or_false] at h
  rcases h with rfl | rfl | rfl | rfl | rfl | rfl <;> rfl

/-- The row holds the record of a claim. -/
structure Holds (row : Row) (c : Claim) (lease expiry : Int) : Prop where
  realm : Assoc.find? row "namespace" = some (.text c.realm)
  name : Assoc.find? row "lock_name" = some (.text c.name)
  owner : Assoc.find? row "owner" = some (.text c.owner)
  instanceId : Assoc.find? row "instance_id" = some (.text c.instanceId)
  lease : Assoc.find? row "lease_duration" = some (.int lease)
  expiry : Assoc.find? row "expiry" = some (.int expiry)

namespace Holds
variable {row : Row} {c c' : Claim} {lease expiry : Int}

theorem ofRow (h : Holds row c lease expiry) :
    ofRow row = .ok (c.lock (some lease) (some expiry)) := by
  simp only [Table.ofRow, columnInt, column, Lock.demand, h.realm, h.name, h.owner, h.instanceId,
    h.lease, h.expiry,
    Value.toInt, bind, Except.bind, pure, Except.pure]
  rfl

theorem shown (h : Holds row c lease expiry) : Holds (shown row) c lease expiry := by
  refine ⟨?_, ?_, ?_, ?_, ?_, ?_⟩ <;> rw [find?_shown (by decide)] <;>
    refine congrArg some (cell_of_find? ?_)
  exacts [h.realm, h.name, h.owner, h.instanceId, h.lease, h.expiry]

theorem isExpired (h : Holds row c lease expiry) (now : Int) :
    isExpired row now = .ok (some (decide (expiry < now))) := by
  rw [Table.isExpired, cell_of_find? h.expiry]
  simp only [isBelow, Value.decimal?, Decimal.lt_ofInt]

theorem isHeldBy (h : Holds row c lease expiry) : isHeldBy row c' =
    .ok (some (decide (c'.owner = c.owner) && decide (c'.instanceId = c.instanceId))) := by
  simp only [Table.isHeldBy, cell_of_find? h.owner, cell_of_find? h.instanceId, isText, bind,
    Except.bind, pure, Except.pure,
    Truth.and_some, eq_comm]

theorem extended (h : Holds row c lease expiry) (lease' expiry' : Int) :
    Holds ((Assoc.put row "lease_duration" (.int lease')).put "expiry" (.int expiry')) c lease'
      expiry' := by
  refine ⟨?_, ?_, ?_, ?_, ?_, Assoc.find?_put_self ..⟩ <;> rw [Assoc.find?_put_ne (by decide)]
  case refine_5 => exact Assoc.find?_put_self ..
  all_goals rw [Assoc.find?_put_ne (by decide)]
  exacts [h.realm, h.name, h.owner, h.instanceId]

end Holds

section Row
variable (c c' : Claim) (lease expiry : Int)

theorem holds_rowOf : Holds (rowOf c lease expiry) c lease expiry := ⟨rfl, rfl, rfl, rfl, rfl, rfl⟩

theorem ofRow_rowOf : ofRow (rowOf c lease expiry) = .ok (c.lock (some lease) (some expiry)) := rfl

end Row

/-- What lies there for a lock, and what it reads as: nothing, or a row with all columns. -/
inductive StoredAs (realm name : String) : Option Row → Option Lock → Prop
  | nothing : StoredAs realm name none none
  | row {row : Row} {c : Claim} {lease expiry : Int} (hr : c.realm = realm) (hn : c.name = name)
    (hw : Holds row c lease expiry) : StoredAs realm name (some row)
      (some (c.lock (some lease) (some expiry)))

/-- Every row is the row of a claim on the lock that it stands for. -/
def Good (s : Store) : Prop := ∀ k row, Assoc.find? s.rows k = some row →
  ∃ c lease expiry, row = rowOf c lease expiry ∧ k = (c.realm, c.name)

theorem Good.put {s : Store} (h : Good s) (c : Claim) (lease expiry : Int) :
    Good { s with rows := s.rows.put (c.realm, c.name) (rowOf c lease expiry) } := by
  intro k row hr
  simp only [Assoc.find?_put] at hr
  split at hr
  · rename_i hk; cases hr; exact ⟨c, lease, expiry, rfl, hk.symm⟩
  · exact h k row hr

theorem Good.erase {s : Store} (h : Good s) (k : String × String) :
    Good { s with rows := s.rows.erase k } := by
  intro k' row hr
  by_cases hk : k' = k
  · subst hk; simp only [Assoc.find?_erase_self] at hr; cases hr
  · simp only [Assoc.find?_erase_ne hk] at hr; exact h k' row hr

theorem Good.execute {s s' : Store} {statement : Statement} {row : Option Row} (h : Good s)
    (hx : s.execute statement = .ok (row, s')) : Good s' := by
  cases statement with
  | create | select => cases hx; exact h
  | selectExpired realm name clock =>
    simp only [Store.execute, bind, Except.bind, pure, Except.pure] at hx
    repeat' split at hx
    all_goals cases hx
    all_goals exact h
  | upsert claim lease expiry clock =>
    obtain ⟨c, hc, hx⟩ := ok_of_bind hx
    split at hx
    · cases hx; exact h.put c lease expiry
    · obtain ⟨expired, -, hx⟩ := ok_of_bind hx
      obtain ⟨held, -, hx⟩ := ok_of_bind hx
      split at hx <;> cases hx
      · exact h.put c lease expiry
      · exact h
  | extend claim delta clock =>
    obtain ⟨c, hc, hx⟩ := ok_of_bind hx
    cases hr : Assoc.find? s.rows (c.realm, c.name) with
    | none => rw [hr] at hx; cases hx; exact h
    | some w =>
      obtain ⟨c', lease', expiry', rfl, hk⟩ := h _ _ hr
      rw [hr] at hx
      obtain ⟨_, ⟨rfl⟩, hx⟩ := ok_of_bind hx
      obtain ⟨_, ⟨rfl⟩, hx⟩ := ok_of_bind hx
      obtain ⟨expired, -, hx⟩ := ok_of_bind hx
      obtain ⟨held, -, hx⟩ := ok_of_bind hx
      split at hx <;> cases hx
      · rw [hk]
        exact h.put c' (lease' + delta) (expiry' + delta)
      · exact h
  | delete claim clock =>
    obtain ⟨c, hc, hx⟩ := ok_of_bind hx
    split at hx
    · cases hx; exact h
    · obtain ⟨held, -, hx⟩ := ok_of_bind hx
      obtain ⟨expired, -, hx⟩ := ok_of_bind hx
      split at hx <;> cases hx
      · exact h.erase (c.realm, c.name)
      · exact h

theorem Good.storedAs (options : Options) {s : Store} (h : Good s) (realm name : String) :
    StoredAs realm name (Assoc.find? s.rows (realm, name))
      ((system options).record s (realm, name)) := by
  simp only [System.record]
  cases hf : Assoc.find? s.rows (realm, name) with
  | none => exact .nothing
  | some row =>
    obtain ⟨c, lease, expiry, rfl, hk⟩ := h _ _ hf
    cases hk
    exact .row rfl rfl (holds_rowOf c lease expiry)

/-! ### Statements -/

section Execute
variable {s : Store} {c : Claim} {op : Operation} {existing : Option Lock}

section Statement
variable (hl : StoredAs c.realm c.name (Assoc.find? s.rows (c.realm, c.name)) existing)
    (h : op.check = .ok c)
include hl h

theorem execute_upsert (hk : op.kind = .acquire) (lease expiry : Int) :
    s.execute (.upsert c lease expiry (.caller op.now)) =
      .ok (if op.permits existing then
        (some [("namespace", .text c.realm)],
          { s with rows := s.rows.put (c.realm, c.name) (rowOf c lease expiry) })
      else (none, s)) := by
  simp only [Operation.permits, hk]
  generalize hf : Assoc.find? s.rows (c.realm, c.name) = old at hl
  simp only [Store.execute, bound_raw, hf, bind, Except.bind, pure, Except.pure, Clock.time]
  cases hl with
  | nothing => rfl
  | @row row c' lease' expiry' hr hn hw =>
    simp only [hw.isExpired, hw.isHeldBy, Operation.owns_lock h hr hn, Claim.isGone_lock,
      Truth.or_some,
      Option.some.injEq]

theorem execute_extend (hk : op.kind = .renew) :
    (op.permits existing = false ∧ s.execute (.extend c op.delta (.caller op.now)) =
      .ok (none, s)) ∨
    op.permits existing = true ∧ ∃ row l, ofRow (shown row) = .ok l ∧
    op.renewed Lock.prolong existing = some l ∧
      s.execute (.extend c op.delta (.caller op.now)) =
        .ok (some (shown row), { s with rows := s.rows.put (c.realm, c.name) row }) := by
  simp only [Operation.permits, hk]
  generalize hf : Assoc.find? s.rows (c.realm, c.name) = old at hl
  simp only [Store.execute, bound_raw, hf, bind, Except.bind, pure, Except.pure, Clock.time]
  cases hl with
  | nothing => exact .inl ⟨rfl, rfl⟩
  | @row row c' lease expiry hr hn hw =>
    simp only [hw.isExpired, hw.isHeldBy, Operation.owns_lock h hr hn, Claim.isGone_lock,
      Operation.renewed, hk,
      cell_of_find? hw.lease, cell_of_find? hw.expiry, plus, Truth.not_some, Truth.and_some,
      Option.some.injEq]
    cases !decide (expiry < op.now) &&
      (decide (c.owner = c'.owner) && decide (c.instanceId = c'.instanceId)) with
    | false => exact .inl ⟨rfl, rfl⟩
    | true =>
      exact .inr ⟨rfl, _, _, (hw.extended (lease + op.delta) (expiry + op.delta)).shown.ofRow, rfl,
        rfl⟩

theorem execute_delete :
    (op.owns existing = false ∧ s.execute (.delete c (.caller op.now)) = .ok (none, s)) ∨
    op.owns existing = true ∧ s.execute (.delete c (.caller op.now)) =
      .ok (some [("expired", .bool (existing.any (·.isExpired op.now)))],
        { s with rows := s.rows.erase (c.realm, c.name) }) := by
  generalize hf : Assoc.find? s.rows (c.realm, c.name) = old at hl
  simp only [Store.execute, bound_raw, hf, bind, Except.bind, pure, Except.pure, Clock.time]
  cases hl with
  | nothing => exact .inl ⟨rfl, rfl⟩
  | @row row c' lease expiry hr hn hw =>
    simp only [hw.isExpired, hw.isHeldBy, Operation.owns_lock h hr hn, Truth.value_some,
      Option.some.injEq]
    cases decide (c.owner = c'.owner) && decide (c.instanceId = c'.instanceId) with
    | false => exact .inl ⟨rfl, rfl⟩
    | true => exact .inr ⟨rfl, rfl⟩

end Statement

/-- The row of the second statement of a release tells apart what is there. -/
theorem execute_selectExpired {realm name : String}
    (hl : StoredAs realm name (Assoc.find? s.rows (realm, name)) existing) (now : Int) :
    s.execute (.selectExpired realm name (.caller now)) =
      .ok (existing.map fun l => [("expired", .bool (l.isExpired now))], s) := by
  generalize hf : Assoc.find? s.rows (realm, name) = old at hl
  simp only [Store.execute, boundText, hf, bind, Except.bind, pure, Except.pure, Clock.time]
  cases hl with
  | nothing => rfl
  | row hr hn hw =>
    simp only [hw.isExpired, Truth.value_some]
    rfl

end Execute

/-! ### Operations -/

def terms (contention : Prop) : Terms interface Store Unit :=
  .plain client (fun _ => True) Good contention

theorem Good.client {s : Store} (h : Good s) (call : Call) : Good (client call s).2 := by
  unfold Table.client clientOf
  split
  · rename_i row s' hx; exact h.execute hx
  · exact h

section Obeys
variable {α : Type} {contention : Prop} {options : Options} {g : Unit} {s₀ s₁ s : Store}
    {op : Operation} {c : Claim}

theorem obeys_query {Q : Except Error (Option Row) → Unit → Store → Store → Prop}
    {statement : Statement} (hs : s₁ = s₀) (h : ∀ s, Good s → (¬contention → s = s₁) →
      ∃ row s', s.execute statement = .ok (row, s') ∧ Q (.ok row) g s s') :
    (query options statement).Obeys (terms contention) Q g s₀ s₁ := by
  refine obeys_ask_plain hs fun s hg hc => ⟨trivial, ?_⟩
  obtain ⟨row, s', hx, hQ⟩ := h s hg hc
  simp only [client, clientOf, hx]
  exact hQ

theorem obeys_guarded {Q : Except Error α → Unit → Store → Store → Prop} {event : String}
    {realm name : Value} {failed : α} {session : Session interface α}
    (h : session.Obeys (terms contention) (fun r g s₀ s₁ => ∃ a, r = .ok a ∧ Q r g s₀ s₁)
      g s₀ s₁) : (guarded event realm name failed session).Obeys (terms contention) Q g s₀ s₁ := by
  rw [guarded, Service.guarded, obeys_rescue]
  refine h.mono ?_
  rintro _ g s₀ s₁ ⟨a, rfl, hQ⟩
  exact hQ

theorem settles {v : Verdict} {s' : Store}
    (hs : ∀ k, k ≠ (c.realm, c.name) → Assoc.find? s'.rows k = Assoc.find? s.rows k)
    (h : op.Conforms Lock.prolong ((system options).record s (c.realm, c.name)) v
      ((system options).record s' (c.realm, c.name))) :
    (system options).Settles contention op c (.ok v) s s' where
  others := fun k hk => by simp only [System.record, hs k hk]
  ends := fun _ => .ruled h fun _ _ _ => trivial

theorem settles_put {v : Verdict} {l : Lock} {row : Row} (hl : ofRow (shown row) = .ok l)
    (h : op.Conforms Lock.prolong ((system options).record s (c.realm, c.name)) v (some l)) :
    (system options).Settles contention op c (.ok v) s
      { s with rows := s.rows.put (c.realm, c.name) row } := by
  refine settles (fun _ hk => Assoc.find?_put_ne (Ne.symm hk) s.rows row) ?_
  simp only [System.record, Assoc.find?_put_self, Option.bind_some, hl, Except.toOption]
  exact h

theorem settles_erase {v : Verdict}
    (h : op.Conforms Lock.prolong ((system options).record s (c.realm, c.name)) v none) :
    (system options).Settles contention op c (.ok v) s
      { s with rows := s.rows.erase (c.realm, c.name) } := by
  refine settles (fun _ hk => Assoc.find?_erase_ne hk s.rows) ?_
  simp only [System.record, Assoc.find?_erase_self, Option.bind_none]
  exact h

theorem obeys_acquire (hclock : options.useServerTime = false) (h : op.check = .ok c)
    (hk : op.kind = .acquire) (s : Store) :
    (op.attempt (service options) c).Obeys (terms contention)
      (fun r _ => (system options).Settles contention op c r) () s s := by
  simp only [Operation.attempt, hk, service, acquire, obeys_bind, Options.clock, hclock,
    Bool.false_eq_true, if_false]
  refine obeys_guarded ?_
  rw [bind_eq, obeys_bind]
  refine obeys_query rfl fun s hg _ => ⟨_, _, execute_upsert (hg.storedAs options _ _) h hk _ _, ?_⟩
  cases hp : op.permits ((system options).record s (c.realm, c.name)) with
  | true =>
    refine ⟨_, rfl, settles_put (holds_rowOf _ _ _).shown.ofRow ?_⟩
    rw [Operation.acquire_request h hk]
    exact Operation.conforms_taken hk hp rfl rfl
  | false =>
    refine ⟨_, rfl, settles (fun _ _ => rfl) ?_⟩
    exact Operation.conforms_refused hp (by rw [hk]; rfl) rfl

theorem obeys_renew (hclock : options.useServerTime = false) (h : op.check = .ok c)
    (hk : op.kind = .renew) (s : Store) : (op.attempt (service options) c).Obeys (terms contention)
      (fun r _ => (system options).Settles contention op c r) () s s := by
  simp only [Operation.attempt, hk, service, renew, Options.clock, hclock,
    Bool.false_eq_true, if_false]
  refine obeys_guarded ?_
  rw [bind_eq, obeys_bind]
  refine obeys_query rfl fun s hg _ => ?_
  rcases execute_extend (hg.storedAs options _ _) h hk with ⟨hp, hx⟩ | ⟨hp, row, l, hl, hr, hx⟩
  · refine ⟨_, _, hx, _, rfl, settles (fun _ _ => rfl) ?_⟩
    exact Operation.conforms_refused hp (by rw [hk]; rfl) rfl
  · refine ⟨_, _, hx, ?_⟩
    show ((ofReading (ofRow (shown row))).bind fun l => done (Outcome.renewed, some l)).Obeys _ _ _
      _ _
    rw [hl]
    refine ⟨_, rfl, settles_put hl ?_⟩
    rw [← hr]
    exact Operation.conforms_renewed hk hp

/-- A release deletes the caller's row, expired or not, and otherwise finds out by a second
statement what is there. -/
theorem obeys_release (hclock : options.useServerTime = false) (h : op.check = .ok c)
    (hk : op.kind = .release) (s : Store) :
    (op.attempt (service options) c).Obeys (terms contention)
      (fun r _ => (system options).Settles contention op c r) () s s := by
  simp only [Operation.attempt, hk, service, release, obeys_bind, Options.clock, hclock,
    Bool.false_eq_true, if_false]
  refine obeys_guarded ?_
  rw [bind_eq, obeys_bind]
  refine obeys_query rfl fun s hg _ => ?_
  rcases execute_delete (hg.storedAs options _ _) h with ⟨ho, hx⟩ | ⟨ho, hx⟩
  · refine ⟨_, _, hx, ?_⟩
    dsimp only
    rw [bind_eq, obeys_bind]
    refine obeys_query rfl fun s' hg' hs =>
      ⟨_, _, execute_selectExpired (hg'.storedAs options _ _) op.now, ?_⟩
    have hends := @System.Ends.classified (system options) contention op
      ((system options).record s' (c.realm, c.name)) hk fun hn => by rw [hs hn]; exact ho
    cases hr : (system options).record s' (c.realm, c.name) with
    | none =>
      refine ⟨_, rfl, fun _ _ => rfl, fun _ => ?_⟩
      rw [hr] at hends ⊢
      exact hends
    | some l =>
      refine ⟨_, rfl, fun _ _ => rfl, fun _ => ?_⟩
      rw [hr] at hends ⊢
      exact hends
  · refine ⟨_, _, hx, ?_⟩
    have hp : op.permits ((system options).record s (c.realm, c.name)) = true := by
      simp only [Operation.permits, hk, ho, Bool.or_true]
    cases hgone : ((system options).record s (c.realm, c.name)).any (·.isExpired op.now) with
    | true => exact ⟨_, rfl, settles_erase (Operation.conforms_freed hk hp rfl rfl (.inl rfl))⟩
    | false => exact ⟨_, rfl, settles_erase (Operation.conforms_freed hk hp rfl rfl (.inl rfl))⟩

theorem obeys_find (realm name : String) (s : Store) :
    (find options realm name).Obeys (terms contention)
      (fun r _ s s' => r = .ok ((system options).record s (realm, name)) ∧
      (system options).record s' = (system options).record s) () s s := by
  rw [find]
  refine obeys_guarded ?_
  rw [bind_eq, obeys_bind]
  refine obeys_query rfl fun s hg _ => ⟨_, _, rfl, ?_⟩
  have hl := hg.storedAs options realm name
  generalize hrecord : (system options).record s (realm, name) = existing at hl
  generalize Assoc.find? s.rows (realm, name) = old at hl
  cases hl with
  | nothing => exact ⟨_, rfl, by rw [hrecord], rfl⟩
  | row hr hn hw =>
    dsimp only [Option.map_some]
    rw [hw.shown.ofRow]
    exact ⟨_, rfl, by rw [hrecord], rfl⟩

end Obeys

theorem good_sweep {options : Options} {t : Int} {s s' : Store} (h : Good s)
    (hs : (system options).Sweep t s s') :
    Good s' :=
  fun _ _ hr => hs.all h hr

def laws {options : Options} (hclock : options.useServerTime = false) : (system options).Laws where
  Token := Unit
  terms := terms
  good := Good
  good_eq := fun _ => rfl
  seen := fun _ _ => trivial
  sound := fun _ => Terms.plain_sound fun hg _ => hg.client _
  fair := fun _ => Terms.plain_fair fun hg _ => hg.client _
  extend := fun _ _ _ => ⟨_, _, rfl⟩
  extend_live := fun _ _ => rfl
  client_mem := fun _ => rfl
  losses_mem := nofun
  passes_refl := fun _ => trivial
  slot_inj := fun _ _ h => Prod.mk.inj h
  writable_of_fits := fun _ _ _ => trivial
  good_empty := nofun
  record_empty := fun _ => rfl
  record_of_silent := fun h => congrArg (system options).record h
  good_sweep := good_sweep
  admits_sweep := fun _ _ _ _ hs => Terms.plain_admits fun hg => good_sweep hg hs
  attempt := by
    intro contention op c h s
    cases hk : op.kind with
    | acquire => exact obeys_acquire hclock h hk s
    | renew => exact obeys_renew hclock h hk s
    | release => exact obeys_release hclock h hk s
  find := fun _ realm name s => obeys_find realm name s

end Leasehold.Table
