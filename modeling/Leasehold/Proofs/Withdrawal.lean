import Leasehold.Proofs.Execution.Items
import Leasehold.Proofs.Execution.Table
import Leasehold.Proofs.Session.Interference

/-!
# Releases in two steps

Conditional items and an SQL table are released by a conditional deletion, and when nothing was
deleted by a look at what is there. The two are calls of their own, so the lock may be given back,
run out or be taken again in between. `release_in_two_steps` says what of the release is still true
then, whatever the others do and whatever is stored: the deletion is the only call that changes
anything, it takes away nothing but the claimant's own record, and a release that says so has seen
an instant at which the lock was not held.
-/

namespace Leasehold
open Session

theorem Lock.holder_of_ofFields {w : Value.Fields} {l : Lock} (h : ofFields w = .ok l) :
    l.owner = identity ((Assoc.find? w "owner").getD .null) ∧
      l.instanceId = identity ((Assoc.find? w "instanceId").getD .null) := by
  simp only [ofFields, bind, Except.bind, pure, Except.pure] at h
  repeat' split at h
  all_goals cases h
  exact ⟨rfl, rfl⟩

namespace System
variable (S : System)

/-- The record of the lock is taken away, which was the claimant's, and no other. -/
structure Removes (c : Claim) (s s' : S.Store) : Prop where
  own : ∃ w, S.raw s (S.slot c.realm c.name) = some w ∧
    ∀ l, S.read w = .ok l → l.owner = some c.owner ∧ l.instanceId = some c.instanceId
  gone : S.raw s' (S.slot c.realm c.name) = none
  others : ∀ k, k ≠ S.slot c.realm c.name → S.raw s' k = S.raw s k

/-- In the slot of the lock there is no record that is active at `now`. -/
def Vacant (holds : S.Raw → Claim → (lease expiry : Int) → Prop) (c : Claim) (now : Int)
    (s : S.Store) : Prop :=
  ∀ w c' lease expiry, S.raw s (S.slot c.realm c.name) = some w →
    holds w c' lease expiry → expiry < now

/-- The course of a release, by its exchanges with the store: a deletion, and a look when nothing
was deleted. -/
structure TwoSteps (holds : S.Raw → Claim → (lease expiry : Int) → Prop)
    (deletion look : S.I.Call) (c : Claim) (now : Int) (r : Except Error Answer)
    (ms : List (Exchange S.I S.Store)) : Prop where
  calls : ms.map (·.call) = [deletion] ∨ ms.map (·.call) = [deletion, look]
  removes : ∀ m ∈ ms, m.after = m.before ∨ m.call = deletion ∧ S.Removes c m.before m.after
  looks : ms.length = 2 → ∀ m ∈ ms, m.after = m.before
  vacates : ∀ a, r = .ok a → a.success = some true → ∃ m, ms.getLast? = some m ∧
    S.Vacant holds c now m.after

variable {S} {holds : S.Raw → Claim → (lease expiry : Int) → Prop} {deletion look : S.I.Call}
  {c : Claim} {now : Int} {r : Except Error Answer} {m n : Exchange S.I S.Store}

theorem Removes.vacant {s s' : S.Store} (h : S.Removes c s s') : S.Vacant holds c now s' := by
  intro w c' lease expiry hw
  rw [h.gone] at hw
  cases hw

namespace TwoSteps

theorem deleted (hm : m.call = deletion) (h : S.Removes c m.before m.after) :
    S.TwoSteps holds deletion look c now r [m] where
  calls := .inl (congrArg (fun call => [call]) hm)
  removes := by
    intro m' hm'
    obtain rfl := List.mem_singleton.mp hm'
    exact .inr ⟨hm, h⟩
  looks := nofun
  vacates := fun _ _ _ => ⟨m, rfl, h.vacant⟩

theorem failed (hm : m.call = deletion) (h : m.after = m.before)
    (hr : ∀ a, r = .ok a → a.success ≠ some true) :
    S.TwoSteps holds deletion look c now r [m] where
  calls := .inl (congrArg (fun call => [call]) hm)
  removes := by
    intro m' hm'
    obtain rfl := List.mem_singleton.mp hm'
    exact .inl h
  looks := nofun
  vacates := fun a ha hs => absurd hs (hr a ha)

theorem looked (hm : m.call = deletion) (h : m.after = m.before) (hn : n.call = look)
    (h' : n.after = n.before)
    (hr : ∀ a, r = .ok a → a.success = some true → S.Vacant holds c now n.after) :
    S.TwoSteps holds deletion look c now r [m, n] := by
  have hsilent : ∀ m' ∈ [m, n], m'.after = m'.before := by
    intro m' hm'
    simp only [List.mem_cons, List.not_mem_nil, or_false] at hm'
    rcases hm' with rfl | rfl
    exacts [h, h']
  refine ⟨.inr ?_, fun m' hm' => .inl (hsilent m' hm'), fun _ => hsilent,
    fun a ha hs => ⟨n, rfl, hr a ha hs⟩⟩
  rw [List.map_cons, List.map_singleton, hm, hn]

end TwoSteps

end System

theorem Operation.not_succeeded_recovered {op : Operation} {answers : Error → Bool}
    {e : Error} {a : Answer}
    (h : recovered answers (op.answer (op.kind.failed, none)) (.error e) = .ok a) :
    a.success ≠ some true := by
  rcases recovered_ok h with h | rfl
  · cases h
  · rw [answer, Answer.success_ofOutcome]
    cases op.kind <;> rintro ⟨⟩

theorem Decision.isGone_of_refused_release {existing : Option Lock} {now : Int}
    (h : (afterRefusedRelease existing now).isSuccess = true) :
    Lock.isGone existing now = true := by
  cases existing with
  | none => rfl
  | some l =>
    by_contra hl
    simp only [afterRefusedRelease, Lock.isGone, Option.all_some] at h hl
    rw [if_neg hl] at h
    cases h

/-! ### Conditional items -/

namespace Items
variable {options : Options} {op : Operation} {c : Claim}

theorem find?_of_equals {w : Item} {field t : String}
    (h : (Condition.equals field (.text t)).holds w = true) :
    Assoc.find? w field = some (.text t) := by
  simp only [Condition.holds, compare] at h
  split at h
  · rename_i v hv
    rw [sameValue_text] at h
    rw [hv, of_decide_eq_true h]
  · cases h

theorem removes {s : Store} (h : (heldBy c).holds ((Assoc.find? s c.key).getD []) = true) :
    (system options).Removes c s (Assoc.erase s c.key) where
  own := by
    obtain ⟨ho, hi⟩ := Bool.and_eq_true_iff.mp h
    replace ho := find?_of_equals ho
    replace hi := find?_of_equals hi
    cases hw : Assoc.find? s c.key with
    | none => rw [hw] at ho; cases ho
    | some w =>
      rw [hw] at ho hi
      refine ⟨w, hw, fun l hl => ?_⟩
      obtain ⟨howner, hinstance⟩ := Lock.holder_of_ofFields hl
      rw [howner, hinstance, show Assoc.find? w "owner" = _ from ho,
        show Assoc.find? w "instanceId" = _ from hi]
      exact ⟨rfl, rfl⟩
  gone := Assoc.find?_erase_self ..
  others := fun k hk => Assoc.find?_erase_ne hk s

theorem ensures_look {m : Exchange interface Store} {s : Store}
    (hm : m.call = .delete c.key (heldBy c)) (hb : m.before = s) (ha : m.after = s) :
    Ensures (interfered (troubled {client} fun _ => True) fun _ _ => True)
      (fun r p => (system options).TwoSteps Holds
        (.delete c.key (heldBy c)) (.get c.key) c op.now (recovered (Service.answersFor answered)
          (op.answer (op.kind.failed, none)) ((r.map fun o => (o, none)).map op.answer)) p.2)
      ((getItem c.key).bind fun existing => done (Decision.afterRefusedRelease existing op.now))
        (s, [m]) := by
  have h : m.after = m.before := ha.trans hb.symm
  rw [ensures_map, getItem, bind_eq, ensures_bind]
  refine .ask_interfered ?_
  rw [forall_troubled]
  constructor
  · rintro _ rfl t -
    show Ensures _ _ (ofReading (ofItem (part (response "Item" (Assoc.find? t c.key)) "Item"))) _
    rw [ofItem_part, ensures_ofReading]
    refine .looked hm h rfl rfl fun a ha hs => ?_
    cases hr : reading (Assoc.find? t c.key) with
    | error f =>
      rw [hr] at ha
      exact absurd hs (Operation.not_succeeded_recovered ha)
    | ok existing =>
      rw [hr] at ha
      obtain rfl := Except.ok.inj ha
      rw [Operation.answer, Answer.success_ofOutcome, Option.some.injEq] at hs
      have hgone := Decision.isGone_of_refused_release hs
      intro w c' lease expiry hw hholds
      rw [show Assoc.find? t c.key = some w from hw, reading, hholds.ofItem] at hr
      cases hr
      exact of_decide_eq_true hgone
  · rintro f - t -
    exact .looked hm h rfl rfl fun a ha hs => absurd hs (Operation.not_succeeded_recovered ha)

theorem ensures_twoSteps (hk : op.kind = .release) (h : op.check = .ok c) (s : Store) :
    Ensures (interfered (troubled {client} fun _ => True) fun _ _ => True)
      (fun r p => (system options).TwoSteps Holds
        (.delete c.key (heldBy c)) (.get c.key) c op.now r p.2)
      (op.session (service options)) (s, []) := by
  rw [Operation.ensures_session _ h]
  have hattempt : op.attempt (service options) c = (release c op.now).bind fun o =>
    done (o, none) := by
    rw [Operation.attempt, hk]
    rfl
  have hfailed : (Outcome.releaseError, (none : Option Lock)) = (op.kind.failed, none) := by
    rw [hk]; rfl
  simp only [hattempt, release, Claim.key_raw, guarded, ensures_map, Service.ensures_guarded,
    recovered_map, hfailed]
  refine .call_interfered ?_
  rw [forall_troubled]
  constructor
  · rintro _ rfl t -
    by_cases hheld : (heldBy c).holds ((Assoc.find? t c.key).getD []) = true
    · have hdelete : client (.delete c.key (heldBy c)) t =
          (.ok (response "Attributes" (Assoc.find? t c.key)), Assoc.erase t c.key) := if_pos hheld
      have hremoves : (system options).Removes c t (client (.delete c.key (heldBy c)) t).2 := by
        rw [hdelete]
        exact removes hheld
      rw [hdelete]
      dsimp only
      rw [ensures_ofReading]
      exact .deleted rfl hremoves
    · have hdelete : client (.delete c.key (heldBy c)) t = (.error (refusal conditionFailed), t) :=
        if_neg hheld
      rw [hdelete]
      exact ensures_look rfl rfl (congrArg Prod.snd hdelete)
  · rintro f - t -
    dsimp only [failing]
    split
    · exact ensures_look rfl rfl rfl
    · exact ensures_fail.mpr (.failed rfl rfl fun a => Operation.not_succeeded_recovered)

end Items

/-! ### SQL tables -/

namespace Table
variable {options : Options} {op : Operation} {c : Claim} {now : Int}

theorem eq_of_isText {v : Value} {t : String} (h : isText v t = .ok (some true)) : v = .text t := by
  cases v with
  | text s => rw [of_decide_eq_true (Option.some.inj (Except.ok.inj h))]
  | _ => cases h

theorem Truth.and_eq_true {a b : Truth} (h : a.and b = some true) :
    a = some true ∧ b = some true := by
  revert h
  cases a <;> cases b <;> decide +revert

theorem cells_of_isHeldBy {row : Row} (h : isHeldBy row c = .ok (some true)) :
    cell row "owner" = .text c.owner ∧ cell row "instance_id" = .text c.instanceId := by
  obtain ⟨owner, ho, h⟩ := ok_of_bind h
  obtain ⟨instanceId, hi, h⟩ := ok_of_bind h
  obtain ⟨rfl, rfl⟩ := Truth.and_eq_true (Except.ok.inj h)
  exact ⟨eq_of_isText ho, eq_of_isText hi⟩

theorem column_shown {name : String} (h : name ∈ columnNames) (row : Row) :
    column (shown row) name = .ok (cell row name) := by
  rw [column, Lock.demand, find?_shown h]

theorem holder_of_ofRow {row : Row} {l : Lock} (hl : ofRow (shown row) = .ok l)
    (h : isHeldBy row c = .ok (some true)) :
    l.owner = some (.text c.owner) ∧ l.instanceId = some (.text c.instanceId) := by
  obtain ⟨ho, hi⟩ := cells_of_isHeldBy h
  simp only [ofRow, column_shown (by decide : "owner" ∈ columnNames),
    column_shown (by decide : "instance_id" ∈ columnNames),
    ho, hi, bind, Except.bind, pure, Except.pure] at hl
  repeat' split at hl
  all_goals cases hl
  exact ⟨rfl, rfl⟩

theorem removes {s s' : Store} {clock : Clock} {row : Row}
    (h : s.execute (.delete c clock) = .ok (some row, s')) :
    (system options).Removes c s s' := by
  simp only [Store.execute, bound_raw, ok_bind] at h
  split at h
  · cases h
  · rename_i w hw
    obtain ⟨held, hheld, h⟩ := ok_of_bind h
    obtain ⟨expired, -, h⟩ := ok_of_bind h
    split at h
    · rename_i hown
      cases h
      rw [hown] at hheld
      exact ⟨⟨w, hw, fun l hl => holder_of_ofRow hl hheld⟩, Assoc.find?_erase_self ..,
        fun k hk => Assoc.find?_erase_ne hk _⟩
    · cases h

theorem vacant_of_classified {s s' : Store} {row : Option Row} {v : Verdict}
    (h : s.execute (.selectExpired c.realm c.name (.caller now)) = .ok (row, s'))
    (hv : classified row = .ok v) (hs : v.1.isSuccess = true) :
    (system options).Vacant Holds c now s := by
  intro w c' lease expiry hw hholds
  simp only [Store.execute, boundText, ok_bind, show s.rows.find? (c.realm, c.name) =
    some w from hw, hholds.isExpired,
    Truth.value_some, Clock.time] at h
  cases h
  simp only [classified, expiredFlag_bool, Except.map, Except.ok.injEq] at hv
  subst hv
  by_contra hx
  simp only [hx, decide_false] at hs
  cases hs

/-- The look at what is there, after a deletion that changed nothing. -/
theorem ensures_look {m : Exchange interface Store} {s : Store} {deletion : Call}
    (hm : m.call = deletion) (hb : m.before = s) (ha : m.after = s) :
    Ensures (interfered (troubled {client} fun _ => True) fun _ _ => True)
      (fun r p => (system options).TwoSteps Holds deletion
        ⟨options.table, .selectExpired c.realm c.name (.caller op.now)⟩ c op.now
          (recovered (Service.answersFor answered)
          (op.answer (op.kind.failed, none)) (r.map op.answer)) p.2)
      ((query options (.selectExpired c.realm c.name (.caller op.now))).bind fun row =>
        (ofReading (classified row)).bind fun v => done (id v)) (s, [m]) := by
  have h : m.after = m.before := ha.trans hb.symm
  rw [ensures_bind]
  refine .ask_interfered ?_
  rw [forall_troubled]
  constructor
  · rintro _ rfl t -
    cases hx : t.execute (.selectExpired c.realm c.name (.caller op.now)) with
    | error f =>
      have hsilent : (exchange client
        ⟨options.table, .selectExpired c.realm c.name (.caller op.now)⟩ t).after = t :=
        congrArg Prod.snd (client_of_error hx)
      rw [client, client_of_error hx]
      exact .looked hm h rfl hsilent fun a ha hs => absurd hs (Operation.not_succeeded_recovered ha)
    | ok p =>
      obtain ⟨row, t'⟩ := p
      obtain ⟨rfl, v, hv⟩ := classified_of_selectExpired hx
      have hsilent : (exchange client
        ⟨options.table, .selectExpired c.realm c.name (.caller op.now)⟩ t').after = t' :=
        congrArg Prod.snd (client_of_ok hx)
      rw [client, client_of_ok hx]
      show Ensures _ _ ((ofReading (classified row)).bind fun v => done (id v)) _
      rw [hv]
      refine ensures_done.mpr (.looked hm h rfl hsilent fun a ha hs => ?_)
      obtain rfl := Except.ok.inj ha
      rw [Operation.answer, Answer.success_ofOutcome, Option.some.injEq] at hs
      rw [hsilent]
      exact vacant_of_classified hx hv hs
  · rintro f - t -
    exact .looked hm h rfl rfl fun a ha hs => absurd hs (Operation.not_succeeded_recovered ha)

theorem ensures_twoSteps (hclock : options.useServerTime = false) (hk : op.kind = .release)
    (h : op.check = .ok c) (s : Store) :
    Ensures (interfered (troubled {client} fun _ => True) fun _ _ => True) (fun r p =>
        (system options).TwoSteps Holds ⟨options.table, .delete c (.caller op.now)⟩
          ⟨options.table, .selectExpired c.realm c.name (.caller op.now)⟩ c op.now r p.2)
      (op.session (service options)) (s, []) := by
  have hclock : options.clock op.now = .caller op.now := by
    rw [Options.clock, hclock, if_neg Bool.false_ne_true]
  rw [Operation.ensures_session _ h, attempt_eq_release hk, statement_release options c hk, hclock]
  simp only [guarded, Service.ensures_guarded, recovered_map]
  rw [ensures_bind]
  refine .ask_interfered ?_
  rw [forall_troubled]
  constructor
  · rintro _ rfl t -
    cases hx : t.execute (.delete c (.caller op.now)) with
    | error f =>
      have hsilent : (exchange client ⟨options.table, .delete c (.caller op.now)⟩ t).after = t :=
        congrArg Prod.snd (client_of_error hx)
      rw [client, client_of_error hx]
      exact .failed rfl hsilent fun a => Operation.not_succeeded_recovered
    | ok p =>
      obtain ⟨row, t'⟩ := p
      have hafter : (exchange client ⟨options.table, .delete c (.caller op.now)⟩ t).after = t' :=
        congrArg Prod.snd (client_of_ok hx)
      rw [client, client_of_ok hx]
      cases row with
      | none =>
        obtain rfl := execute_none hx
        exact ensures_look rfl rfl hafter
      | some row =>
        refine ensures_ofReading.mpr (.deleted rfl ?_)
        rw [hafter]
        exact removes hx
  · rintro f - t -
    exact .failed rfl rfl fun a => Operation.not_succeeded_recovered

end Table

/-- A release that deletes and then looks, whatever the others do between its calls and whatever
goes wrong. -/
theorem release_in_two_steps {op : Operation} {c : Claim} (hk : op.kind = .release)
    (h : op.check = .ok c) :
    (∀ (options : Items.Options) (s : Items.Store),
      Ensures (interfered (troubled {Items.client} fun _ => True) fun _ _ => True)
        (fun r p => (Items.system options).TwoSteps Items.Holds (.delete c.key (Items.heldBy c))
          (.get c.key) c op.now r
          p.2)
        (op.session (Items.service options)) (s, [])) ∧
    ∀ (options : Table.Options) (s : Table.Store), options.useServerTime = false →
      Ensures (interfered (troubled {Table.client} fun _ => True) fun _ _ => True)
        (fun r p => (Table.system options).TwoSteps Table.Holds
          ⟨options.table, .delete c (.caller op.now)⟩
          ⟨options.table, .selectExpired c.realm c.name (.caller op.now)⟩ c op.now r p.2)
        (op.session (Table.service options)) (s, []) :=
  ⟨fun _ => Items.ensures_twoSteps hk h, fun _ s hclock => Table.ensures_twoSteps hclock hk h s⟩

/-- The holder gives the lock back while somebody else is refused its release, and the refused one
finds nothing. -/
theorem release_in_two_steps_raced :
    let ada : Claim := ⟨"jobs", "nightly", "ada", "one"⟩
    let bob : Claim := ⟨"jobs", "nightly", "bob", "two"⟩
    let op : Operation := ⟨.release, ada.record none none, 5⟩
    let held : Items.Store := [(bob.key, Items.itemOf {} (bob.lock (some 10) (some 15)))]
    let freed :=
      ((Operation.session ⟨.release, bob.record none none, 5⟩ (Items.service {})).run Items.client
        held []).store
    let ms := [exchange Items.client (.delete ada.key (Items.heldBy ada)) held,
      exchange Items.client (.get ada.key) freed]
    op.kind = .release ∧ op.check = .ok ada ∧
      Exec (interfered (troubled {Items.client} fun _ => True) fun _ _ => True)
        (op.session (Items.service {})) (held, [])
        (.ok (op.answer (.releasedNotFound, none))) (freed, ms) ∧
      (Items.system {}).TwoSteps Items.Holds (.delete ada.key (Items.heldBy ada))
        (.get ada.key) ada 5
        (.ok (op.answer (.releasedNotFound, none))) ms := by
  intro ada bob op held freed ms
  have hcheck : op.check = .ok ada := rfl
  have hclient : Items.client ∈ troubled {Items.client} fun _ => True := .inl rfl
  have hattempt : op.attempt (Items.service {}) ada = (Items.release ada op.now).bind fun o =>
    done (o, none) := rfl
  have hrefused : Items.client (.delete (RawClaim.key ada) (Items.heldBy ada)) held =
      (.error (Items.refusal Items.conditionFailed), held) := rfl
  have hfound : Items.client (.get (RawClaim.key ada)) freed = (.ok [], freed) := rfl
  have hrun : Exec (interfered (troubled {Items.client} fun _ => True) fun _ _ => True)
    (op.session (Items.service {}))
      (held, []) (.ok (op.answer (.releasedNotFound, none))) (freed, ms) := by
    rw [op.session_of_check _ hcheck, hattempt]
    refine .call_interfered hclient (fun _ => held) (fun _ => trivial) ?_
    dsimp only
    rw [hrefused]
    refine .call_interfered hclient (fun _ => freed) (fun _ => trivial) ?_
    dsimp only
    rw [hfound]
    exact .amend (.note (.done _ _))
  exact ⟨rfl, hcheck, hrun, (release_in_two_steps rfl hcheck).1 {} held _ _ hrun⟩

end Leasehold
