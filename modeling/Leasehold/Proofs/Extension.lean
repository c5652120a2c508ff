import Leasehold.Proofs.Holding
import Leasehold.Proofs.ReadBack

/-!
# How far a renewal goes

A renewal adds to the lease and to the expiry that are stored. Items and rows are moved by the
store. The other services read the record and put a new one, and there an expiry of zero counts for
none: such a renewal goes on from the clock (`Backend.origin`). With a clock that is not negative
that is the same, since a lock with an expiry of zero is live at zero at the latest; with a clock
before the epoch it is not (`not_renewal_extends`).
-/

namespace Leasehold
open Session

namespace Operation
variable {op : Operation} {c : Claim} {lease expiry : Int}

/-- When the operation succeeds, its record is that of the claim with `delta` added to the lease and
to the time `origin`. -/
def Extends (op : Operation) (c : Claim) (lease origin : Int) (r : Except Error Verdict) : Prop :=
  ∀ v, r = .ok v → v.1.isSuccess = true →
    v.2 = some (c.lock (some (lease + op.delta)) (some (origin + op.delta)))

theorem Extends.of_unsuccessful {r : Except Error Verdict} (h : Unsuccessful r) :
    op.Extends c lease expiry r := by
  intro v hv hs
  rw [h v hv] at hs
  cases hs

theorem Extends.of_failed : op.Extends c lease expiry (.ok (op.kind.failed, none)) :=
  .of_unsuccessful (by rintro _ ⟨rfl⟩; cases op.kind <;> rfl)

theorem Extends.of_ruled {W : Lock → Prop} {r : Except Error Verdict} (hk : op.kind = .renew)
    (h : op.Ruled (some (c.lock (some lease) (some expiry))) W r) :
    op.Extends c lease (if expiry = 0 then op.now else expiry) r := by
  rintro v rfl hs
  obtain rfl := h.eq_decide hs
  have hp : op.permits (some (c.lock (some lease) (some expiry))) = true :=
    (isSuccess_decide _).symm.trans hs
  rw [renewed_decide, if_pos hp, renewed, hk]
  rfl

end Operation

section Stores
variable {op : Operation} {c : Claim} {lease expiry : Int}

theorem Memory.ensures_extends {s : Store} (hk : op.kind = .renew) (h : op.check = .ok c)
    (hf : Assoc.find? s c.key = some (c.lock (some lease) (some expiry))) :
    Ensures {client} (fun r _ => op.Extends c lease (if expiry = 0 then op.now else expiry) r)
      (op.attempt service c) s := by
  refine (ensures_ruled h).mono fun r _ hr => ?_
  rw [hf] at hr
  exact .of_ruled hk hr

theorem KeyValue.ensures_extends {options : Options} {s : Store} {e : Entry} (hk : op.kind = .renew)
    (h : op.check = .ok c) (hf : s.entries.find? (keyOf options c.realm c.name) = some e)
    (hm : e.modified ≠ 0) (ht : Holds e.value (c.lock (some lease) (some expiry))) :
    Ensures {client} (fun r _ => op.Extends c lease (if expiry = 0 then op.now else expiry) r)
      (op.attempt (service options) c) s := by
  refine (ensures_ruled h hf hm).mono fun r _ hr => ?_
  rcases ht.reads (c.isRecord_lock _ _) with hl | ⟨f, hl⟩
  · rw [hl] at hr
    exact .of_ruled hk hr
  · rw [hl] at hr
    obtain rfl := hr
    exact .of_failed

theorem Documents.ensures_extends {options : Options} {s : Store} {data : Value.Fields}
    (hk : op.kind = .renew) (h : op.check = .ok c)
    (hf : Assoc.find? s (pathOf options c.realm c.name) = some data)
    (hl : Lock.ofFields data = .ok (c.lock (some lease) (some expiry))) :
    Ensures {client} (fun r _ => op.Extends c lease (if expiry = 0 then op.now else expiry) r)
      (op.attempt (service options) c) s :=
  (ensures_ruled h hl hf).mono fun _ _ hr => .of_ruled hk hr

/-- The table moves what the row holds, by whichever clock it decides. -/
theorem Table.execute_extend_holds {s : Store} {row : Row}
    (hf : Assoc.find? s.rows (c.realm, c.name) = some row) (hw : Holds row c lease expiry)
    (delta : Int) (clock : Clock) : s.execute (.extend c delta clock) = .ok (none, s) ∨
      ∃ row' s', Holds row' c (lease + delta) (expiry + delta) ∧ s.execute (.extend c delta clock) =
        .ok (some row', s') := by
  simp only [Store.execute, bound_raw, ok_bind, hf, cell_of_find? hw.lease, cell_of_find? hw.expiry,
    plus, hw.isExpired,
    hw.isHeldBy, Truth.not_some, Truth.and_some, decide_true, Bool.and_self, Bool.and_true]
  cases decide (expiry < clock.time s) with
  | true => exact .inl rfl
  | false => exact .inr ⟨_, _, (hw.extended (lease + delta) (expiry + delta)).shown, rfl⟩

theorem Table.ensures_extends {options : Options} {s : Store} {row : Row} (hk : op.kind = .renew)
    (hf : Assoc.find? s.rows (c.realm, c.name) = some row) (hw : Holds row c lease expiry) :
    Ensures {client} (fun r _ => op.Extends c lease expiry r)
      (op.attempt (service options) c) s := by
  refine Ensures.of_subset (subset_troubled {client} fun _ => False) ?_
  rw [ensures_statement (by rw [hk]; decide)]
  refine ⟨?_, nofun⟩
  simp only [statement, hk]
  rcases execute_extend_holds hf hw op.delta (options.clock op.now) with hx | ⟨row', s', hw', hx⟩
  · rw [hx]
    simp only [verdict, hk]
    rintro _ ⟨rfl⟩ ⟨⟩
  · rw [hx]
    simp only [verdict, hk, hw'.ofRow]
    rintro _ ⟨rfl⟩ -
    rfl

theorem Items.ensures_extends {options : Options} {s : Store} {w : Item} (hsep : options.Separate)
    (hk : op.kind = .renew) (h : op.check = .ok c) (hf : Assoc.find? s c.key = some w)
    (hw : Holds w c lease expiry) :
    Ensures {client} (fun r _ => op.Extends c lease expiry r)
      (op.attempt (service options) c) s := by
  refine Ensures.of_subset (subset_troubled {client} fun _ => False) ?_
  have hrelease : op.kind ≠ .release := by rw [hk]; decide
  rw [ensures_write h hrelease]
  refine ⟨?_, nofun⟩
  obtain ⟨w', hx, hw'⟩ := holds_extension hsep hw op.delta
  cases hc : commits options op c s with
  | none =>
    obtain ⟨code, -, he⟩ := client_write_of_none hc
    have hfailed := (unsuccessful_concluded op (.error (refusal code))).mpr ⟨_, rfl⟩
    rw [concluded, if_neg hrelease] at hfailed
    rw [readBack, he]
    exact .of_unsuccessful hfailed
  | some p =>
    obtain ⟨item, s'⟩ := p
    rw [readBack_of_some hc]
    simp only [commits, hk, hf, Option.getD_some, hx, Option.map_some,
      Option.ite_none_right_eq_some, Option.some.injEq,
      Prod.mk.injEq] at hc
    obtain ⟨-, -, rfl, -⟩ := hc
    simp only [reading, hw'.ofItem, Except.map, verdict, hk]
    rintro _ ⟨rfl⟩ -
    rfl

end Stores

namespace Backend

/-- The time from which a renewal counts. -/
def origin (b : Backend) (expiry now : Int) : Int :=
  match b with
  | memory | keyValue _ | documents _ => if expiry = 0 then now else expiry
  | table _ | items _ => expiry

theorem origin_eq (b : Backend) {expiry : Int} (h : expiry ≠ 0 ∨ ¬ b.ReadsFirst) (now : Int) :
    b.origin expiry now = expiry := by
  cases b with
  | memory | keyValue options | documents options =>
    exact if_neg (h.resolve_right (not_not.mpr trivial))
  | table options | items options => rfl

theorem origin_of_nonneg (b : Backend) {expiry now : Int} (hnow : 0 ≤ now) (hlive : now ≤ expiry) :
    b.origin expiry now = expiry := by
  by_cases he : expiry = 0
  · obtain rfl : now = expiry := by omega
    cases b with
    | memory | keyValue options | documents options => exact ite_self _
    | table options | items options => rfl
  · exact b.origin_eq (.inl he) now

theorem ensures_extends {b : Backend} (hb : b.Separate) {s : b.system.Store}
    {op : Operation} {c : Claim} {lease expiry : Int} (hs : b.Holds s c lease expiry)
    (hk : op.kind = .renew) (h : op.check = .ok c) :
    Ensures {b.system.client} (fun r _ => op.Extends c lease (b.origin expiry op.now) r)
      (op.attempt b.system.service c) s := by
  cases b with
  | memory => exact Memory.ensures_extends hk h hs
  | keyValue options =>
    obtain ⟨e, hf, hm, ht⟩ := hs
    exact KeyValue.ensures_extends hk h hf hm ht
  | table options =>
    obtain ⟨row, hf, hw⟩ := hs
    exact Table.ensures_extends hk hf hw
  | items options =>
    obtain ⟨w, hf, hw⟩ := hs
    exact Items.ensures_extends hb hk h hf hw
  | documents options =>
    obtain ⟨data, hf, hl⟩ := hs
    exact Documents.ensures_extends hk h hf hl

theorem ensures_renewal (b : Backend) (hb : b.Separate) {s : b.system.Store}
    {op : Operation} {c : Claim} {lease expiry : Int} (hs : b.Holds s c lease expiry)
    (hk : op.kind = .renew) (h : op.check = .ok c) :
    let renewed := c.lock (some (lease + op.delta)) (some (b.origin expiry op.now + op.delta))
    Ensures {b.system.client}
      (fun r s' => ∀ a, r = .ok a → a.success = some true → a.lock = renewed ∧
      Ensures {b.system.client} (fun r' _ => r' = .ok (some renewed))
        (b.system.service.getLock (some c.realm) (some c.name)) s')
          (op.session b.system.service) s := by
  intro renewed
  have hrelease : op.kind ≠ .release := by rw [hk]; decide
  have hclient : {b.system.client} ⊆ troubled b.system.clients fun _ => False := by
    rintro _ rfl
    exact .inl (.inl rfl)
  rw [Operation.ensures_session _ h, Operation.getLock_claim _ h]
  intro r s' hx a ha hsuccess
  cases r with
  | error e => cases ha
  | ok v =>
    obtain rfl := Except.ok.inj ha
    rw [Operation.answer, Answer.success_ofOutcome, Option.some.injEq] at hsuccess
    have hextends : v.2 = some renewed := ensures_extends hb hs hk h _ _ hx v rfl hsuccess
    have hshows := (b.ensures_shown hb h hrelease).of_subset hclient _ _ hx v rfl hsuccess
    have hlock : (op.answer v).lock = v.2.getD op.lock := by
      refine Answer.lock_ofOutcome _ hsuccess ?_
      rw [hshows.operation, hk]
      decide
    have hfound := hshows.found
    rw [hextends, Option.getD_some] at hlock hfound
    exact ⟨hlock, hfound⟩

end Backend

/-- A renewal that succeeds moves lease and expiry of the record that is stored by its own lease,
and keeps the rest of it. Unless an expiry of zero counts for none, the clock has no say in it. -/
theorem renewal_extends (b : Backend) (hb : b.Separate) {s : b.system.Store} {c : Claim}
    {lease expiry : Int} (hs : b.Holds s c lease expiry) {op : Operation} (hk : op.kind = .renew)
    (h : op.check = .ok c) (context : Context) {a : Answer}
    (ha : ((op.session b.system.service).run b.system.client s context).result = .ok a)
    (hsuccess : a.success = some true) :
    let renewed := c.lock (some (lease + op.delta)) (some (b.origin expiry op.now + op.delta))
    a.lock = renewed ∧
    ((b.system.service.getLock (some c.realm) (some c.name)).run b.system.client
      ((op.session b.system.service).run b.system.client s context).store context).result =
        .ok (some renewed) ∧
    (expiry ≠ 0 ∨ ¬ b.ReadsFirst ∨ 0 ≤ op.now ∧ op.now ≤ expiry → b.origin expiry op.now = expiry) ∧
    ∀ (now : Int) (a' : Answer), expiry ≠ 0 ∨ ¬ b.ReadsFirst →
      ((Operation.session { op with now } b.system.service).run b.system.client s context).result =
        .ok a' →
      a'.success = some true → a'.lock = a.lock := by
  intro renewed
  obtain ⟨hlock, hfound⟩ := (b.ensures_renewal hb hs hk h).run rfl context a ha hsuccess
  refine ⟨hlock, hfound.run rfl context, ?_, fun now a' hcount ha' hsuccess' => ?_⟩
  · rintro (he | he | ⟨hnow, hlive⟩)
    · exact b.origin_eq (.inl he) op.now
    · exact b.origin_eq (.inr he) op.now
    · exact b.origin_of_nonneg hnow hlive
  · let later : Operation := { op with now }
    have hlater := @Backend.ensures_renewal b hb s later c lease expiry hs hk h
    obtain ⟨hlock', -⟩ := hlater.run rfl context a' ha' hsuccess'
    rw [b.origin_eq hcount] at hlock'
    rw [hlock', hlock, b.origin_eq hcount]
    rfl

/-- A record from before the epoch is moved alike at its last second and long before. -/
theorem renewal_extends_early :
    let b : Backend := .memory
    let c : Claim := ⟨"jobs", "nightly", "ada", "one"⟩
    let s : Memory.Store := [(c.key, c.lock (some 0) (some (-2)))]
    let op (now : Int) : Operation := ⟨.renew, c.record (some 10) none, now⟩
    let run (now : Int) := ((op now).session b.system.service).run b.system.client s []
    b.Holds s c 0 (-2) ∧ (op (-2)).check = .ok c ∧
      ∃ a a' : Answer, (run (-2)).result = .ok a ∧ (run (-70)).result = .ok a' ∧
      a.success = some true ∧
        a'.success = some true ∧ a.lock = c.lock (some 10) (some 8) ∧ a'.lock = a.lock := by
  intro b c s op run
  have hs : b.Holds s c 0 (-2) := by rfl
  have hcheck : (op (-2)).check = .ok c := rfl
  have hlast : (run (-2)).result = .ok (.succeeded (c.lock (some 10) (some 8)) .renewed) := by rfl
  have hearly : (run (-70)).result = .ok (.succeeded (c.lock (some 10) (some 8)) .renewed) := by rfl
  obtain ⟨hlock, -, -, hsame⟩ := renewal_extends b trivial hs rfl hcheck [] hlast rfl
  exact ⟨hs, hcheck, _, _, hlast, hearly, rfl, rfl, hlock,
    hsame (-70) _ (.inl (by decide)) hearly rfl⟩

/-- Before the epoch a renewal of a lock that expires at zero goes on from the clock. -/
theorem not_renewal_extends :
    ¬ ∀ (b : Backend) (s : b.system.Store) (c : Claim) (lease expiry : Int) (op : Operation)
    (context : Context) (a : Answer), b.Separate → b.Holds s c lease expiry → op.kind = .renew →
    op.check = .ok c →
    op.now ≤ expiry → ((op.session b.system.service).run b.system.client s context).result = .ok a →
    a.success = some true → a.lock = c.lock (some (lease + op.delta))
      (some (expiry + op.delta)) := by
  intro h
  let c : Claim := ⟨"jobs", "nightly", "ada", "one"⟩
  let s : Memory.Store := [(c.key, c.lock (some 20) (some 0))]
  let op : Operation := ⟨.renew, c.record (some 10) none, -5⟩
  have hlock :=
    h .memory s c 20 0 op [] (.succeeded (c.lock (some 30) (some 5)) .renewed) trivial rfl rfl
      rfl (by decide)
    rfl rfl
  revert hlock
  decide

end Leasehold
