import Leasehold.Proofs.Admission
import Leasehold.Proofs.Interruption

/-!
# What the manager keeps stored

A store starts empty and only the manager uses it, one request after the other (`Backend.Reached`):
with any arguments, at any clock readings that are not negative, while any call of the store's
client may fail and any race may be lost. Then every record lies in the slot of its own lock, is
complete and has been checked, and its expiry is as far from its lease as the clock was when the
lock was last taken (`upkeep`). Renewals move both numbers; whatever else fails, is refused or
released leaves no record or the one that was there. Nor does it matter when the sweeper of the
store passes.
-/

namespace Leasehold
open Session Manager

/-! ### Requests with any arguments -/

namespace Manager

/-- A request as it comes in. A release has no lease; it passes over `lease`. -/
inductive UncheckedAsk where
  | get (realm name : Value)
  | operate (kind : Operation.Kind) (realm name : Value) (owner : Option String)
    (instanceId lease : Value)

def UncheckedAsk.raw : UncheckedAsk → RawAsk
  | get realm name => .get realm name
  | operate kind realm name owner instanceId lease =>
    .operate kind realm name (.ofText? owner) instanceId lease

def UncheckedAsk.session {I : Interface} (s : Service I) (t : Timing) (request : UncheckedAsk) :
    Session I Answer := request.raw.session s t

section Session
variable {I : Interface} (s : Service I) (t : Timing)

/-- A session that calls nothing. -/
def Idle (session : Session I Answer) : Prop :=
  (∃ e, session = .fail e) ∨ ∃ change e,
    session = .amend change ((ofReading t.now).bind fun _ => .fail e)

variable {t} in
theorem Idle.exec {σ : Type} {clients : Set (Client I σ)} {st st' : σ} {r : Except Error Answer}
    {session : Session I Answer} (h : Idle t session) (hx : Exec clients session st r st') :
    st' = st ∧ ∃ e, r = .error e := by
  rcases h with ⟨e, rfl⟩ | ⟨change, e, rfl⟩
  · obtain ⟨rfl, rfl⟩ := exec_fail_iff.mp hx
    exact ⟨rfl, e, rfl⟩
  · rw [exec_amend_iff] at hx
    cases hnow : t.now <;> rw [hnow, ofReading, Session.bind, exec_fail_iff] at hx <;>
      obtain ⟨rfl, rfl⟩ := hx <;>
      exact ⟨rfl, _, rfl⟩

/-- A request is refused before anything is called, or its arguments pass the checks. -/
theorem UncheckedAsk.session_cases (request : UncheckedAsk) :
    Idle t (request.session s t) ∨ ∃ ask : Ask, request.session s t = ask.session s t ∧
    match ask with
    | .get realm name => request = .get (.text realm) (.text name)
    | .operate kind realm name caller _ =>
      ∃ lease', request = .operate kind (.text realm) (.text name) caller.owner
        (.text caller.instanceId) lease' := by
  cases request with
  | get realm name =>
    by_cases h : IsIdentifier realm ∧ IsIdentifier name
    · obtain ⟨⟨realm, rfl⟩, name, rfl⟩ := h
      exact .inr ⟨.get realm name, rfl, rfl⟩
    · exact .inl (.inl (session_get_refused s t h))
  | operate kind realm name owner instanceId lease =>
    by_cases hids : IsIdentifier realm ∧ IsIdentifier name ∧ IsIdentifier instanceId
    swap
    · obtain ⟨field, v, hwrong⟩ := exists_firstWrong (.inl hids)
      obtain ⟨e, he, -⟩ := check_refuses (.ofText? owner) hwrong
      exact .inl (.inl ⟨e, session_refused s t he⟩)
    obtain ⟨⟨realm, rfl⟩, ⟨name, rfl⟩, instanceId, rfl⟩ := hids
    -- any lease will do for a release, whose session does not depend on it
    by_cases hk : kind = .release
    · subst hk
      exact .inr ⟨.operate .release realm name ⟨owner, instanceId⟩ ⟨1, by decide⟩, rfl, lease, rfl⟩
    by_cases hl : IsTerm lease
    · obtain ⟨term, rfl⟩ := hl
      refine .inr ⟨.operate kind realm name ⟨owner, instanceId⟩ term, ?_, .int term, rfl⟩
      cases kind <;> rfl
    by_cases hnull : lease = .null
    · subst hnull
      refine .inl (.inr ?_)
      cases kind with
      | acquire =>
        exact ⟨_, _, Leasing.acquire.session_unleased s t (.ofText? owner) realm name instanceId⟩
      | renew =>
        exact ⟨_, _, Leasing.renew.session_unleased s t (.ofText? owner) realm name instanceId⟩
      | release => exact absurd rfl hk
    · obtain ⟨field, v, hwrong⟩ := exists_firstWrong (.inr ⟨hnull, hl⟩)
      obtain ⟨e, he, -⟩ := check_refuses (.ofText? owner) hwrong
      exact .inl (.inl ⟨e, session_refused s t (by rw [if_neg hk]; exact he)⟩)

end Session

/-! ### Histories -/

/-- A request that was made when the clock showed `now`, and how it ended. -/
structure Event where
  request : UncheckedAsk
  now : Int
  result : Except Error Answer

def UncheckedAsk.acquires? : UncheckedAsk → Option (String × String)
  | .operate .acquire (.text realm) (.text name) .. => some (realm, name)
  | _ => none

def Event.takes (e : Event) (lock : String × String) : Bool :=
  e.request.acquires? = some lock && match e.result with
    | .ok a => a.success = some true
    | .error _ => false

/-- What the clock showed when the lock was last taken. The latest event comes first. -/
def lastTaken (events : List Event) (lock : String × String) :
    Option Int := (events.find? (·.takes lock)).map Event.now

theorem lastTaken_of_takes {e : Event} {lock : String × String} (h : e.takes lock = true)
    (events : List Event) :
    lastTaken (e :: events) lock = some e.now := by
  simp only [lastTaken, List.find?_cons, h, Option.map_some]

theorem lastTaken_of_not_takes {e : Event} {lock : String × String} (h : e.takes lock = false)
    (events : List Event) :
    lastTaken (e :: events) lock = lastTaken events lock := by
  simp only [lastTaken, List.find?_cons, h]

section Takes
variable {request : UncheckedAsk} {now : Int} {r : Except Error Answer} {lock : String × String}

theorem not_takes_of_acquires (h : request.acquires? ≠ some lock) :
    Event.takes ⟨request, now, r⟩ lock = false := by
  rw [Event.takes, decide_eq_false h, Bool.false_and]

theorem not_takes_of_failure (h : ∀ a, r = .ok a → a.success = some false) :
    Event.takes ⟨request, now, r⟩ lock = false := by
  cases r with
  | error e => exact Bool.and_false _
  | ok a => simp [Event.takes, h a rfl]

end Takes

end Manager

/-! ### Runs -/

namespace Backend

/-- The store after some requests, from an empty one on. Before each the sweeper may have passed,
whatever its clock shows, and the time of an SQL server have changed. The manager's own clock and
timer can be read. -/
inductive Reached (b : Backend) : List Event → b.system.Store → Prop
  | start : Reached b [] b.system.empty
  | request {events : List Event} {s s₁ s' : b.system.Store} {t : Timing} {u now ms : Int}
    {request : UncheckedAsk}
    {r : Except Error Answer} (h : Reached b events s) (hs : b.system.Sweep u s s₁)
      (ht : t.now = .ok now)
    (hnow : 0 ≤ now) (he : t.elapsed = .ok ms)
    (hx : Exec (troubled b.system.clients fun _ => True)
      (request.session b.system.service t) s₁ r s') :
    Reached b (⟨request, now, r⟩ :: events) s'

/-- The record is that of a lock that was taken, and perhaps renewed since. -/
inductive Entered (b : Backend) (events : List Event) (k : b.system.Slot) (l : Lock) : Prop
  | intro {realm name : Identifier} {caller : Caller} {lease expiry : Int}
    (hk : k = b.system.slot realm name)
    (hr : l = (caller.claim realm name).lock (some lease) (some expiry)) (hl : 1 ≤ lease)
    (ht : lastTaken events (realm, name) = some (expiry - lease))

structure UpkeepInv (b : Backend) (events : List Event) (s : b.system.Store) : Prop where
  good : b.Good s
  entered : ∀ k l, b.system.record s k = some l → b.Entered events k l

variable {b : Backend} {events : List Event} {s s' : b.system.Store} {e : Event}
    {k : b.system.Slot} {l : Lock}

theorem slot_inj {realm realm' name name' : Identifier}
    (h : b.system.slot realm name = b.system.slot realm' name') :
    realm.1 = realm' ∧ name.1 = name' := by
  have hkey := @Lock.keyOf_inj realm realm' name name' (colon_not_mem realm) (colon_not_mem realm')
  cases b with
  | memory | items => exact hkey h
  | keyValue | documents => exact hkey ((String.append_right_inj _).mp h)
  | table => exact Prod.mk.inj h

theorem Entered.later (h : b.Entered events k l)
    (he : ∀ realm name : Identifier, k = b.system.slot realm name → e.takes (realm, name) = false) :
    b.Entered (e :: events) k l := by
  obtain ⟨hk, hr, hl, ht⟩ := h
  exact .intro hk hr hl ((lastTaken_of_not_takes (he _ _ hk) events).trans ht)

theorem Entered.filed {realm name : Identifier}
    (h : b.Entered events (b.system.slot realm name) l) :
    ∃ c lease expiry, l = Claim.lock c (some lease) (some expiry) ∧ c.realm = realm ∧
    c.name = name := by
  obtain ⟨hk, hr, -, -⟩ := h
  obtain ⟨hrealm, hname⟩ := slot_inj hk
  exact ⟨_, _, _, hr, hrealm.symm, hname.symm⟩

theorem UpkeepInv.start (b : Backend) : b.UpkeepInv [] b.system.empty := by
  have hrecord (k : b.system.Slot) : b.system.record b.system.empty k = none := by cases b <;> rfl
  refine ⟨?_, fun k l hl => ?_⟩
  · cases b with
    | memory => trivial
    | _ => exact nofun
  · rw [hrecord] at hl
    cases hl

theorem Good.sweep {t : Int} (h : b.Good s) (hs : b.system.Sweep t s s') : b.Good s' := by
  cases b with
  | memory => trivial
  | keyValue => exact KeyValue.good_sweep h hs
  | table => exact Table.good_sweep h hs
  | items => exact Items.good_sweep h hs
  | documents => exact Documents.good_sweep h hs

theorem UpkeepInv.sweep {t : Int} (h : b.UpkeepInv events s) (hs : b.system.Sweep t s s') :
    b.UpkeepInv events s' := by
  refine ⟨h.good.sweep hs, fun k l hl => ?_⟩
  rcases System.record_sweep hs k with hk | ⟨hk, -⟩
  · exact h.entered k l (hk ▸ hl)
  · rw [hk] at hl
    cases hl

theorem UpkeepInv.later (h : b.UpkeepInv events s) (he : ∀ lock, e.takes lock = false) :
    b.UpkeepInv (e :: events) s :=
  ⟨h.good, fun k l hl => (h.entered k l hl).later fun _ _ _ => he _⟩

theorem UpkeepInv.leaves (h : b.UpkeepInv events s) {kind : Operation.Kind}
    {realm name : Identifier} {caller : Caller} {lease : Term} {now : Int} {r : Except Error Answer}
    {request : UncheckedAsk}
    (hrequest : request.acquires? = if kind = .acquire then some (realm.1, name.1) else none)
    (hleaves : b.Leaves (operation kind (caller.claim realm name) lease now) realm name s r s') :
    b.UpkeepInv (⟨request, now, r⟩ :: events) s' := by
  obtain ⟨hg, hothers, hleft⟩ := hleaves
  -- only an acquisition counts as taking a lock
  have hquiet (hk : kind ≠ .acquire) (lock : String × String) : Event.takes
    ⟨request, now, r⟩ lock = false := by
    rw [if_neg hk] at hrequest
    exact not_takes_of_acquires (by rw [hrequest]; exact nofun)
  refine ⟨hg, fun k l hl => ?_⟩
  by_cases hk : k = b.system.slot realm name
  · subst hk
    rw [hl] at hleft
    cases hleft with
    | @taken a hkind hr hs ha =>
      -- the clock reading of this request is the one to go by from now on
      cases hkind
      cases ha
      have htakes : Event.takes ⟨request, now, r⟩ (realm, name) = true := by
        simp only [Event.takes, hrequest, hr, hs, if_true, decide_true, Bool.and_self]
      have hlease : now = now + lease - lease := by omega
      refine .intro rfl rfl lease.2.1 ?_
      rw [lastTaken_of_takes htakes]
      exact congrArg some hlease
    | @prolonged c d x delta hkind hd hb ha =>
      -- lease and expiry have moved by the same number
      cases hkind
      cases ha
      obtain ⟨hk, hrecord, hl, ht⟩ := h.entered _ _ hb
      have hdelta : 1 ≤ delta := hd ▸ lease.2.1
      obtain rfl := Option.some.inj (congrArg Lock.lease hrecord)
      obtain rfl := Option.some.inj (congrArg Lock.expiry hrecord)
      refine .intro hk (congrArg (·.withLease (some (d + delta)) (some (x + delta))) hrecord)
        (by omega) ?_
      rw [lastTaken_of_not_takes (hquiet nofun _), ht]
      exact congrArg some (by omega)
    | dropped _ ha => cases ha
    | kept hr ha =>
      refine (h.entered _ l ha.symm).later fun realm' name' _ => ?_
      by_cases hkind : kind = .acquire
      · exact not_takes_of_failure (hr hkind)
      · exact hquiet hkind _
  · -- the lock is another one
    rw [hothers k hk] at hl
    refine (h.entered k l hl).later fun realm' name' hk' => not_takes_of_acquires ?_
    rw [hrequest]
    split
    · intro hsame
      obtain ⟨hr, hn⟩ := Prod.mk.inj (Option.some.inj hsame)
      rw [hr, hn] at hk
      exact hk hk'
    · exact nofun

theorem UpkeepInv.request (hb : b.Separate) (h : b.UpkeepInv events s) {t : Timing} {now ms : Int}
    {request : UncheckedAsk} {r : Except Error Answer} (ht : t.now = .ok now) (hnow : 0 ≤ now)
    (he : t.elapsed = .ok ms)
    (hx : Exec (troubled b.system.clients fun _ => True)
      (request.session b.system.service t) s r s') :
    b.UpkeepInv (⟨request, now, r⟩ :: events) s' := by
  rcases request.session_cases b.system.service t with hidle | ⟨ask, hsession, hask⟩
  · obtain ⟨rfl, e, rfl⟩ := hidle.exec hx
    exact h.later fun _ => not_takes_of_failure (by rintro _ ⟨⟩)
  rw [hsession] at hx
  cases ask with
  | get realm name =>
    obtain rfl := hask
    obtain ⟨_, hfind, -⟩ := Manager.exec_get b.system.service realm name hx
    obtain rfl := ensures_find_kept realm name _ s' hfind
    exact h.later fun _ => not_takes_of_acquires nofun
  | operate kind realm name caller lease =>
    obtain ⟨lease', rfl⟩ := hask
    obtain ⟨r₀, hop, -, hr⟩ := Manager.exec_operate b.system.service realm name caller lease ht hx
    obtain rfl := hr ms he
    obtain ⟨hrealm, hname⟩ := System.record_operation kind (caller.claim realm name) lease now
    refine h.leaves ?_ (ensures_leaves hb h.good hnow hrealm hname ?_ r s' hop)
    · cases kind <;> rfl
    · exact fun l hl => (h.entered _ l hl).filed

theorem Reached.upkept (hb : b.Separate) (h : b.Reached events s) : b.UpkeepInv events s := by
  induction h with
  | start => exact .start b
  | request _ hs ht hnow he hx ih => exact (ih.sweep hs).request hb ht hnow he hx

theorem Good.reads (h : b.Good s) {w : b.system.Raw} (hw : b.system.raw s k = some w) :
    ∃ l, b.system.read w = .ok l := by
  cases b with
  | memory => exact ⟨w, rfl⟩
  | keyValue => exact (KeyValue.Good.find h hw).record
  | documents => exact h k w hw
  | table =>
    obtain ⟨c, lease, expiry, rfl, -⟩ := h k w hw
    exact ⟨_, Table.ofRow_rowOf c lease expiry⟩
  | items =>
    obtain ⟨c, lease, expiry, hi, -⟩ := h k w hw
    exact ⟨_, hi.ofFields⟩

end Backend

theorem Manager.Caller.name_ne_empty (caller : Caller) : caller.name ≠ "" := by
  obtain ⟨_ | owner, instanceId⟩ := caller
  · exact (by decide : anonymousOwner ≠ "")
  · by_cases h : owner = "" <;> simp [Caller.name, Option.filter, h, anonymousOwner]

/-- Every record lies in the slot of its lock, is complete and checked, and its expiry is its lease
after the clock reading at which the lock was last taken. -/
theorem upkeep (b : Backend) (hb : b.Separate) {events : List Event} {s : b.system.Store}
    (h : b.Reached events s) {k : b.system.Slot} {w : b.system.Raw}
    (hw : b.system.raw s k = some w) :
    ∃ c lease expiry, b.system.read w = .ok (Claim.lock c (some lease) (some expiry)) ∧
      k = b.system.slot c.realm c.name ∧ Argument.isIdentifier c.realm = true ∧
      Argument.isIdentifier c.name = true ∧
      Argument.isIdentifier c.instanceId = true ∧ c.owner ≠ "" ∧ 1 ≤ lease ∧
      lastTaken events (c.realm, c.name) = some (expiry - lease) := by
  have hkept := h.upkept hb
  obtain ⟨l, hl⟩ := hkept.good.reads hw
  obtain @⟨realm, name, caller, lease, expiry, hk, rfl, hlease, ht⟩ :=
    hkept.entered k l (System.record_of_read hw hl)
  exact ⟨caller.claim realm name, lease, expiry, hl, hk, realm.2, name.2, caller.instanceId.2,
    caller.name_ne_empty,
    hlease, ht⟩

/-- A lock is taken when the clock shows five and renewed when it shows seven. -/
theorem upkeep_renewed :
    let b : Backend := .table {}
    let taken : UncheckedAsk :=
      .operate .acquire (.text "jobs") (.text "nightly") none (.text "one") (.int 10)
    let renewed : UncheckedAsk :=
      .operate .renew (.text "jobs") (.text "nightly") none (.text "one") (.int 20)
    let first := (taken.session b.system.service (still 5)).run b.system.client b.system.empty []
    let second := (renewed.session b.system.service (still 7)).run b.system.client first.store []
    let events : List Event := [⟨renewed, 7, second.result⟩, ⟨taken, 5, first.result⟩]
    let row := Table.rowOf ⟨"jobs", "nightly", anonymousOwner, "one"⟩ 30 35
    b.Separate ∧ b.Reached events second.store ∧
      b.system.raw second.store ("jobs", "nightly") = some row ∧
    ∃ c lease expiry, b.system.read row = .ok (Claim.lock c (some lease) (some expiry)) ∧
      ("jobs", "nightly") = b.system.slot c.realm c.name ∧ Argument.isIdentifier c.realm = true ∧
      Argument.isIdentifier c.name = true ∧ Argument.isIdentifier c.instanceId = true ∧
      c.owner ≠ "" ∧ 1 ≤ lease ∧
      lastTaken events (c.realm, c.name) = some (expiry - lease) := by
  intro b taken renewed first second events row
  have unswept (s : b.system.Store) : b.system.Sweep 0 s s := ⟨trivial, fun _ => .inl rfl⟩
  have hserved : b.system.client ∈ troubled b.system.clients fun _ => True := .inl (.inl rfl)
  have hfirst := exec_run hserved (taken.session b.system.service (still 5)) b.system.empty []
  have hsecond := exec_run hserved (renewed.session b.system.service (still 7)) first.store []
  have hreached : b.Reached events second.store :=
    .request (.request .start (unswept _) rfl (by decide) rfl hfirst) (unswept _) rfl
      (by decide) rfl hsecond
  have hw : b.system.raw second.store ("jobs", "nightly") = some row := rfl
  exact ⟨trivial, hreached, hw, upkeep b trivial hreached hw⟩

end Leasehold
