import Leasehold.Proofs.Operation
import Leasehold.Proofs.Session.Terms

/-!
# A service on its store

`System` puts a service, its store and its client together, with how records lie in the store: each
lock has a slot, and what lies there reads as a record. `System.Laws` is what every one of the
systems is proved to keep: operations obey terms under which they may share the store, take effect
in their last call (`System.Settles`), and the sweeper of the store disturbs nobody.
-/

namespace Leasehold
open Session

/-- A service with its store, and how records lie there. -/
structure System where
  I : Interface
  Store : Type
  client : Client I Store
  /-- Clients that lose races although nobody else is there. -/
  losses : Set (Client I Store)
  service : Service I
  empty : Store
  /-- Every operation is one transaction. -/
  whole : Bool
  Slot : Type
  slot : String → String → Slot
  Raw : Type
  raw : Store → Slot → Option Raw
  read : Raw → Except Fault Lock
  /-- What the sweeper does to the rest of the store. -/
  passes : Store → Store → Prop
  /-- Records that the store can hold. -/
  writable : Lock → Prop
  /-- Expiries that the store can hold. -/
  fits : Int → Prop
  /-- How a renewal moves a record. -/
  extend : Lock → Int → Int → Lock

namespace System
variable (S : System)

/-- The record in a slot. -/
def record (s : S.Store) (k : S.Slot) : Option Lock := (S.raw s k).bind fun w => (S.read w).toOption

/-- The sweeper of the store passes at time `t`: it drops expired records only. -/
def Sweep (t : Int) (s s' : S.Store) : Prop :=
  S.passes s s' ∧ ∀ k, S.raw s' k = S.raw s k ∨ S.raw s' k = none ∧
    Lock.isGone (S.record s k) t = true

/-- What lies in the slot of a lock is a record of that lock. -/
def Keyed (s : S.Store) (realm name : String) : Prop :=
  ∀ l, S.record s (S.slot realm name) = some l → l.realm = some (.text realm) ∧
    l.name = some (.text name)

/-- How an operation ends, by the record before and after it. Under `contention` others use the
store. -/
inductive Ends (contention : Prop) (op : Operation) (before after : Option Lock) :
    Except Error Verdict → Prop
  | ruled {v : Verdict} (h : op.Conforms S.extend before v after)
    (hw : ∀ l, op.permits before = true → op.written S.extend before = some l → S.writable l) :
    Ends contention op before after (.ok v)
  /-- The operation lost its race. -/
  | lost {v : Verdict} (hc : contention) (ho : v.1.operation = op.kind.action)
    (hv : v.1.isSuccess = false)
    (h : after = before) : Ends contention op before after (.ok v)
  /-- The record to be written cannot be. -/
  | unwritable {r : Except Error Verdict} {l : Lock} (hp : op.permits before = true)
    (hl : op.written S.extend before = some l) (hw : ¬ S.writable l)
      (hr : ∀ v, r = .ok v → v.1.isSuccess = false)
    (h : after = before) : Ends contention op before after r

/-- How the operation of claim `c` leaves the store, from the store before its last call to that
after it. -/
structure Settles (contention : Prop) (op : Operation) (c : Claim) (r : Except Error Verdict)
    (s s' : S.Store) :
    Prop where
  others : ∀ k, k ≠ S.slot c.realm c.name → S.record s' k = S.record s k
  ends : S.Keyed s c.realm c.name →
    S.Ends contention op (S.record s (S.slot c.realm c.name))
      (S.record s' (S.slot c.realm c.name)) r

/-- What lies there is a record of the lock, with holder, lease and expiry. -/
def Filed (realm name : String) (existing : Option Lock) : Prop :=
  ∀ l, existing = some l → ∃ c lease expiry, l = Claim.lock c (some lease) (some expiry) ∧
    c.realm = realm ∧ c.name = name

theorem Filed.keyed {S : System} {s : S.Store} {realm name : String}
    (h : Filed realm name (S.record s (S.slot realm name))) :
    S.Keyed s realm name := by
  intro l hl
  obtain ⟨c, lease, expiry, rfl, hr, hn⟩ := h l hl
  exact ⟨congrArg (some ∘ Value.text) hr, congrArg (some ∘ Value.text) hn⟩

/-- The laws of a system. Its terms depend on whether there is contention. -/
structure Laws where
  Token : Type
  terms : Prop → Terms S.I S.Store Token
  good : S.Store → Prop
  good_eq : ∀ p, (terms p).good = good
  seen : ∀ p s, (terms p).seen s
  sound : ∀ p, (terms p).Sound
  fair : S.whole = false → (terms True).Fair
  extend : ∀ l delta now, ∃ lease expiry, S.extend l delta now = l.withLease (some lease)
    (some expiry)
  /-- A live record that was filed at a time that is not negative moves by the lease. -/
  extend_live : ∀ {c : Claim} {lease expiry delta now : Int}, 0 ≤ now → now ≤ expiry →
    S.extend (c.lock (some lease) (some expiry)) delta now = c.lock (some (lease + delta))
      (some (expiry + delta))
  client_mem : ∀ p, S.client ∈ (terms p).clients
  losses_mem : S.losses ⊆ (terms True).clients
  passes_refl : ∀ s, S.passes s s
  slot_inj : ∀ {realm realm' name name'}, ':' ∉ realm.toList → ':' ∉ realm'.toList →
    S.slot realm name = S.slot realm' name' → realm = realm' ∧ name = name'
  writable_of_fits : ∀ {c : Claim} {lease expiry : Int}, 0 ≤ lease → lease ≤ expiry →
    S.fits expiry →
    S.writable (c.lock (some lease) (some expiry))
  good_empty : good S.empty
  record_empty : ∀ k, S.record S.empty k = none
  record_of_silent : ∀ {p s s'}, (terms p).silent s s' → S.record s' = S.record s
  good_sweep : ∀ {t s s'}, good s → S.Sweep t s s' → good s'
  admits_sweep : S.whole = false → ∀ {t s s'}, S.Sweep t s s' → (terms True).Admits s s'
  attempt : ∀ (p : Prop) {op : Operation} {c : Claim}, op.check = .ok c → ∀ s,
    (op.attempt S.service c).Obeys (terms p) (fun r _ => S.Settles p op c r) (terms p).idle s s
  find : ∀ (p : Prop) (realm name : String) (s : S.Store),
    (S.service.find realm name).Obeys (terms p)
    (fun r _ s s' => r = .ok (S.record s (S.slot realm name)) ∧ S.record s' = S.record s)
      (terms p).idle s s

variable {S}

theorem record_sweep {t : Int} {s s' : S.Store} (h : S.Sweep t s s') (k : S.Slot) :
    S.record s' k = S.record s k ∨ S.record s' k = none ∧ Lock.isGone (S.record s k) t = true := by
  rcases h.2 k with hk | ⟨hk, hg⟩
  · exact .inl (by simp only [record, hk])
  · exact .inr ⟨by simp only [record, hk, Option.bind_none], hg⟩

theorem Sweep.all {t : Int} {s s' : S.Store} (hs : S.Sweep t s s') {P : S.Slot → S.Raw → Prop}
    (h : ∀ k w, S.raw s k = some w → P k w) {k : S.Slot} {w : S.Raw} (hw : S.raw s' k = some w) :
    P k w := by
  rcases hs.2 k with hk | ⟨hk, -⟩
  · exact h k w (hk ▸ hw)
  · rw [hk] at hw; cases hw

/-- What a release comes to that deleted nothing, by a later reading. Unless there is contention,
the lock is not the caller's. -/
theorem Ends.classified {contention : Prop} {op : Operation} {existing : Option Lock}
    (hk : op.kind = .release) (ho : ¬contention → op.owns existing = false) :
    S.Ends contention op existing existing
      (.ok (Decision.afterRefusedRelease existing op.now, none)) := by
  have hnone : ∀ l, op.permits existing = true → op.written S.extend existing = some l →
    S.writable l := by
    intro l _ hl
    simp only [Operation.written, Operation.renewed, hk] at hl
    cases hl
  have hpermits : op.permits existing = (Lock.isGone existing op.now || op.owns existing) := by
    simp only [Operation.permits, hk]
  cases hgone : Lock.isGone existing op.now with
  | true =>
    refine .ruled (Operation.conforms_freed hk (by rw [hpermits, hgone, Bool.true_or]) ?_ ?_
      (.inr ⟨rfl, hgone⟩)) hnone
    all_goals
      cases existing with
      | none => rfl
      | some l =>
        simp only [Lock.isGone, Option.all_some] at hgone
        simp only [Decision.afterRefusedRelease, hgone, if_true]
        rfl
  | false =>
    cases existing with
    | none => cases hgone
    | some l =>
      have hx : l.isExpired op.now = false := hgone
      simp only [Decision.afterRefusedRelease, hx, Bool.false_eq_true, if_false]
      cases hown : op.owns (some l) with
      | false =>
        refine .ruled (Operation.conforms_refused ?_ (by rw [hk]; rfl) rfl) hnone
        rw [hpermits, hgone, hown, Bool.or_false]
      | true =>
        -- the lock came back to the caller after the deletion had missed it
        have hc : contention := by
          by_contra hn
          rw [ho hn] at hown
          cases hown
        exact .lost hc (by rw [hk]; rfl) rfl rfl

/-- What an operation answers, checks included. -/
inductive Answers (S : System) (contention : Prop) (op : Operation) (r : Except Error Answer)
    (s s' : S.Store) : Prop
  | refused {e : Error} (h : op.check = .error e) (hr : r = .error e)
    (hs : S.record s' = S.record s)
  | settled {c : Claim} {v : Except Error Verdict} (h : op.check = .ok c) (hr : r = v.map op.answer)
    (hs : S.Settles contention op c v s s')

/-- What an operation did to its own slot. -/
inductive Did (S : System) (op : Operation) (before after : Option Lock)
    (r : Except Error Answer) : Prop
  | granted {a : Answer} {c : Claim} {lease expiry : Int} (hc : op.check = .ok c)
    (hk : op.kind ≠ .release)
    (hp : op.permits before = true)
      (hw : op.written S.extend before = some (c.lock (some lease) (some expiry)))
    (hr : r = .ok a) (hs : a.success = some true) (hl : a.lock = c.lock (some lease) (some expiry))
    (ha : after = some (c.lock (some lease) (some expiry)))
  | freed {a : Answer} {c : Claim} (hc : op.check = .ok c) (hk : op.kind = .release)
    (hp : op.permits before = true)
    (hr : r = .ok a) (hs : a.success = some true)
      (ha : after = none ∨ after = before ∧ Lock.isGone before op.now = true)
  | refused (hr : ∀ a, r = .ok a → a.success = some false) (ha : after = before)

theorem Answers.others {p : Prop} {op : Operation} {r : Except Error Answer} {s s' : S.Store}
    {realm name : String} (h : S.Answers p op r s s') (hr : op.record.realm = some realm)
    (hn : op.record.name = some name) {k : S.Slot} (hk : k ≠ S.slot realm name) :
    S.record s' k = S.record s k := by
  cases h with
  | refused _ _ hs => rw [hs]
  | @settled c v h _ hs =>
    rw [op.record_of_check h] at hr hn
    exact hs.others k (by rw [show c.realm = realm from Option.some.inj hr,
      show c.name = name from Option.some.inj hn]; exact hk)

theorem Answers.did (L : S.Laws) {p : Prop} {op : Operation} {r : Except Error Answer}
    {s s' : S.Store} {realm name : String} (h : S.Answers p op r s s')
    (hr : op.record.realm = some realm) (hn : op.record.name = some name)
    (hf : Filed realm name (S.record s (S.slot realm name))) :
    S.Did op (S.record s (S.slot realm name)) (S.record s' (S.slot realm name)) r := by
  cases h with
  | refused _ hr hs => exact .refused (by rintro a ha; rw [hr] at ha; cases ha) (by rw [hs])
  | @settled c v h hv hs =>
    have hrecord := op.record_of_check h
    obtain rfl : c.realm = realm := Option.some.inj ((congrArg Record.realm hrecord).symm.trans hr)
    obtain rfl : c.name = name := Option.some.inj ((congrArg Record.name hrecord).symm.trans hn)
    cases hs.ends hf.keyed with
    | @ruled v hc _ =>
      subst hv
      cases hp : op.permits (S.record s (S.slot c.realm c.name)) with
      | false =>
        refine .refused ?_ (hc.unchanged hp)
        rintro a ⟨rfl⟩
        rw [hc.success_answer, hp]
      | true =>
        have hsucc : (op.answer v).success = some true := by rw [hc.success_answer, hp]
        by_cases hk : op.kind = .release
        · exact .freed h hk hp rfl hsucc (hc.removes hp hk)
        · have hshown := hc.lock_answer hk hp
          obtain ⟨lease, expiry, hl⟩ := Operation.written_of_check L.extend h hp hshown
          rw [hl] at hshown
          exact .granted h hk hp hshown rfl hsucc hl ((hc.writes hp hk).trans hshown)
    | @lost v _ _ hv' ha =>
      subst hv
      refine .refused ?_ ha
      rintro a ⟨rfl⟩
      rw [Operation.answer, Answer.success_ofOutcome, hv']
    | unwritable _ _ _ hr ha =>
      subst hv
      refine .refused ?_ ha
      intro a hav
      cases v with
      | error e => cases hav
      | ok v => cases hav; rw [Operation.answer, Answer.success_ofOutcome, hr v rfl]

namespace Laws
variable (L : S.Laws) {p : Prop}

theorem session (op : Operation) (s : S.Store) :
    (op.session S.service).Obeys (L.terms p) (fun r _ => S.Answers p op r)
      (L.terms p).idle s s := by
  cases h : op.check with
  | error e =>
    rw [op.session_of_error _ h]
    exact .refused h rfl rfl
  | ok c =>
    rw [op.session_of_check _ h, obeys_bind]
    refine (L.attempt p h s).mono fun r g s s' hr => ?_
    cases r with
    | ok v => exact .settled h rfl hr
    | error e => exact .settled h rfl hr

theorem exec_session {op : Operation} {s s' : S.Store} {r : Except Error Answer} (hg : L.good s)
    (hx : Exec (L.terms p).clients (op.session S.service) s r s') :
    L.good s' ∧ ∃ t, S.record t = S.record s ∧ S.Answers p op r t s' := by
  rw [← L.good_eq p] at hg ⊢
  obtain ⟨hg', g, t, ht, -, ha⟩ :=
    (L.session op s).exec (L.sound p) (L.seen p) hg ((L.sound p).owns_idle hg) hx
  exact ⟨hg', t, L.record_of_silent ht, ha⟩

/-- What an operation comes to on a record of its lock. -/
theorem ends {op : Operation} {c : Claim} {s s' : S.Store} {r : Except Error Answer} (hg : L.good s)
    (h : op.check = .ok c) (hf : Filed c.realm c.name (S.record s (S.slot c.realm c.name)))
    (hx : Exec (L.terms p).clients (op.session S.service) s r s') :
    ∃ v, r = v.map op.answer ∧
      S.Ends p op (S.record s (S.slot c.realm c.name)) (S.record s' (S.slot c.realm c.name)) v := by
  obtain ⟨-, u, hu, ha⟩ := L.exec_session hg hx
  rw [← hu] at hf ⊢
  cases ha with
  | refused hc => rw [h] at hc; cases hc
  | @settled c' v hc hr hs =>
    obtain rfl := Except.ok.inj (h.symm.trans hc)
    exact ⟨v, hr, hs.ends hf.keyed⟩

/-- Where no race is lost and the record can be written, the operation is decided by the rules. -/
theorem ruled {op : Operation} {c : Claim} {s s' : S.Store} {r : Except Error Answer}
    (hg : L.good s) (h : op.check = .ok c)
    (hf : Filed c.realm c.name (S.record s (S.slot c.realm c.name)))
    (hw : ∀ l, op.permits (S.record s (S.slot c.realm c.name)) = true →
      op.written S.extend (S.record s (S.slot c.realm c.name)) = some l → S.writable l)
    (hx : Exec (L.terms False).clients (op.session S.service) s r s') :
    ∃ v, r = .ok (op.answer v) ∧
      op.Conforms S.extend (S.record s (S.slot c.realm c.name)) v
        (S.record s' (S.slot c.realm c.name)) := by
  obtain ⟨v, rfl, hends⟩ := L.ends hg h hf hx
  cases hends with
  | @ruled v hconf => exact ⟨v, rfl, hconf⟩
  | lost hc => exact hc.elim
  | unwritable hp hl hn => exact absurd (hw _ hp hl) hn

/-- A record that cannot be written is not granted. -/
theorem unwritten {op : Operation} {c : Claim} {s s' : S.Store} {r : Except Error Answer}
    (hg : L.good s) (h : op.check = .ok c)
    (hf : Filed c.realm c.name (S.record s (S.slot c.realm c.name))) {l : Lock}
    (hp : op.permits (S.record s (S.slot c.realm c.name)) = true)
    (hl : op.written S.extend (S.record s (S.slot c.realm c.name)) = some l) (hn : ¬ S.writable l)
    (hx : Exec (L.terms p).clients (op.session S.service) s r s') {a : Answer} (ha : r = .ok a) :
    a.success = some false := by
  obtain ⟨v, rfl, hends⟩ := L.ends hg h hf hx
  cases hends with
  | ruled _ hw => exact absurd (hw l hp hl) hn
  | @lost v _ _ hs => cases ha; rw [Operation.answer, Answer.success_ofOutcome, hs]
  | unwritable _ _ _ hs =>
    cases v with
    | error e => cases ha
    | ok v => cases ha; rw [Operation.answer, Answer.success_ofOutcome, hs v rfl]

theorem exec_find {realm name : String} {s s' : S.Store} {r : Except Error (Option Lock)}
    (hg : L.good s) (hx : Exec (L.terms p).clients (S.service.find realm name) s r s') :
    L.good s' ∧ r = .ok (S.record s (S.slot realm name)) ∧ S.record s' = S.record s := by
  rw [← L.good_eq p] at hg ⊢
  obtain ⟨hg', g, t, ht, -, hr, hs⟩ :=
    (L.find p realm name s).exec (L.sound p) (L.seen p) hg ((L.sound p).owns_idle hg) hx
  have ht := L.record_of_silent ht
  exact ⟨hg', by rw [hr, ht], hs.trans ht⟩

end Laws

end System

end Leasehold
