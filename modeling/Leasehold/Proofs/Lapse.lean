import Leasehold.Proofs.Execution.KeyValue

/-!
# Locks go away with their leases

The store of keys ends a lease when its time to live is over, and the keys that hang on it go with
it (`Store.lapse`). A record that has been acquired or renewed hangs on a lease of its own, whose
time is counted from the clock of the operation to the expiry of the record: until then the key is
there (`key_outlasts_hold`), however the leases of other keys end.

A lock is still held at its expiry, but the key is gone by then, unless the lease has run for the
one second that it runs at least. And since an expiry of zero counts for none, before the epoch such
a lock has a lease of one second (`not_key_outlasts_hold`).
-/

namespace Leasehold.KeyValue
open Session

/-! ### The end of leases -/

namespace Store

/-- The leases whose time is over at `t`, where the lease `n` was granted at `since n`. -/
def ended (s : Store) (since : Nat → Int) (t : Int) : List Nat :=
  s.leases.keys.filter fun n => (s.leases.find? n).any fun ttl => since n + ttl ≤ t

/-- The store at `t`, without the leases that are over and the keys that hung on them. -/
def lapse (s : Store) (since : Nat → Int) (t : Int) : Store := (s.ended since t).foldl revoke s

end Store

section Lapse
variable {s : Store} {key : String} {e : Entry} {n : Nat} {since : Nat → Int} {t : Int}

theorem find?_revoke (hf : s.entries.find? key = some e) (hn : e.lease ≠ some n) :
    (s.revoke n).entries.find? key = some e := by
  obtain ⟨revision, entries, leases, granted⟩ := s
  show Assoc.find? (entries.filter fun e => e.2.lease ≠ some n) key = some e
  replace hf : Assoc.find? entries key = some e := hf
  induction entries with
  | nil => cases hf
  | cons p entries ih =>
    obtain ⟨k, e'⟩ := p
    rw [Assoc.find?] at hf
    rw [List.filter_cons]
    by_cases hk : k = key
    · -- the first entry of the key is the one that is found
      rw [if_pos hk, Option.some.injEq] at hf
      subst hf
      rw [if_pos (decide_eq_true hn), Assoc.find?, if_pos hk]
    · rw [if_neg hk] at hf
      split
      · rw [Assoc.find?, if_neg hk]
        exact ih hf
      · exact ih hf

theorem find?_revokes {ns : List Nat} (hf : s.entries.find? key = some e)
    (hn : ∀ n ∈ ns, e.lease ≠ some n) :
    (ns.foldl Store.revoke s).entries.find? key = some e := by
  induction ns generalizing s with
  | nil => exact hf
  | cons n ns ih =>
    rw [List.forall_mem_cons] at hn
    exact ih (find?_revoke hf hn.1) hn.2

/-- A key stays as long as its lease runs. -/
theorem find?_lapse {ttl : Int} (hf : s.entries.find? key = some e) (hn : e.lease = some n)
    (hl : s.leases.find? n = some ttl) (ht : t < since n + ttl) :
    (s.lapse since t).entries.find? key = some e := by
  refine find?_revokes hf fun m hm hlease => ?_
  obtain rfl : n = m := Option.some.inj (hn.symm.trans hlease)
  have hended := (List.mem_filter.mp hm).2
  rw [hl, Option.any_some, decide_eq_true_eq] at hended
  omega

end Lapse

/-! ### Locks on leases -/

section Lock
variable {options : Options} {op : Operation} {c : Claim} {s : Store} {P : Fault → Prop}

/-- How long the lease runs: past every second before the expiry, and past the second in which it is
granted. -/
theorem lt_timeToLive {l : Lock} {expiry now t : Int} (hl : l.expiry = some expiry)
    (hzero : expiry ≠ 0 ∨ 0 ≤ now) (ht : t ≤ expiry) (hlast : t < expiry ∨ t = now) :
    t < now + timeToLive l now := by
  have httl : expiry - now ≤ timeToLive l now ∧ 1 ≤ timeToLive l now := by
    rw [timeToLive, Decision.orNow, Decision.orZero, hl, Option.getD_some]
    split <;> omega
  omega

/-- Under the key of the lock lies the text of the record, and it is there at `t` when its lease was
granted at `now`. -/
def StandsAt (options : Options) (c : Claim) (now t : Int) (l : Lock) (s : Store) : Prop :=
  ∃ e n, s.entries.find? (keyOf options c.realm c.name) = some e ∧ ofRecordText e.value = .ok l ∧
    e.lease = some n ∧
    ∀ since : Nat → Int, since n = now → (s.lapse since t).entries.find?
      (keyOf options c.realm c.name) = some e

theorem Laid.standsAt {l : Lock} {expiry now t : Int} (hrecord : l.IsRecord)
    (h : Laid (keyOf options c.realm c.name) l now s) (hl : l.expiry = some expiry)
    (hzero : expiry ≠ 0 ∨ 0 ≤ now) (ht : t ≤ expiry) (hlast : t < expiry ∨ t = now) :
    StandsAt options c now t l s := by
  obtain ⟨text, lease, before, htext, hlease, rfl⟩ := h
  refine ⟨_, lease, Assoc.find?_put_self .., ofRecordText_recordText hrecord htext, rfl,
    fun since hsince => ?_⟩
  refine find?_lapse (Assoc.find?_put_self ..) rfl hlease ?_
  rw [hsince]
  exact lt_timeToLive hl hzero ht hlast

/-- However unreliable the calls are, what an acquisition or a renewal that succeeds has put is
there until its expiry: at every second before it, and at the clock of the operation. -/
theorem key_outlasts_hold (options : Options) (s : Store) (op : Operation)
    (hk : op.kind ≠ .release) (c : Claim) (h : op.check = .ok c) :
    Ensures (unreliable fun _ => True) (fun r s' => ∀ a expiry, r = .ok a → a.success = some true →
      a.lock.expiry = some expiry → op.now ≤ expiry → expiry ≠ 0 ∨ 0 ≤ op.now →
      ∀ t, op.now ≤ t → t < expiry ∨ t = op.now → StandsAt options c op.now t a.lock s')
      (op.session (service options)) s := by
  rw [Operation.ensures_session _ h]
  refine (ensures_through_attempt h).mono
    fun r s' hthrough a expiry ha hs hexpiry hnow hzero t _ hlast => ?_
  cases r with
  | error e => cases ha
  | ok v =>
    cases ha
    rw [Operation.answer, Answer.success_ofOutcome, Option.some.injEq] at hs
    obtain ⟨existing, rfl, hlaid⟩ := hthrough v rfl hs
    have hlock : (op.answer (op.decide existing)).lock = (op.decide existing).2.getD op.lock :=
      Answer.lock_ofOutcome _ hs
        (by rw [Operation.operation_decide]; revert hk; cases op.kind <;> decide)
    rw [hlock] at hexpiry ⊢
    have ht : t ≤ expiry := by omega
    have hput := Operation.effect_of_success hk hs
    exact (hlaid _ hput).standsAt (Operation.isRecord_of_put h hput) hexpiry hzero ht hlast

/-- A lock that is renewed by twenty seconds is there for the rest of its first lease and the whole
of the second. -/
theorem key_outlasts_hold_renewed :
    let c : Claim := ⟨"jobs", "nightly", "ada", "one"⟩
    let acquired :=
      (Operation.session ⟨.acquire, c.record (some 10) (some 15), 5⟩ (service {})).run client {} []
    let renewal : Operation := ⟨.renew, c.record (some 20) none, 12⟩
    let renewed := (renewal.session (service {})).run client acquired.store []
    renewal.kind ≠ .release ∧ renewal.check = .ok c ∧
      renewed.result = .ok (.succeeded (c.lock (some 30) (some 35)) .renewed) ∧
      ∀ t, 12 ≤ t → t < 35 → StandsAt {} c 12 t (c.lock (some 30) (some 35)) renewed.store := by
  intro c acquired renewal renewed
  have hk : renewal.kind ≠ .release := nofun
  have hcheck : renewal.check = .ok c := rfl
  have hresult : renewed.result = .ok (.succeeded (c.lock (some 30) (some 35)) .renewed) := by
    decide +kernel
  have hserved : client ∈ unreliable fun _ => True := .inl (.inl rfl)
  refine ⟨hk, hcheck, hresult, fun t ht ht' => ?_⟩
  exact (key_outlasts_hold {} acquired.store renewal hk c hcheck).run hserved
    [] _ 35 hresult rfl rfl (by decide)
    (.inl (by decide)) t ht (.inl ht')

/-- At the expiry, when the lock is still held, its key is gone. Before the epoch the key of a lock
that expires at zero is gone after a second. -/
theorem not_key_outlasts_hold :
    let c : Claim := ⟨"jobs", "nightly", "ada", "one"⟩
    let l (expiry : Int) := c.lock (some 10) (some expiry)
    let run (expiry now : Int) :=
      (Operation.session ⟨.acquire, c.record (some 10) (some expiry), now⟩ (service {})).run client
        {} []
    let Outlasts (expiry now t : Int) : Prop :=
      (run expiry now).result = .ok (.succeeded (l expiry) .acquired) →
      now ≤ t → t ≤ expiry → StandsAt {} c now t (l expiry) (run expiry now).store
    ¬ Outlasts 15 5 15 ∧ ¬ Outlasts 0 (-10) (-5) := by
  intro c l run Outlasts
  have hgone {expiry now t : Int} (h : Outlasts expiry now t)
      (hr : (run expiry now).result = .ok (.succeeded (l expiry) .acquired)) (hnow : now ≤ t)
        (ht : t ≤ expiry) :
      ((run expiry now).store.lapse (fun _ => now) t).entries.find?
        (keyOf {} c.realm c.name) ≠ none := by
    obtain ⟨e, n, -, -, -, hf⟩ := h hr hnow ht
    rw [hf _ rfl]
    exact nofun
  constructor
  · intro h
    exact hgone h (by decide +kernel) (by decide) (by decide) (by decide +kernel)
  · intro h
    exact hgone h (by decide +kernel) (by decide) (by decide) (by decide +kernel)

end Lock

end Leasehold.KeyValue
