import Leasehold.Proofs.Service.KeyValue
import Leasehold.Proofs.Session.Pool

/-!
# Concurrent operations on a key-value store are atomic

Any number of operations, each with its own options, share one store of well-formed records, and
their client calls come in any order. An operation that ends in anything but `*_MAX_RETRIES` takes
effect at its last call: what the rules decide on the record that the store holds at that instant is
its answer, what they want put or deleted is all that it ever changes (`AtomicAt`). One that lost
every race has changed nothing (`atomic`).

What is assumed is that no record that the operation is to write has an integer of too many digits.
The rest is the invariant of `Proofs/Store/KeyValue`: a key whose revision is still the one that was
read has not been touched, whatever was deleted and created in between.
-/

namespace Leasehold.KeyValue
open Session

/-- The key of the lock that an operation is about. -/
def Options.key (options : Options) (op : Operation) : String := options.root ++ op.lock.key

/-- What the rules want put for the operation can be put. -/
def Fits (options : Options) (op : Operation) (s : Store) : Prop :=
  ∀ l, op.effect (recordAt s (options.key op)) = .put l → Writable l

/-- How the operation ends when it answers. -/
def Answers (contention : Prop) (seen : Store → Prop) (options : Options) (op : Operation)
    (r : Except Error Answer) (s s' : Store) : Prop :=
  ∀ a, r = .ok a → ∃ v, a = op.answer v ∧ Ends contention seen op (options.key op) (.ok v) s s'

variable {ι : Type}

/-- Operations on one store, none of which has made a call yet. -/
def calls (s : Store) (options : ι → Options) (ops : ι → Operation) :
    Pool interface Store Answer ι :=
  ⟨s, fun i => (ops i).session (service (options i))⟩

section Session
variable {options : Options} {op : Operation} {contention : Prop} {seen : Store → Prop}

theorem key_of_check {c : Claim} (h : op.check = .ok c) :
    options.key op = keyOf options c.realm c.name := by
  have hk : op.lock.key = c.key := by
    have hl := congrArg Lock.key (op.lock_of_check h)
    rwa [Claim.key_lock] at hl
  exact congrArg (options.root ++ ·) hk

theorem obeys_session (s : Store) : (op.session (service options)).Obeys (terms contention seen)
    (fun r _ => Answers contention seen options op r) none s s := by
  cases h : op.check with
  | error e =>
    rw [op.session_of_error _ h, obeys_fail]
    intro a ha
    cases ha
  | ok c =>
    rw [op.session_of_check _ h, obeys_bind]
    refine (@obeys_attempt contention seen options op c h s).mono fun r g s s' hr => ?_
    cases r with
    | ok v =>
      rintro a ⟨rfl⟩
      exact ⟨v, rfl, by rw [key_of_check h]; exact hr⟩
    | error e =>
      intro a ha
      cases ha

theorem result?_operate {α : Type} {operation : Action} {event : String} {c : Claim}
    {exhausted failed : α} {attempt : Session interface (Option α)} (h : attempt.result? = none) :
    (operate options operation event c exhausted failed attempt).result? = none :=
  result?_rescue _ _ (result?_bind _ _ (result?_bind _ _ h))

theorem result?_session {c : Claim} (h : op.check = .ok c) :
    (op.session (service options)).result? = none := by
  rw [op.session_of_check _ h]
  refine result?_bind _ _ ?_
  cases hk : op.kind with
  | acquire =>
    simp only [Operation.attempt, hk]
    exact result?_bind _ _ (result?_operate rfl)
  | renew =>
    simp only [Operation.attempt, hk]
    exact result?_operate rfl
  | release =>
    simp only [Operation.attempt, hk]
    exact result?_bind _ _ (result?_operate rfl)

end Session

theorem unfinished_of_answer [DecidableEq ι] {s : Store} {options : ι → Options}
    {ops : ι → Operation} {schedule : List ι} {i : ι} {a : Answer}
    (ha : ((calls s options ops).run client schedule).result? i = some (.ok a)) :
    (calls s options ops).result? i = none := by
  cases h : (ops i).check with
  | ok c => exact result?_session h
  | error e =>
    have hr : (calls s options ops).result? i = some (.error e) := by
      show ((ops i).session (service (options i))).result? = _
      rw [(ops i).session_of_error _ h]; rfl
    rw [Pool.result?_run hr] at ha
    cases ha

/-- Operation `i` of a run answers `a` and takes effect, as a whole, at its call after `before`. -/
structure AtomicAt [DecidableEq ι] (options : ι → Options) (ops : ι → Operation)
    (p : Pool interface Store Answer ι) (schedule : List ι) (i : ι) (a : Answer)
    (before after : List ι) : Prop where
  split : schedule = before ++ i :: after
  /-- It is the last call of the operation. -/
  last : (p.run client before).result? i = none ∧
    (p.run client (before ++ [i])).result? i = some (.ok a)
  /-- The answer is the decision on the record that is there. -/
  answer : a = (ops i).answer
    ((ops i).decide (recordAt (p.run client before).store ((options i).key (ops i))))
  /-- What the decision wants is done. -/
  effect : Applied ((options i).key (ops i))
    ((ops i).effect (recordAt (p.run client before).store ((options i).key (ops i))))
    (p.run client before).store (p.run client (before ++ [i])).store
  /-- No other call of the operation changes an entry. -/
  others : ∀ before' after', schedule = before' ++ i :: after' → before' ≠ before →
    (p.run client (before' ++ [i])).store.entries = (p.run client before').store.entries

theorem retriesExhausted_answer (op : Operation) (v : Verdict) :
    (op.answer v).retriesExhausted = v.1.retriesExhausted := by
  obtain ⟨o, l⟩ := v
  cases o <;> rfl

theorem retriesExhausted_decide (op : Operation) (existing : Option Lock) :
    (op.decide existing).1.retriesExhausted = false := by
  obtain ⟨kind, l, now⟩ := op
  cases kind <;> simp only [Operation.decide]
  · unfold Decision.acquire; repeat' split
    all_goals rfl
  · unfold Decision.renew; repeat' split
    all_goals rfl
  · unfold Decision.release; repeat' split
    all_goals rfl

/-- The operations of any run are atomic, and those that lost every race have changed nothing. -/
theorem atomic [DecidableEq ι] {s : Store} (hs : Good s) (options : ι → Options)
    (ops : ι → Operation) (schedule : List ι) {i : ι}
    (hfits : ∀ before j after, schedule = before ++ j :: after →
      Fits (options i) (ops i) ((calls s options ops).run client before).store)
    {a : Answer} (ha : ((calls s options ops).run client schedule).result? i = some (.ok a)) :
    (a.retriesExhausted = false → ∃ before after, AtomicAt options ops
      (calls s options ops) schedule i a before after) ∧
    (a.retriesExhausted = true → ∀ before after, schedule = before ++ i :: after →
      ((calls s options ops).run client (before ++ [i])).store.entries =
        ((calls s options ops).run client before).store.entries) := by
  -- the other operations may fail to write, so all that is known of the store at their calls is
  -- what `i` needs
  have hready : (calls s options ops).Ready (terms True (Fits (options i) (ops i)))
      (fun j r _ => Answers True (Fits (options i) (ops i)) (options j) (ops j) r) false :=
    .start (fun _ => fair _) (sound True _) hs fun j s => obeys_session s
  have hprogress := Pool.progress (fair _) (.inl rfl) hready schedule hfits
  obtain ⟨before, after, ht⟩ := hprogress.ended i _ (unfinished_of_answer ha) ha
  obtain ⟨g, t, hsil, hQ⟩ := ht.effect
  obtain ⟨v, rfl, hends⟩ := hQ a rfl
  have hsil : t.entries = ((calls s options ops).run client before).store.entries := hsil
  have hrec : recordAt t ((options i).key (ops i)) =
      recordAt ((calls s options ops).run client before).store ((options i).key (ops i)) :=
    recordAt_congr (congrArg (Assoc.find? · ((options i).key (ops i))) hsil)
  rw [retriesExhausted_answer]
  cases hends with
  | decided hr h _ =>
    cases hr
    rw [retriesExhausted_decide]
    refine ⟨fun _ => ⟨before, after, ht.split, ⟨ht.unfinished, ht.finished⟩, by rw [hrec], ?_,
      ht.others⟩, nofun⟩
    rw [← hrec]
    exact ⟨fun k hk => (h.others k hk).trans
      (congrArg (Assoc.find? · k) hsil), by rw [h.here, hrec]⟩
  | exhausted hr hc h =>
    cases hr
    refine ⟨fun hx => ?_, fun _ before' after' hsplit => ?_⟩
    · cases hk : (ops i).kind <;> rw [hk] at hx <;> cases hx
    · by_cases hb : before' = before
      · subst hb; exact h.trans hsil
      · exact ht.others before' after' hsplit hb
  | unwritable hr hu h => exact absurd (hu.seen _ hu.effect) hu.text

theorem eq_ok_of_toOption {α : Type} {x : Option (Except Error α)} {a : α}
    (h : x.bind Except.toOption = some a) :
    x = some (.ok a) := by
  match x, h with
  | some (.ok b), h => cases h; rfl

/-- Two acquisitions of one lock. -/
def rivals : Bool → Operation
  | false => ⟨.acquire, Claim.record ⟨"jobs", "nightly", "ada", "one"⟩ (some 10) (some 15), 5⟩
  | true => ⟨.acquire, Claim.record ⟨"jobs", "nightly", "bob", "two"⟩ (some 10) (some 16), 6⟩

/-- Both read before either commits; the one that loses reads again and is refused. -/
theorem atomic_rivals :
    let schedule := [false, true, false, true, true, false, false, false]
    Good {} ∧ ((calls {} (fun _ => {}) rivals).run client schedule).result? false =
        some (.ok ((rivals false).answer (.acquireConflict, none))) ∧
      ∃ before after, AtomicAt (fun _ => {}) rivals (calls {} (fun _ => {}) rivals) schedule false
        ((rivals false).answer (.acquireConflict, none)) before after := by
  intro schedule
  have hgood : Good {} := nofun
  have hresult : ((calls {} (fun _ => {}) rivals).run client schedule).result? false =
      some (.ok ((rivals false).answer (.acquireConflict, none))) :=
    eq_ok_of_toOption (by decide +kernel)
  have hfits : ∀ before j after, schedule = before ++ j :: after →
      Fits {} (rivals false) ((calls {} (fun _ => {}) rivals).run client before).store := by
    intro before j after _ l hl
    have hw := (Operation.written_of_put hl).2
    cases hw
    exact writable_of_digits (Claim.isRecord_lock _ _ _) (by decide +kernel)
  exact ⟨hgood, hresult, (atomic hgood _ rivals schedule hfits hresult).1 rfl⟩

end Leasehold.KeyValue
