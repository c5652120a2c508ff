import Leasehold.Proofs.Backend
import Leasehold.Proofs.Session.Pool

/-!
# Mutual exclusion

Any number of operations on one lock run against one store, call by call in any order, or
transaction by transaction where the store runs them so. Meanwhile true time goes on and the store's
sweeper passes. The clocks of the callers may be late, but not early: when an operation takes
effect, its `now` is not in the future.

A holder's grant is the record of its last success that no release followed (`grant`). The invariant
(`World.Inv`) is that a grant that has not run out is the very record that the store holds, so there
is never more than one (`World.Reach.at_most_one_holder`).
-/

namespace Leasehold
open Session

/-- Who holds a lock: owner and instance. -/
abbrev Holder := Option Value × Option Value

def Lock.holder (l : Lock) : Holder := (l.owner, l.instanceId)

/-- The grant of a holder, by the operations that were answered, the latest first: the record of its
last successful acquisition or renewal, unless it has released the lock since. -/
def grant (h : Holder) : List (Operation × Answer) → Option Lock
  | [] => none
  | (op, a) :: earlier =>
    if op.lock.holder = h ∧ a.success = some true then
      if op.kind = .release then none else some a.lock
    else grant h earlier

/-- The history after an operation that ended in `r`. -/
def enter (op : Operation) (r : Except Error Answer) (history : List (Operation × Answer)) :
    List (Operation × Answer) :=
  match r with
  | .ok a => (op, a) :: history
  | .error _ => history

section Grant
variable {op : Operation} {a : Answer} {r : Except Error Answer}
    {history : List (Operation × Answer)}

theorem grant_of_refused (hr : ∀ a, r = .ok a → a.success = some false) (x : Holder) :
    grant x (enter op r history) = grant x history := by
  cases r with
  | error e => rfl
  | ok a =>
    have hs : ¬(op.lock.holder = x ∧ a.success = some true) := by
      rw [hr a rfl]; exact fun h => nomatch h.2
    rw [enter, grant, if_neg hs]

theorem grant_of_success (hs : a.success = some true) (x : Holder) :
    grant x (enter op (.ok a) history) =
    if op.lock.holder = x then (if op.kind = .release then none else some a.lock) else grant x
      history := by
  simp only [enter, grant, hs, and_true]

end Grant

/-- A store with operations under way on it, the true time, and the operations that have been
answered, the latest first. -/
structure World (S : System) (ι : Type) where
  pool : Pool S.I S.Store Answer ι
  time : Int
  history : List (Operation × Answer)

namespace World
variable {S : System} {ι : Type}

/-- An empty store, and operations that have made no call yet. -/
def initial (S : System) (ops : ι → Operation) (t₀ : Int) : World S ι :=
  ⟨⟨S.empty, fun i => (ops i).session S.service⟩, t₀, []⟩

/-- The holder has a grant that has not run out. -/
def Holds (w : World S ι) (h : Holder) : Prop :=
  ∃ l e, grant h w.history = some l ∧ l.expiry = some e ∧ w.time ≤ e

/-- A grant that has not run out is the record in the store. -/
structure Inv (L : S.Laws) (ops : ι → Operation) (realm name : String) (w : World S ι) : Prop where
  ready : w.pool.Ready (L.terms True) (fun i r _ => S.Answers True (ops i) r) S.whole
  filed : System.Filed realm name (S.record w.pool.store (S.slot realm name))
  holder : ∀ h l, grant h w.history = some l → l.holder = h
  granted : ∀ h l e, grant h w.history = some l → l.expiry = some e → w.time ≤ e →
    S.record w.pool.store (S.slot realm name) = some l

variable {L : S.Laws} {ops : ι → Operation} {realm name : String} {w : World S ι} {t₀ : Int}

theorem Inv.start : Inv L ops realm name (initial S ops t₀) where
  ready := .start L.fair (L.sound True) ((L.good_eq True).symm ▸ L.good_empty) fun i s =>
    L.session (ops i) s
  filed := fun l hl => by
    rw [show S.record (initial S ops t₀).pool.store (S.slot realm name) =
      none from L.record_empty _] at hl; cases hl
  holder := by
    intro x l hg
    rw [show grant x (initial S ops t₀).history = none from rfl] at hg
    cases hg
  granted := by
    intro x l e hg
    rw [show grant x (initial S ops t₀).history = none from rfl] at hg
    cases hg

theorem Inv.tick (h : Inv L ops realm name w) {t : Int} (ht : w.time ≤ t) :
    Inv L ops realm name { w with time := t } :=
  ⟨h.ready, h.filed, h.holder, fun x l e hl he hte => h.granted x l e hl he (le_trans ht hte)⟩

/-- The sweeper drops no record that a live grant could be. -/
theorem Inv.sweep (h : Inv L ops realm name w) {s : S.Store} (hs : S.Sweep w.time w.pool.store s) :
    Inv L ops realm name { w with pool := { w.pool with store := s } } := by
  have hg : L.good w.pool.store := L.good_eq True ▸ h.ready.good
  have hrec := System.record_sweep hs (S.slot realm name)
  refine ⟨h.ready.outside L.fair ((L.good_eq True).symm ▸ L.good_sweep hg hs)
    fun hw => L.admits_sweep hw hs, ?_, h.holder, ?_⟩
  · rcases hrec with hr | ⟨hr, -⟩
    · show System.Filed realm name (S.record s (S.slot realm name))
      rw [hr]; exact h.filed
    · intro l hl
      rw [show S.record s (S.slot realm name) = some l from hl] at hr
      cases hr
  · intro x l e hl he hte
    have hold := h.granted x l e hl he hte
    rcases hrec with hr | ⟨-, hgone⟩
    · exact hr.trans hold
    · rw [hold, Lock.isGone, Option.all_some, Lock.isExpired, he, decide_eq_true_eq] at hgone
      exact absurd hte (not_le.mpr hgone)

/-- Whose record is live under a permitted operation is the caller. -/
theorem Inv.caller (h : Inv L ops realm name w) {op : Operation} {c : Claim} (hc : op.check = .ok c)
    (hp : op.permits (S.record w.pool.store (S.slot realm name)) = true) (hnow : op.now ≤ w.time)
    {x : Holder} {l : Lock} {e : Int} (hl : grant x w.history = some l) (he : l.expiry = some e)
    (hte : w.time ≤ e) : op.lock.holder = x := by
  rw [h.granted x l e hl he hte] at hp
  rcases Operation.expired_or_match hp with hx | hm
  · rw [Lock.isExpired, he, decide_eq_true_eq] at hx
    omega
  · rw [← h.holder x l hl, Operation.eq_of_match hc hm, op.lock_of_check hc]
    rfl

theorem Inv.ended (h : Inv L ops realm name w) {i : ι} {p' : Pool S.I S.Store Answer ι}
    {r : Except Error Answer}
    (hready : p'.Ready (L.terms True) (fun i r _ => S.Answers True (ops i) r) S.whole)
    (hnow : (ops i).now ≤ w.time)
    (hc : ∀ c, (ops i).check = .ok c → c.realm = realm ∧ c.name = name)
    (hd : S.Did (ops i) (S.record w.pool.store (S.slot realm name))
      (S.record p'.store (S.slot realm name)) r) :
    Inv L ops realm name { w with pool := p', history := enter (ops i) r w.history } := by
  cases hd with
  | @granted a c lease expiry hcheck hk hp hw hr hs hl ha =>
    subst hr
    have hholder : (ops i).lock.holder = a.lock.holder := by
      rw [hl, (ops i).lock_of_check hcheck]; rfl
    refine ⟨hready, ?_, fun x l hg => ?_, fun x l e hg he hte => ?_⟩
    · intro l hl'
      rw [ha] at hl'
      cases hl'
      exact ⟨c, lease, expiry, rfl, hc c hcheck⟩
    all_goals rw [grant_of_success hs, if_neg hk] at hg; split at hg
    · rename_i hx; cases hg; rw [← hholder, hx]
    · exact h.holder x l hg
    · cases hg; rw [ha, hl]
    · rename_i hx; exact absurd (h.caller hcheck hp hnow hg he hte) hx
  | @freed a c hcheck hk hp hr hs ha =>
    subst hr
    refine ⟨hready, ?_, fun x l hg => ?_, fun x l e hg he hte => ?_⟩
    · rcases ha with ha | ⟨ha, -⟩
      · intro l hl; rw [ha] at hl; cases hl
      · show System.Filed realm name (S.record p'.store (S.slot realm name))
        rw [ha]; exact h.filed
    all_goals rw [grant_of_success hs, if_pos hk] at hg; split at hg
    · cases hg
    · exact h.holder x l hg
    · cases hg
    · rename_i hx; exact absurd (h.caller hcheck hp hnow hg he hte) hx
  | refused hr ha =>
    refine ⟨hready, ?_, fun x l hg => ?_, fun x l e hg he hte => ?_⟩
    · show System.Filed realm name (S.record p'.store (S.slot realm name))
      rw [ha]; exact h.filed
    all_goals rw [grant_of_refused hr] at hg
    · exact h.holder x l hg
    · exact ha.trans (h.granted x l e hg he hte)

theorem Inv.silent (h : Inv L ops realm name w) {p' : Pool S.I S.Store Answer ι}
    (hready : p'.Ready (L.terms True) (fun i r _ => S.Answers True (ops i) r) S.whole)
    (hs : (L.terms True).silent w.pool.store p'.store) :
    Inv L ops realm name { w with pool := p' } := by
  have hr : S.record p'.store = S.record w.pool.store := L.record_of_silent hs
  refine ⟨hready, ?_, h.holder, fun x l e hg he hte => ?_⟩
  · show System.Filed realm name (S.record p'.store (S.slot realm name))
    rw [hr]; exact h.filed
  · show S.record p'.store (S.slot realm name) = some l
    rw [hr]; exact h.granted x l e hg he hte

/-! ### Runs -/

variable [DecidableEq ι]

/-- Operation `i` makes its next call, or runs as a transaction. Its answer enters the history as
soon as its last call is made. -/
def turn (ops : ι → Operation) (w : World S ι) (i : ι) : World S ι :=
  let pool := w.pool.step S.client S.whole i
  { w with pool, history := match w.pool.result? i, pool.result? i with
      | none, some r => enter (ops i) r w.history
      | _, _ => w.history }

/-- What may happen next. -/
inductive Step (ops : ι → Operation) (w : World S ι) : World S ι → Prop
  /-- When the operation takes effect, its `now` is not in the future. -/
  | turn (i : ι) (hnow : w.pool.result? i = none → (w.turn ops i).pool.result? i ≠ none →
    (ops i).now ≤ w.time) :
    Step ops w (w.turn ops i)
  | tick {t : Int} (ht : w.time ≤ t) : Step ops w { w with time := t }
  | sweep {s : S.Store} (hs : S.Sweep w.time w.pool.store s) : Step ops w
    { w with pool := { w.pool with store := s } }

/-- The worlds that a run from an empty store comes through. -/
inductive Reach (ops : ι → Operation) (t₀ : Int) : World S ι → Prop
  | start : Reach ops t₀ (initial S ops t₀)
  | step {w w' : World S ι} (h : Reach ops t₀ w) (hs : Step ops w w') : Reach ops t₀ w'

theorem Inv.turn (h : Inv L ops realm name w)
    (hops : ∀ i, (ops i).record.realm = some realm ∧ (ops i).record.name = some name) (i : ι)
    (hnow : w.pool.result? i = none → (w.turn ops i).pool.result? i ≠ none → (ops i).now ≤ w.time) :
    Inv L ops realm name (w.turn ops i) := by
  obtain ⟨hready, hturned⟩ := h.ready.step L.fair (L.sound True) (L.client_mem True) (L.seen True) i
  cases hturned with
  | silent hs hr =>
    have hturn : w.turn ops i = { w with pool := w.pool.step S.client S.whole i } := by
      simp only [World.turn, hr]
      cases w.pool.result? i <;> rfl
    rw [hturn]
    exact h.silent hready hs
  | @ended r g t hn hr ht ha =>
    have hturn : w.turn ops i =
      { w with pool := w.pool.step S.client S.whole i, history := enter (ops i) r w.history } := by
      simp only [World.turn, hn, hr]
    have hrec : S.record t = S.record w.pool.store := L.record_of_silent ht
    have hfiled := h.filed
    rw [← hrec] at hfiled
    have hd := ha.did L (hops i).1 (hops i).2 hfiled
    rw [hrec] at hd
    have hin : (ops i).now ≤ w.time := hnow hn (by
      show (w.pool.step S.client S.whole i).result? i ≠ none
      rw [hr]; exact nofun)
    rw [hturn]
    refine h.ended hready hin (fun c hc => ?_) hd
    have hrecord := (ops i).record_of_check hc
    exact ⟨Option.some.inj ((congrArg Record.realm hrecord).symm.trans (hops i).1),
      Option.some.inj ((congrArg Record.name hrecord).symm.trans (hops i).2)⟩

theorem Reach.inv (L : S.Laws)
    (hops : ∀ i, (ops i).record.realm = some realm ∧ (ops i).record.name = some name)
    (h : Reach ops t₀ w) : Inv L ops realm name w := by
  induction h with
  | start => exact .start
  | step _ hs ih =>
    cases hs with
    | turn i hnow => exact ih.turn hops i hnow
    | tick ht => exact ih.tick ht
    | sweep hs => exact ih.sweep hs

theorem Reach.turns (hnow : ∀ i, (ops i).now ≤ t₀) (schedule : List ι) :
    Reach ops t₀ (schedule.foldl (turn ops) (initial S ops t₀)) := by
  suffices ∀ w : World S ι, Reach ops t₀ w → w.time = t₀ →
    Reach ops t₀ (schedule.foldl (turn ops) w) from
    this _ .start rfl
  induction schedule with
  | nil => exact fun w h _ => h
  | cons i schedule ih =>
    intro w h ht
    exact ih (w.turn ops i) (.step h (.turn i fun _ _ => by rw [ht]; exact hnow i)) ht

/-- At any time at most one holder has a grant that has not run out. -/
theorem Reach.at_most_one_holder (b : Backend) (hb : b.Regular) {ops : ι → Operation}
    {realm name : String}
    (hops : ∀ i, (ops i).record.realm = some realm ∧ (ops i).record.name = some name) {t₀ : Int}
    {w : World b.system ι} (h : Reach ops t₀ w) {x y : Holder} (hx : w.Holds x) (hy : w.Holds y) :
    x = y := by
  have hinv := h.inv (b.laws hb) hops
  obtain ⟨l, e, hl, he, hle⟩ := hx
  obtain ⟨m, e', hm, he', hme⟩ := hy
  have hrec := (hinv.granted x l e hl he hle).symm.trans (hinv.granted y m e' hm he' hme)
  rw [← hinv.holder x l hl, ← hinv.holder y m hm, Option.some.inj hrec]

/-- Two holders that want the same lock. -/
def contenders : Bool → Operation
  | false => ⟨.acquire, Claim.record ⟨"jobs", "nightly", "ada", "one"⟩ (some 10) (some 15), 5⟩
  | true => ⟨.acquire, Claim.record ⟨"jobs", "nightly", "bob", "two"⟩ (some 10) (some 16), 6⟩

/-- Both have found the lock free, and the one that read last was the first to commit. -/
def contended : World (KeyValue.system {}) Bool :=
  [false, true, false, true, true].foldl (turn contenders) (initial _ contenders 6)

theorem at_most_one_holder_contended :
    Reach contenders 6 contended ∧ contended.Holds (some (.text "bob"), some (.text "two")) ∧
    (contenders true).lock.holder = (some (.text "bob"), some (.text "two")) := by
  have hreach : Reach contenders 6 contended := .turns (by decide) _
  have hholds : contended.Holds (some (.text "bob"), some (.text "two")) :=
    ⟨(contenders true).lock, 16, by decide +kernel, rfl, by decide⟩
  have hops : ∀ i, (contenders i).record.realm = some "jobs" ∧
    (contenders i).record.name = some "nightly" := by decide
  exact ⟨hreach, hholds, Reach.at_most_one_holder (.keyValue {}) trivial hops hreach hholds hholds⟩

end World

end Leasehold
