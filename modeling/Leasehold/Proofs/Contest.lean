import Leasehold.Proofs.Leases

/-!
# Many acquire, one wins

Any number of acquisitions compete for one key of a key-value store. Until one of them commits the
key is as all of them have read it, so that the first commit goes through; from then on it differs
from what the others have read before, and they are refused by the winner's record. One call settles
the contest, so that nobody loses more than one commit (`one_winner`).

`Contested` is the state of a contest, `free_step` and `taken_step` are what a call of one contender
does to it. That revoking the lease of a lost commit leaves the winner's lock alone is taken from
their history (`LeaseHistory`).
-/

namespace Leasehold.KeyValue
open Session

/-- What is read as the revision of the key. -/
def revisionOf (s : Store) (key : String) : Nat := (s.entries.find? key).elim 0 Entry.modified

/-- The key is free: nothing is there, or a record that has expired. -/
def Vacant (s : Store) (key : String) (now : Int) : Prop :=
  ∀ e, s.entries.find? key = some e → e.Good s ∧ ∃ l, ofRecordText e.value = .ok l ∧
    l.isExpired now = true

/-- The key is still as it was in `s`. -/
structure Untouched (s : Store) (key : String) (t : Store) : Prop where
  same : t.entries.find? key = s.entries.find? key
  revision : s.revision ≤ t.revision

/-- The record is under the key, and the key has changed since revision `revision` was read. -/
def Taken (revision : Nat) (key : String) (l : Lock) (t : Store) : Prop :=
  ∃ e, t.entries.find? key = some e ∧ ofRecordText e.value = .ok l ∧ 1 ≤ e.created ∧
    e.modified ≠ revision

section Contender
variable {options : Options} {op : Operation} {s t : Store} {l : Lock} {p : Stage op}

/-- Nothing is lost yet, and what has been read is the given revision. -/
def Racing (revision : Nat) (p : Stage op) : Prop :=
  p.lost = 0 ∧ match p.place with
    | .read => True
    | .grant _ r _ _ | .put _ r _ _ _ => r = revision
    | _ => False

/-- One commit is lost at most, and the lock is someone else's. -/
def Losing (options : Options) (p : Stage op) : Prop :=
  p.lost ≤ 1 ∧ match p.place with
    | .read | .revoke _ => p.lost = 1
    | .through v _ =>
      v = (.acquireConflict, none) ∨ options.retries = 0 ∧ v = (.acquireMaxRetries, none)
    | _ => False

/-- The first commit went through. -/
def Winning (p : Stage op) : Prop :=
  p.lost = 0 ∧ ∃ o left, (o = .acquired ∨ o = .lockReplaced) ∧ p.place = .through (o, none) left

theorem effect_of_gone (hk : op.kind = .acquire) {existing : Option Lock}
    (h : Lock.isGone existing op.now = true) :
    op.effect existing = .put op.lock :=
  Operation.put_of_written (by simp only [Operation.permits, hk, h, Bool.true_or])
    (by simp only [Operation.written, hk])

theorem decide_of_taken (hk : op.kind = .acquire) (hm : op.lock.isMatch l = false)
    (hl : l.isExpired op.now = false) :
    op.effect (some l) = .keep ∧ op.decide (some l) = (.acquireConflict, none) := by
  have hd : op.decide (some l) = (.acquireConflict, none) := by
    simp only [Operation.decide, hk, Decision.acquire, hm, Lock.isActive, hl]
    rfl
  exact ⟨Operation.effect_not_acquired hk (by rw [hd]; decide), hd⟩

theorem holds_of_untouched {key : String} {now : Int} (hv : Vacant s key now)
    (h : Untouched s key t) :
    t.holds (unchanged key (revisionOf s key)) = true := by
  cases he : s.entries.find? key with
  | none =>
    simp only [revisionOf, he, Option.elim_none, unchanged, if_true, Store.holds,
      h.same, decide_true]
  | some e =>
    have hm := (hv e he).1.modified
    have hu : unchanged key e.modified = .modified key e.modified := if_neg (by omega)
    simp only [revisionOf, he, Option.elim_some, hu, Store.holds, h.same, decide_true]

theorem not_holds_of_taken {revision : Nat} {key : String} (h : Taken revision key l t) :
    t.holds (unchanged key revision) = false := by
  obtain ⟨e, he, -, hc, hm⟩ := h
  by_cases hr : revision = 0
  · simp only [unchanged, if_pos hr, Store.holds, he, Option.elim_some, decide_eq_false_iff_not]
    omega
  · simp only [unchanged, if_neg hr, Store.holds, he, Option.elim_some, decide_eq_false_iff_not]
    exact hm

theorem racing_decided (hk : op.kind = .acquire) {existing : Option Lock}
    (h : Lock.isGone existing op.now = true) (revision : Nat) :
    Racing revision ⟨0, decided op existing revision⟩ := by
  rw [decided_eq (effect_of_gone hk h)]
  exact ⟨rfl, rfl⟩

theorem lock_of_put (hk : op.kind = .acquire) {existing : Option Lock}
    (h : op.effect existing = .put l) :
    l = op.lock := by
  have hl := (Operation.written_of_put h).2
  simp only [Operation.written, hk, Option.some.injEq] at hl
  exact hl.symm

theorem outcome_of_put (hk : op.kind = .acquire) {existing : Option Lock}
    (h : op.effect existing = .put l) :
    (op.decide existing).1 = .acquired ∨ (op.decide existing).1 = .lockReplaced := by
  have hs := (Operation.isSuccess_decide existing).trans (Operation.written_of_put h).1
  rw [← Operation.acquire_decision hk] at hs ⊢
  unfold Decision.acquire at hs ⊢
  repeat' split at hs
  all_goals simp_all [Outcome.isSuccess, Outcome.isHeld, Outcome.isCleared]

theorem revisionOf_le {key : String} {now : Int} (hv : Vacant s key now) :
    revisionOf s key ≤ s.revision := by
  cases he : s.entries.find? key with
  | none => rw [revisionOf, he]; exact Nat.zero_le _
  | some e => rw [revisionOf, he]; exact (hv e he).1.not_later

theorem taken_put {key text : String} {now : Int} (hv : Vacant s key now) (h : Untouched s key t)
    (hl : l.IsRecord) (ht : recordText l = .ok text) (lease : Option Nat) :
    Taken (revisionOf s key) key l (t.apply (.put key text lease)) := by
  have hrevision := revisionOf_le hv
  have hlater := h.revision
  refine ⟨_, Assoc.find?_put_self _ _ _, ofRecordText_recordText hl ht, ?_, ?_⟩
  · show 1 ≤ (t.entries.find? key).elim (t.revision + 1) Entry.created
    rw [h.same]
    cases he : s.entries.find? key with
    | none => exact Nat.succ_le_succ (Nat.zero_le _)
    | some e => exact (hv e he).1.created
  · show t.revision + 1 ≠ revisionOf s key
    omega

theorem client_commit {compares : List Compare} {success failure : List Change} {b : Bool}
    (h : (client (.commit compares success failure) t).1 = .ok b) : compares.all t.holds = b :=
  Except.ok.inj h

/-- While the key is free, a call leaves it as it is, or is a commit that goes through. -/
theorem free_step (hk : op.kind = .acquire) (hw : Writable op.lock)
    (hv : Vacant s (options.key op) op.now) (hf : Untouched s (options.key op) t)
    (hp : Racing (revisionOf s (options.key op)) p) {call : Call}
    (hmay : (protocol options op).may p call) :
    Untouched s (options.key op) (client call t).2 ∧
        Racing (revisionOf s (options.key op))
          ((protocol options op).next p call (client call t).1) ∨
      Taken (revisionOf s (options.key op)) (options.key op) op.lock (client call t).2 ∧
        Winning ((protocol options op).next p call (client call t).1) := by
  have hmoves := moves_of_may hmay (client call t).1
  generalize (protocol options op).next p call (client call t).1 = p' at hmoves ⊢
  generalize hr : (client call t).1 = reply at hmoves
  obtain ⟨lost, place⟩ := p
  obtain ⟨hlost, hp⟩ := hp
  obtain rfl : lost = 0 := hlost
  cases hmoves with
  | absent =>
    -- nothing has been read, and nothing was there
    have hread : s.entries.find? (options.key op) = none := by
      rw [← hf.same]
      exact Option.map_eq_none_iff.mp (Except.ok.inj hr)
    refine .inl ⟨hf, ?_⟩
    rw [revisionOf, hread]
    exact racing_decided hk rfl 0
  | @found text revision l ht =>
    obtain ⟨e, he, hread⟩ := Option.map_eq_some_iff.mp (Except.ok.inj hr)
    obtain ⟨rfl, rfl⟩ := Prod.mk.inj hread
    rw [hf.same] at he
    obtain ⟨-, l', hl, hgone⟩ := hv e he
    cases hl.symm.trans ht
    have hgone : Lock.isGone (some l) op.now = true := hgone
    refine .inl ⟨hf, ?_⟩
    rw [revisionOf, he]
    exact racing_decided hk hgone e.modified
  | unreadable ht =>
    obtain ⟨e, he, hread⟩ := Option.map_eq_some_iff.mp (Except.ok.inj hr)
    obtain ⟨rfl, rfl⟩ := Prod.mk.inj hread
    obtain ⟨-, l', hl, -⟩ := hv e (hf.same ▸ he)
    cases hl.symm.trans ht
  | granted lease ht => exact .inl ⟨⟨hf.same, hf.revision⟩, rfl, hp⟩
  | @unwritable _ _ _ h _ lease ht =>
    obtain ⟨text, ht'⟩ := hw
    rw [lock_of_put hk h] at ht
    cases ht.symm.trans ht'
  | @written existing revision text lease h =>
    obtain rfl : revision = revisionOf s (options.key op) := hp
    obtain ⟨l, he, ht⟩ := h
    cases lock_of_put hk he
    refine .inr ⟨?_, rfl, (op.decide existing).1, none, ?_, ?_⟩
    · simp only [client, client_commit hr, if_true]
      exact taken_put hv hf ⟨op.record, rfl⟩ ht (some lease)
    · exact outcome_of_put hk he
    · exact congrArg (Place.through · none)
        (Operation.decide_snd (by rw [hk]; decide) existing).symm
  | @beaten existing revision text lease h =>
    obtain rfl : revision = revisionOf s (options.key op) := hp
    have hholds := client_commit hr
    rw [List.all_cons, holds_of_untouched hv hf] at hholds
    cases hholds
  | deleted | forestalled | revoked => exact hp.elim
  | failed f hc => exact absurd hr client_error

theorem losing_again (hk : op.kind = .acquire) : Losing options (again options op 1) := by
  refine again_cases (fun hlost => ?_) fun hlost => ?_
  · rw [hk]
    exact ⟨Nat.le_refl _, .inr ⟨Nat.lt_one_iff.mp hlost, rfl⟩⟩
  · exact ⟨Nat.le_refl _, rfl⟩

/-- When the key is taken, a call of somebody else leaves it as it is. -/
theorem taken_step {revision : Nat} (hk : op.kind = .acquire) (hw : Writable op.lock)
    (hm : op.lock.isMatch l = false) (hl : l.isExpired op.now = false)
    (ht : Taken revision (options.key op) l t) (hp : Racing revision p ∨ Losing options p)
    (ho : Owns p.place.lease t) {call : Call} (hmay : (protocol options op).may p call) :
    Taken revision (options.key op) l (client call t).2 ∧
      (Racing revision ((protocol options op).next p call (client call t).1) ∨
        Losing options ((protocol options op).next p call (client call t).1)) := by
  have hmoves := moves_of_may hmay (client call t).1
  generalize (protocol options op).next p call (client call t).1 = p' at hmoves ⊢
  generalize hr : (client call t).1 = reply at hmoves
  obtain ⟨lost, place⟩ := p
  have hlost : lost ≤ 1 :=
    hp.elim (fun h => Nat.le_trans (Nat.le_of_eq h.1) (Nat.zero_le _)) fun h => h.1
  obtain ⟨e, he, htext, hc, hr'⟩ := id ht
  cases hmoves with
  | absent =>
    rw [Option.map_eq_none_iff.mp (Except.ok.inj hr)] at he
    cases he
  | found hread =>
    obtain ⟨e', he', hfound⟩ := Option.map_eq_some_iff.mp (Except.ok.inj hr)
    obtain ⟨rfl, rfl⟩ := Prod.mk.inj hfound
    cases he.symm.trans he'
    cases htext.symm.trans hread
    obtain ⟨heffect, hdecide⟩ := decide_of_taken hk hm hl
    rw [decided_eq heffect]
    exact ⟨ht, .inr ⟨hlost, .inl hdecide⟩⟩
  | unreadable hread =>
    obtain ⟨e', he', hfound⟩ := Option.map_eq_some_iff.mp (Except.ok.inj hr)
    obtain ⟨rfl, rfl⟩ := Prod.mk.inj hfound
    cases he.symm.trans he'
    cases htext.symm.trans hread
  | granted =>
    rcases hp with ⟨hlost, hp⟩ | ⟨-, hp⟩
    · exact ⟨ht, .inl ⟨hlost, hp⟩⟩
    · exact hp.elim
  | @unwritable _ _ _ h _ lease ht =>
    obtain ⟨text, ht'⟩ := hw
    rw [lock_of_put hk h] at ht
    cases ht.symm.trans ht'
  | written =>
    rcases hp with ⟨-, hp⟩ | ⟨-, hp⟩
    · obtain rfl := hp
      have hholds := client_commit hr
      rw [List.all_cons, not_holds_of_taken ht] at hholds
      cases hholds
    · exact hp.elim
  | beaten =>
    rcases hp with ⟨hlost, -⟩ | ⟨-, hp⟩
    · obtain rfl : lost = 0 := hlost
      refine ⟨?_, .inr ⟨Nat.le_refl _, rfl⟩⟩
      simp only [client, client_commit hr]
      exact ht
    · exact hp.elim
  | deleted | forestalled => exact (hp.elim And.right And.right).elim
  | @revoked lease =>
    rcases hp with ⟨-, hp⟩ | ⟨-, hp⟩
    · exact hp.elim
    · obtain rfl : lost = 1 := hp
      refine ⟨⟨e, ?_, htext, hc, hr'⟩, .inr (losing_again hk)⟩
      -- the lease is the contender's own, so that the winner's record does not hang on it
      rw [show (client (.revoke lease) t).2.entries = t.entries from entries_revoke ho]
      exact he
  | failed f hc => exact absurd hr client_error

theorem Racing.not_through {revision : Nat} (h : Racing revision p) (v : Verdict)
    (left : Option Nat) :
    p.place ≠ .through v left := fun hp => by
  have hplace := h.2
  rw [hp] at hplace
  exact hplace

theorem Racing.length_le {revision n : Nat} (h : Racing revision p) (hn : p.Within n) : n ≤ 4 := by
  obtain ⟨lost, place⟩ := p
  obtain ⟨hlost, hp⟩ := h
  obtain rfl : lost = 0 := hlost
  cases place with
  | read => exact Nat.le_trans hn (Nat.zero_le _)
  | grant | put => exact Nat.le_trans hn (by show 4 * 0 + _ ≤ 4; decide)
  | delete | revoke | through => exact hp.elim

theorem Losing.verdict (h : Losing options p) {v : Verdict} {left : Option Nat}
    (hp : p.place = .through v left) :
    v = (.acquireConflict, none) ∨ options.retries = 0 ∧ v = (.acquireMaxRetries, none) := by
  have hplace := h.2
  rw [hp] at hplace
  exact hplace

theorem Losing.length_le {n : Nat} (h : Losing options p) (hn : p.Within n)
    (hp : ∀ v left, p.place ≠ .through v left) :
    n ≤ 4 := by
  obtain ⟨lost, place⟩ := p
  cases place with
  | read =>
    obtain rfl : lost = 1 := h.2
    exact hn
  | revoke =>
    obtain rfl : lost = 1 := h.2
    exact Nat.le_of_succ_le hn
  | grant | put | delete => exact h.2.elim
  | through v left => exact absurd rfl (hp v left)

end Contender

/-! ### The contest -/

section Contest
variable {ι : Type} {options : ι → Options} {ops : ι → Operation} {claims : ι → Claim}
  {key : String} {now : Int} {s t : Store}

/-- Different holders acquire one lock at the same time, while it is free. -/
structure Contest (options : ι → Options) (ops : ι → Operation) (claims : ι → Claim)
    (key : String) (now : Int) (s : Store) : Prop where
  acquires : ∀ i, (ops i).kind = .acquire
  checked : ∀ i, (ops i).check = .ok (claims i)
  same_key : ∀ i, (options i).key (ops i) = key
  same_now : ∀ i, (ops i).now = now
  live : ∀ i e, (ops i).lock.expiry = some e → now ≤ e
  distinct : Function.Injective fun i => ((claims i).owner, (claims i).instanceId)
  vacant : Vacant s key now
  fresh : Fresh s

/-- Everybody is racing for a free key, or one has won it and the others have been or will be
beaten. -/
inductive Contested (options : ι → Options) (ops : ι → Operation) (key : String) (s t : Store)
    (stages : (i : ι) → Stage (ops i)) : Prop
  | free (h : Untouched s key t) (hraces : ∀ i, Racing (revisionOf s key) (stages i))
  | won (w : ι) (h : Taken (revisionOf s key) key (ops w).lock t) (hw : Winning (stages w))
    (hothers : ∀ i, i ≠ w → Racing (revisionOf s key) (stages i) ∨ Losing (options i) (stages i))

theorem Contest.isMatch (h : Contest options ops claims key now s) {i j : ι} (hij : i ≠ j) :
    (ops i).lock.isMatch (ops j).lock = false := by
  have hne := h.distinct.ne hij
  rw [(ops i).lock_of_check (h.checked i), (ops j).lock_of_check (h.checked j)]
  simp only [ne_eq, Prod.mk.injEq, not_and_or] at hne
  rcases hne with hne | hne <;> simp [Lock.isMatch, Claim.lock, Lock.agrees_text, Ne.symm hne]

theorem Contest.isExpired (h : Contest options ops claims key now s) (i : ι) :
    (ops i).lock.isExpired now = false := by
  have he := (ops i).expiry_of_check (h.checked i) (h.acquires i)
  rw [Lock.isExpired, he]
  exact decide_eq_false (Int.not_lt.mpr (h.live i _ he))

theorem Contested.lost_le {stages : (i : ι) → Stage (ops i)}
    (hc : Contested options ops key s t stages) (i : ι) :
    (stages i).lost ≤ 1 := by
  have hracing {revision : Nat} (h : Racing revision (stages i)) : (stages i).lost ≤ 1 := by
    rw [h.1]
    exact Nat.zero_le 1
  cases hc with
  | free _ hraces => exact hracing (hraces i)
  | won w _ hwon hothers =>
    by_cases hi : i = w
    · subst hi; rw [hwon.1]; exact Nat.zero_le 1
    · exact (hothers i hi).elim hracing And.left

/-- Nobody is on its way for more than four calls. -/
theorem Contested.length_le {stages : (i : ι) → Stage (ops i)}
    (hc : Contested options ops key s t stages) (i : ι) {n : Nat} (hn : (stages i).Within n)
    (hi : ∀ v left, (stages i).place ≠ .through v left) : n ≤ 4 := by
  cases hc with
  | free _ hraces => exact (hraces i).length_le hn
  | won w _ hwon hothers =>
    by_cases hiw : i = w
    · subst hiw
      obtain ⟨-, o, left, -, hthrough⟩ := hwon
      exact absurd hthrough (hi _ left)
    · exact (hothers i hiw).elim (·.length_le hn) (·.length_le hn hi)

variable [DecidableEq ι]

theorem Contested.step (h : Contest options ops claims key now s) (hw : ∀ i, Writable (ops i).lock)
    {stages : (i : ι) → Stage (ops i)} (hc : Contested options ops key s t stages)
    (hl : ∀ i, Owns (stages i).place.lease t) {i : ι} {call : Call}
    (hmay : (protocol (options i) (ops i)).may (stages i) call) :
    Contested options ops key s (client call t).2
      (Function.update stages i
        ((protocol (options i) (ops i)).next (stages i) call (client call t).1)) := by
  have hkey := h.same_key i
  have hnow := h.same_now i
  cases hc with
  | free hf hraces =>
    have hv : Vacant s ((options i).key (ops i)) (ops i).now := by rw [hkey, hnow]; exact h.vacant
    have hraces' (j : ι) (_ : j ≠ i) := hraces j
    rcases free_step (h.acquires i) (hw i) hv (hkey ▸ hf)
      (hkey ▸ hraces i) hmay with ⟨hf', hp⟩ | ⟨ht, hp⟩
    · rw [hkey] at hf' hp
      exact .free hf' ((Function.forall_update_iff stages fun j p => Racing
        (revisionOf s key) p).mpr ⟨hp, hraces'⟩)
    · rw [hkey] at ht
      refine .won i ht (by rw [Function.update_self]; exact hp) fun j hj => ?_
      rw [Function.update_of_ne hj]
      exact .inl (hraces j)
  | won w ht hwon hothers =>
    have hiw : i ≠ w := by
      rintro rfl
      obtain ⟨-, o, left, -, hp⟩ := hwon
      have hcall : (stages i).place.call (options i) = some call := hmay
      rw [hp] at hcall
      cases hcall
    have hl' := h.isExpired w
    rw [← hnow] at hl'
    obtain ⟨ht', hp⟩ :=
      taken_step (h.acquires i) (hw i) (h.isMatch hiw) hl' (hkey ▸ ht) (hothers i hiw) (hl i) hmay
    rw [hkey] at ht'
    refine .won w ht' (by rw [Function.update_of_ne hiw.symm]; exact hwon) fun j hj => ?_
    by_cases hji : j = i
    · subst hji; rw [Function.update_self]; exact hp
    · rw [Function.update_of_ne hji]; exact hothers j hj

theorem contested (h : Contest options ops claims key now s) (hw : ∀ i, Writable (ops i).lock)
    {ms : History interface Store ι}
    (hA : HistoryOf (fun i => protocol (options i) (ops i)) {client} s t ms) :
    Contested options ops key s t fun i => (protocol (options i) (ops i)).after (stepsOf i ms) := by
  induction hA with
  | nil => exact .free ⟨rfl, Nat.le_refl _⟩ fun i => ⟨rfl, trivial⟩
  | @concat t ms i call cl hA hcl hmay ih =>
    obtain rfl : cl = client := hcl
    -- the tokens of the contenders are their own
    obtain ⟨hleasing, hafter⟩ := hA.along fun i => along_leasing (h.checked i)
    have hhistory := leaseHistory h.fresh (hleasing.mono (subset_troubled _ fun _ => False))
    rw [after_stepsOf_concat]
    refine ih.step h hw (fun i => ?_) hmay
    have howns := hhistory.leased.owns i
    rw [hafter i] at howns
    exact howns

/-- How a contest stands that `w` has won. -/
structure WonBy (options : ι → Options) (ops : ι → Operation) (key : String)
    (p : Pool interface (Store × History interface Store ι) Answer ι) (w : ι) : Prop where
  success : ∃ o, (o = .acquired ∨ o = .lockReplaced) ∧
    p.result? w = some (.ok ((ops w).answer (o, none)))
  record : recordAt p.store.1 key = some (ops w).lock
  refused : ∀ i, i ≠ w → ∀ r, p.result? i = some r →
    r = .ok ((ops i).answer (.acquireConflict, none)) ∨
    (options i).retries = 0 ∧ r = .ok ((ops i).answer (.acquireMaxRetries, none))

/-- Whoever has won is not refused, so that nobody else has won. -/
theorem WonBy.unique {p : Pool interface (Store × History interface Store ι) Answer ι} {w w' : ι}
    (h : WonBy options ops key p w) (h' : WonBy options ops key p w') : w' = w := by
  by_contra hne
  obtain ⟨o, ho, hsuccess⟩ := h'.success
  have hflag (v : Verdict) : ((ops w').answer v).success = some v.1.isSuccess :=
    Answer.success_ofOutcome _ _
  have ho : o.isSuccess = true := by rcases ho with rfl | rfl <;> rfl
  rcases h.refused w' hne _ hsuccess with hr | ⟨-, hr⟩
  all_goals
    have hanswer := congrArg Answer.success (Except.ok.inj hr)
    rw [hflag, hflag, ho] at hanswer
    cases hanswer

/-- How a contest stands after the turns of a schedule. -/
structure Resolved (options : ι → Options) (ops : ι → Operation) (key : String) (schedule : List ι)
    (p : Pool interface (Store × History interface Store ι) Answer ι) : Prop where
  /-- Nobody makes more than five calls. -/
  finished : ∀ i, 5 ≤ schedule.count i → (p.result? i).isSome = true
  /-- Whoever is finished, there is one winner by then. -/
  won : ∀ i, (p.result? i).isSome = true → ∃! w, WonBy options ops key p w
  losses : ∀ i, (account (stepsOf i p.store.2)).losses.length ≤ 1

/-- Contenders that have not made a call yet. -/
def contest (s : Store) (options : ι → Options) (ops : ι → Operation) :
    Pool interface (Store × History interface Store ι) Answer ι :=
  ⟨(s, []), fun i => (ops i).session (service (options i))⟩

theorem following_contest (s : Store) (options : ι → Options) (ops : ι → Operation)
    (schedule : List ι) :
    Pool.Following (fun i => protocol (options i) (ops i)) (fun i => Ended (ops i)) {client} s
      (schedule.map fun i => (i, client))
        ((contest s options ops).play (schedule.map fun i => (i, client))) := by
  refine Pool.follows_play (fun i => follows_session (options i) (ops i)) _ ?_
  rintro _ hm
  obtain ⟨i, -, rfl⟩ := List.mem_map.mp hm
  rfl

theorem result?_iff (h : Contest options ops claims key now s)
    {turns : List (ι × Client interface Store)}
    {p : Pool interface (Store × History interface Store ι) Answer ι}
    (hp : Pool.Following (fun i => protocol (options i) (ops i)) (fun i => Ended (ops i))
      {client} s turns p) {i : ι} {r : Except Error Answer} : p.result? i = some r ↔ ∃ v left,
        r = .ok ((ops i).answer v) ∧
      ((protocol (options i) (ops i)).after (stepsOf i p.store.2)).place = .through v left := by
  constructor
  · intro hr
    have hended := (follows_of_result hr).mp (hp.follows i)
    rw [Ended, h.checked i] at hended
    exact hended
  · rintro ⟨v, left, rfl, hthrough⟩
    obtain ⟨r, hr, hended⟩ := (hp.follows i).ended fun c (hmay : Place.call _ _ = some c) => by
      rw [hthrough] at hmay
      cases hmay
    rw [Ended, h.checked i] at hended
    obtain ⟨v', left', rfl, hthrough'⟩ := hended
    cases hthrough.symm.trans hthrough'
    exact hr

theorem length_of_unfinished {schedule : List ι}
    {p : Pool interface (Store × History interface Store ι) Answer ι}
    (hp : Pool.Following (fun i => protocol (options i) (ops i)) (fun i => Ended (ops i)) {client} s
      (schedule.map fun i => (i, client)) p) {i : ι} (hr : p.result? i = none) :
    (stepsOf i p.store.2).length = schedule.count i := by
  rw [hp.turns i hr, List.countP_map, List.count]
  exact List.countP_congr fun j _ => by simp

/-- Who is finished has won or has been beaten, and no one is beaten before someone has won. -/
theorem exists_wonBy (h : Contest options ops claims key now s)
    {turns : List (ι × Client interface Store)}
    {p : Pool interface (Store × History interface Store ι) Answer ι}
    (hp : Pool.Following (fun i => protocol (options i) (ops i)) (fun i => Ended (ops i))
      {client} s turns p) (hc : Contested options ops key s p.store.1 fun i =>
        (protocol (options i) (ops i)).after (stepsOf i p.store.2)) {i : ι} {r :
        Except Error Answer} (hr : p.result? i = some r) : ∃ w, WonBy options ops key p w := by
  obtain ⟨v, left, -, hthrough⟩ := (result?_iff h hp).mp hr
  cases hc with
  | free _ hraces => exact absurd hthrough ((hraces i).not_through v left)
  | won w ht hwon hothers =>
    obtain ⟨-, o, left, ho, hwon⟩ := hwon
    obtain ⟨e, he, htext, -, -⟩ := ht
    refine ⟨w, ⟨o, ho, (result?_iff h hp).mpr ⟨_, left, rfl, hwon⟩⟩, ?_, fun j hj r hr => ?_⟩
    · rw [recordAt, he, Option.bind_some, htext]
      rfl
    · obtain ⟨v, left, rfl, hthrough⟩ := (result?_iff h hp).mp hr
      rcases hothers j hj with hp | hp
      · exact absurd hthrough (hp.not_through v left)
      · rcases hp.verdict hthrough with rfl | ⟨hretries, rfl⟩
        · exact .inl rfl
        · exact .inr ⟨hretries, rfl⟩

/-- One contender wins and all others are refused, in whatever order they make their calls. -/
theorem one_winner (h : Contest options ops claims key now s) (hw : ∀ i, Writable (ops i).lock)
    (schedule : List ι) :
    Resolved options ops key schedule
      ((contest s options ops).play (schedule.map fun i => (i, client))) := by
  have hp := following_contest s options ops schedule
  have hcontested := contested h hw hp.history
  generalize (contest s options ops).play (schedule.map fun i => (i, client)) = p at hp hcontested ⊢
  refine ⟨fun i hi => ?_, fun i hi => ?_, fun i => ?_⟩
  · by_contra hr
    rw [Option.not_isSome_iff_eq_none] at hr
    have hlength := length_of_unfinished hp hr
    have hle : (stepsOf i p.store.2).length ≤ 4 := by
      refine hcontested.length_le i (within_length (hp.history.allows i)) fun v left hthrough => ?_
      rw [(result?_iff h hp).mpr ⟨v, left, rfl, hthrough⟩] at hr
      cases hr
    omega
  · obtain ⟨r, hr⟩ := Option.isSome_iff_exists.mp hi
    obtain ⟨w, hw⟩ := exists_wonBy h hp hcontested hr
    exact ⟨w, hw, fun w' hw' => hw.unique hw'⟩
  · rw [length_losses (hp.history.allows i)]
    exact hcontested.lost_le i

end Contest

/-- Two rivals at one time, who both read before either commits. -/
theorem one_winner_rivals :
    let ops (b : Bool) : Operation := { rivals b with now := 5 }
    let claims (b : Bool) : Claim :=
      if b then ⟨"jobs", "nightly", "bob", "two"⟩ else ⟨"jobs", "nightly", "ada", "one"⟩
    let schedule := [false, true, false, true, true, false, false, false]
    let p := (contest {} (fun _ => {}) ops).play (schedule.map fun i => (i, client))
    Contest (fun _ => {}) ops claims "locks/jobs:nightly" 5 {} ∧ (∀ i, Writable (ops i).lock) ∧
      (account (stepsOf false p.store.2)).losses = [some 1] ∧
      Resolved (fun _ => {}) ops "locks/jobs:nightly" schedule p := by
  intro ops claims schedule p
  have hcontest : Contest (fun _ => {}) ops claims "locks/jobs:nightly" 5 {} := {
    acquires := by decide
    checked := by rintro (_ | _) <;> rfl
    same_key := by decide +kernel
    same_now := fun _ => rfl
    live := by rintro (_ | _) e ⟨rfl⟩ <;> decide
    distinct := by rintro (_ | _) (_ | _) h <;> first | rfl | exact absurd h (by decide)
    vacant := fun _ he => nomatch he
    fresh := fun _ he => absurd he List.not_mem_nil }
  have hwritable (b : Bool) : Writable (ops b).lock := by
    cases b <;> exact writable_of_digits (Claim.isRecord_lock _ _ _) (by decide +kernel)
  exact ⟨hcontest, hwritable, by decide +kernel, one_winner hcontest hwritable schedule⟩

/-- Nobody wins with a record that is too long to be written. -/
theorem not_one_winner_overlong :
    ¬ ∀ (options : Unit → Options) (ops : Unit → Operation) (claims : Unit → Claim)
      (key : String) (now : Int) (s : Store),
      Contest options ops claims key now s → ∀ schedule, Resolved options ops key schedule
        ((contest s options ops).play (schedule.map fun i => (i, client))) := by
  intro h
  let claim : Claim := ⟨"jobs", "nightly", "ada", "one"⟩
  let op : Operation := ⟨.acquire, claim.record (some 10) (some (lastTick + 1)), 5⟩
  have hcontest : Contest (fun _ : Unit => {}) (fun _ => op)
    (fun _ => claim) "locks/jobs:nightly" 5 {} := {
    acquires := fun _ => rfl
    checked := fun _ => rfl
    same_key := fun _ => by decide +kernel
    same_now := fun _ => rfl
    live := by rintro _ e he; obtain rfl : lastTick + 1 = e := Option.some.inj he; decide +kernel
    distinct := fun _ _ _ => rfl
    vacant := fun _ he => nomatch he
    fresh := fun _ he => absurd he List.not_mem_nil }
  have hresult : ((contest {} (fun _ : Unit => {}) fun _ => op).play
    ([(), ()].map fun i => (i, client))).result? () =
      some (.ok (op.answer (.acquireError, none))) :=
    eq_ok_of_toOption (by decide +kernel)
  obtain ⟨w, hw, -⟩ := (h _ _ _ _ _ _ hcontest [(), ()]).won () (by rw [hresult]; rfl)
  obtain ⟨o, ho, hsuccess⟩ := hw.success
  have hanswer := Except.ok.inj (Option.some.inj (hresult.symm.trans hsuccess))
  rcases ho with rfl | rfl <;> exact absurd (congrArg Answer.success hanswer) (by decide)

end Leasehold.KeyValue
