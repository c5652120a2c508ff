import Leasehold.Proofs.Execution.Memory
import Leasehold.Proofs.MutualExclusion
import Leasehold.Proofs.Request

/-!
# Acquisitions made together

Acquisitions in memory that are made together take effect one after the other. On every key one
holder is favoured: whose live record lies there, and otherwise who asks first (`favoured`). One
acquisition leaves the favour where it is, whether it puts the record of the favoured holder or is
refused (`favoured_put`, `favoured_refused`). So the favoured holder succeeds with every request,
nobody else does, and its last request stays (`acquired_together`).
-/

namespace Leasehold.Memory
open Session Manager

/-- An acquisition that is made together with others. -/
structure Acquisition where
  realm : Identifier
  name : Identifier
  owner : String
  instanceId : String
  lease : Int
  expiry : Int

namespace Acquisition
variable (b : Acquisition)

def claim : Claim := ⟨b.realm, b.name, b.owner, b.instanceId⟩

def key : String := b.claim.key

def lock : Lock := b.claim.lock (some b.lease) (some b.expiry)

def holder : Holder := (some (.text b.owner), some (.text b.instanceId))

abbrev operation (now : Int) :
    Operation := ⟨.acquire, b.claim.record (some b.lease) (some b.expiry), now⟩

def session (now : Int) : Session interface Answer := service.acquireLock (some b.lock) now

theorem check (now : Int) : (b.operation now).check = .ok b.claim := by
  have hr : b.claim.realm ≠ "" := ne_empty_of_isIdentifier b.realm.2
  have hn : b.claim.name ≠ "" := ne_empty_of_isIdentifier b.name.2
  exact check_acquire hr hn b.lease b.expiry now

theorem run_session (s : Store) (now : Int) (context : Context) :
    ((b.session now).run client s context).result =
        .ok ((b.operation now).answer ((b.operation now).decide (Assoc.find? s b.key))) ∧
      ((b.session now).run client s context).store = leaves (b.operation now) b.claim s := by
  have hends : Ensures (troubled {client} fun _ => False)
      (fun r t =>
        r = .ok ((b.operation now).answer ((b.operation now).decide (Assoc.find? s b.key))) ∧
        t = leaves (b.operation now) b.claim s) ((b.operation now).session service) s :=
    (Operation.ensures_session service (b.check now)).mpr
      ((ensures_attempt (b.check now)).mpr ⟨⟨rfl, rfl⟩, nofun⟩)
  exact (hends.of_subset (subset_troubled {client} _)).run (Set.mem_singleton client) context

end Acquisition

/-- Every record is complete and lies under its own key. -/
def Complete (s : Store) : Prop := ∀ k l, Assoc.find? s k = some l →
  ∃ c lease expiry, l = Claim.lock c (some lease) (some expiry) ∧ k = c.key

/-- The holder whose acquisitions of a key succeed: that of a live record, otherwise the first to
ask. -/
def favoured (s : Store) (now : Int) (requests : List Acquisition) (k : String) : Option Holder :=
  match (Assoc.find? s k).filter (·.isActive now) with
  | some l => some l.holder
  | none => (requests.find? (·.key = k)).map Acquisition.holder

/-- The record that the last request of the favoured holder leaves, and the one that was there if it
made none. -/
def settled (s : Store) (now : Int) (requests : List Acquisition) (k : String) : Option Lock :=
  ((requests.filter fun b => b.key = k && favoured s now requests k = some b.holder).getLast?.map
    Acquisition.lock).or (Assoc.find? s k)

/-- The answer to an acquisition of a key with a favoured holder. -/
structure Judged (favoured : Option Holder) (b : Acquisition) (a : Answer) : Prop where
  granted : favoured = some b.holder → ∃ o, (o = .acquired ∨ o = .lockReplaced) ∧
    a = Answer.succeeded b.lock o
  refused : favoured ≠ some b.holder → a = Answer.failed b.lock .acquireConflict

section Step
variable {s : Store} {now : Int} {b : Acquisition} {requests : List Acquisition} {k : String}

theorem Complete.put (hs : Complete s) (b : Acquisition) : Complete (Assoc.put s b.key b.lock) := by
  intro k l hl
  rw [Assoc.find?_put] at hl
  split at hl
  · rename_i hk
    cases hl
    exact ⟨b.claim, b.lease, b.expiry, rfl, hk.symm⟩
  · exact hs k l hl

theorem Complete.isMatch (hs : Complete s) {l : Lock} (hl : Assoc.find? s b.key = some l) :
    b.lock.isMatch l = decide (l.holder = b.holder) := by
  obtain ⟨c, lease, expiry, rfl, hk⟩ := hs _ l hl
  obtain ⟨hr, hn⟩ : b.claim.realm = c.realm ∧ b.claim.name = c.name :=
    Lock.keyOf_inj_left (colon_not_mem b.realm) (colon_not_mem b.name) hk
  rw [Acquisition.lock, Claim.isMatch_lock hr hn, ← Bool.decide_and]
  exact decide_eq_decide.mpr
    (by simp [Lock.holder, Claim.lock, Acquisition.holder, Acquisition.claim, eq_comm])

theorem favoured_of_active {l : Lock} (hl : Assoc.find? s k = some l) (ha : l.isActive now = true)
    (requests : List Acquisition) :
    favoured s now requests k = some l.holder := by
  simp only [favoured, hl, Option.filter_some, ha, if_true]

theorem favoured_of_gone (h : Lock.isGone (Assoc.find? s k) now = true)
    (requests : List Acquisition) :
    favoured s now requests k = (requests.find? (·.key = k)).map Acquisition.holder := by
  have hnone : (Assoc.find? s k).filter (·.isActive now) = none := by
    cases hl : Assoc.find? s k with
    | none => rfl
    | some l =>
      rw [hl, Lock.isGone, Option.all_some] at h
      rw [Option.filter_some, Lock.isActive, h]
      rfl
  simp only [favoured, hnone]

/-- An acquisition goes through just when it is the favoured holder's. -/
theorem permits_iff_favoured (hs : Complete s) (requests : List Acquisition) :
    (b.operation now).permits (Assoc.find? s b.key) = true ↔
      favoured s now (b :: requests) b.key = some b.holder := by
  cases hgone : Lock.isGone (Assoc.find? s b.key) now with
  | true =>
    rw [favoured_of_gone hgone, List.find?_cons_of_pos (by simp)]
    simp [Operation.permits, hgone]
  | false =>
    cases hl : Assoc.find? s b.key with
    | none =>
      rw [hl] at hgone
      cases hgone
    | some l =>
      rw [hl] at hgone
      have ha : l.isActive now = true := by
        rw [Lock.isGone, Option.all_some] at hgone
        rw [Lock.isActive, hgone]
        rfl
      rw [favoured_of_active hl ha]
      have hm : (b.operation now).lock.isMatch l = decide (l.holder = b.holder) := hs.isMatch hl
      simp [Operation.permits, hgone, Operation.owns, hm]

theorem favoured_cons_ne (hk : b.key ≠ k) :
    favoured s now (b :: requests) k = favoured s now requests k := by
  simp only [favoured, List.find?_cons, decide_eq_false hk]

theorem favoured_put (hlive : now ≤ b.expiry)
    (hwins : favoured s now (b :: requests) b.key = some b.holder) :
    favoured (Assoc.put s b.key b.lock) now requests k = favoured s now (b :: requests) k := by
  by_cases hk : b.key = k
  · subst hk
    have ha : b.lock.isActive now = true := by
      simp only [Lock.isActive, Lock.isExpired, Acquisition.lock, Claim.lock, Bool.not_eq_true',
        decide_eq_false_iff_not]
      omega
    rw [favoured_of_active (Assoc.find?_put_self s b.key b.lock) ha, hwins]
    rfl
  · rw [favoured_cons_ne hk]
    simp only [favoured, Assoc.find?_put_ne hk]

/-- A refused request shows that there is a live record, which decides with and without it. -/
theorem favoured_refused (hloses : favoured s now (b :: requests) b.key ≠ some b.holder) :
    favoured s now requests k = favoured s now (b :: requests) k := by
  by_cases hk : b.key = k
  · subst hk
    cases hl : (Assoc.find? s b.key).filter (·.isActive now) with
    | some l => simp only [favoured, hl]
    | none => exact absurd (by simp [favoured, hl]) hloses
  · exact (favoured_cons_ne hk).symm

theorem settled_put (hlive : now ≤ b.expiry)
    (hwins : favoured s now (b :: requests) b.key = some b.holder) :
    settled (Assoc.put s b.key b.lock) now requests k = settled s now (b :: requests) k := by
  simp only [settled, favoured_put hlive hwins]
  by_cases hk : b.key = k
  · subst hk
    rw [Assoc.find?_put_self, List.filter_cons_of_pos (by simp [hwins]), List.getLast?_cons]
    cases (requests.filter fun b' => b'.key = b.key && favoured s now (b :: requests) b.key =
      some b'.holder).getLast? <;> rfl
  · rw [Assoc.find?_put_ne hk, List.filter_cons_of_neg (by simp [hk])]

theorem settled_refused (hloses : favoured s now (b :: requests) b.key ≠ some b.holder) :
    settled s now requests k = settled s now (b :: requests) k := by
  simp only [settled, favoured_refused hloses]
  rw [List.filter_cons_of_neg]
  simp only [Bool.and_eq_true, decide_eq_true_eq, not_and]
  rintro rfl
  exact hloses

theorem run_favoured (hs : Complete s)
    (hwins : favoured s now (b :: requests) b.key = some b.holder) (context : Context) :
    ∃ o, (o = .acquired ∨ o = .lockReplaced) ∧
      ((b.session now).run client s context).result = .ok (Answer.succeeded b.lock o) ∧
      ((b.session now).run client s context).store = Assoc.put s b.key b.lock := by
  have hp := (permits_iff_favoured hs requests).mpr hwins
  obtain ⟨hresult, hstore⟩ := b.run_session s now context
  refine ⟨if (b.operation now).owns (Assoc.find? s b.key) then .lockReplaced else .acquired,
    by split <;> simp, ?_, ?_⟩
  · rw [hresult, Operation.decide_taken rfl hp]
    split <;> rfl
  · exact hstore.trans (if_pos hp)

theorem run_refused (hs : Complete s)
    (hloses : favoured s now (b :: requests) b.key ≠ some b.holder) (context : Context) :
    ((b.session now).run client s context).result = .ok (Answer.failed b.lock .acquireConflict) ∧
      ((b.session now).run client s context).store = s := by
  have hp := mt (permits_iff_favoured hs requests).mp hloses
  obtain ⟨hresult, hstore⟩ := b.run_session s now context
  refine ⟨?_, ?_⟩
  · rw [hresult, Operation.decide_not_taken rfl (Bool.eq_false_iff.mpr hp)]
    rfl
  · exact hstore.trans (if_neg hp)

end Step

/-- Acquisitions that are made together succeed for the favoured holder of their key and for nobody
else, and the last request of the favoured holder is what they leave there. -/
theorem acquired_together {s : Store} (hs : Complete s) {now : Int} {requests : List Acquisition}
    (hlive : ∀ b ∈ requests, now ≤ b.expiry) (context : Context) :
    let r := runEach client context (requests.map (·.session now)) s
    (∃ answers, r.result = .ok answers ∧
      List.Forall₂ (fun b a => Judged (favoured s now requests b.key) b a) requests answers) ∧
      ∀ k, Assoc.find? r.store k = settled s now requests k := by
  -- on the requests, with any store: the first one leaves the favour of every key where it is
  induction requests generalizing s with
  | nil => exact ⟨⟨[], rfl, .nil⟩, fun _ => rfl⟩
  | cons b requests ih =>
    have hb := hlive b List.mem_cons_self
    have hrest : ∀ b' ∈ requests, now ≤ b'.expiry :=
      fun b' hb' => hlive b' (List.mem_cons_of_mem b hb')
    simp only [List.map_cons, runEach]
    by_cases hwins : favoured s now (b :: requests) b.key = some b.holder
    · obtain ⟨o, ho, hresult, hstore⟩ := run_favoured hs hwins context
      obtain ⟨⟨answers, hanswers, hjudged⟩, hsettled⟩ := ih (hs.put b) hrest
      rw [hresult, hstore, hanswers]
      simp only [favoured_put hb hwins] at hjudged
      exact ⟨⟨_, rfl, .cons ⟨fun _ => ⟨o, ho, rfl⟩, fun h => absurd hwins h⟩ hjudged⟩,
        fun k => (hsettled k).trans (settled_put hb hwins)⟩
    · obtain ⟨hresult, hstore⟩ := run_refused hs hwins context
      obtain ⟨⟨answers, hanswers, hjudged⟩, hsettled⟩ := ih hs hrest
      rw [hresult, hstore, hanswers]
      simp only [favoured_refused hwins] at hjudged
      exact ⟨⟨_, rfl, .cons ⟨fun h => absurd h hwins, fun _ => rfl⟩ hjudged⟩,
        fun k => (hsettled k).trans (settled_refused hwins)⟩

/-- Bob's record of one lock has run out and that of another is live. Ada asks first for both. -/
theorem acquired_together_mixed :
    let jobs : Identifier := ⟨"jobs", by decide⟩
    let nightly : Identifier := ⟨"nightly", by decide⟩
    let hourly : Identifier := ⟨"hourly", by decide⟩
    let ada (name : Identifier) (expiry : Int) : Acquisition :=
      ⟨jobs, name, "ada", "one", 10, expiry⟩
    let bob (name : Identifier) (expiry : Int) : Acquisition :=
      ⟨jobs, name, "bob", "two", 10, expiry⟩
    let s : Store :=
      [("jobs:nightly", (bob nightly 90).lock), ("jobs:hourly", (bob hourly 200).lock)]
    let requests :=
      [ada nightly 110, ada hourly 120, bob nightly 130, bob hourly 140, ada nightly 150]
    let r := runEach client [] (requests.map (·.session 100)) s
    Complete s ∧ (∀ b ∈ requests, 100 ≤ b.expiry) ∧
      (r.result.toOption.map fun answers => answers.filterMap (·.outcome)) =
        some [.acquired, .acquireConflict, .acquireConflict, .lockReplaced, .lockReplaced] ∧
      r.store = [("jobs:nightly", (ada nightly 150).lock), ("jobs:hourly", (bob hourly 140).lock)] ∧
      (∃ answers, r.result = .ok answers ∧
        List.Forall₂ (fun b a => Judged (favoured s 100 requests b.key) b a) requests answers) ∧
      ∀ k, Assoc.find? r.store k = settled s 100 requests k := by
  intro jobs nightly hourly ada bob s requests r
  have hs : Complete s := by
    have hnil : Complete [] := nofun
    exact (hnil.put (bob nightly 90)).put (bob hourly 200)
  have hlive : ∀ b ∈ requests, 100 ≤ b.expiry := by decide
  exact ⟨hs, hlive, by decide +kernel, by decide +kernel, acquired_together hs hlive []⟩

end Leasehold.Memory
