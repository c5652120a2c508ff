import Mathlib.Data.List.Forall2
import Leasehold.Proofs.Backend
import Leasehold.Proofs.Request

/-!
# The backends answer alike

The same requests are put to two backends, one after the other, with the same clock readings. The
timer is read where the backend is, and its sweeper may drop expired records between two requests as
it pleases (`Served`).

What the stores hold comes apart: some keep a record that has expired, others drop it. Two records
are `Lock.Alike` when they are the same or both gone, which is all that a permission depends on.
This is kept by every request, and by the time that passes, so that all answers agree
(`conformance`): only their outcomes may differ, between codes of the same operation and the same
success.
-/

namespace Leasehold
open Session Manager

/-- The records are the same, or both are gone. -/
def Lock.Alike (t : Int) (x y : Option Lock) : Prop :=
  x = y ∨ Lock.isGone x t = true ∧ Lock.isGone y t = true

/-- Answers that differ at most in the code of the outcome. -/
structure Answer.Agrees (a b : Answer) : Prop where
  lock : a.lock = b.lock
  operation : a.operation = b.operation
  action : a.action = b.action
  success : a.success = b.success
  code : a.outcome.map Outcome.operation = b.outcome.map Outcome.operation ∧
    a.outcome.map Outcome.isSuccess = b.outcome.map Outcome.isSuccess

/-- Both are answers, and they agree. -/
def Agree (x y : Except Error Answer) : Prop := ∃ a b, x = .ok a ∧ y = .ok b ∧ a.Agrees b

theorem Agree.symm {x y : Except Error Answer} (h : Agree x y) : Agree y x := by
  obtain ⟨a, b, hx, hy, h⟩ := h
  exact ⟨b, a, hy, hx, h.lock.symm, h.operation.symm, h.action.symm, h.success.symm, h.code.1.symm,
    h.code.2.symm⟩

theorem Agree.trans {x y z : Except Error Answer} (h : Agree x y) (h' : Agree y z) : Agree x z := by
  obtain ⟨a, b, hx, hy, h⟩ := h
  obtain ⟨b', c, hy', hz, h'⟩ := h'
  obtain rfl : b = b' := Except.ok.inj (hy.symm.trans hy')
  exact ⟨a, c, hx, hz, h.lock.trans h'.lock, h.operation.trans h'.operation,
    h.action.trans h'.action,
    h.success.trans h'.success, h.code.1.trans h'.code.1, h.code.2.trans h'.code.2⟩

/-! ### Records that are alike -/

namespace Lock
variable {t u : Int} {x x' y y' : Option Lock}

theorem Alike.symm (h : Alike t x y) : Alike t y x := h.imp Eq.symm And.symm

theorem Alike.mono (h : Alike t x y) (ht : t ≤ u) : Alike u x y :=
  h.imp_right fun h => ⟨isGone_mono h.1 ht, isGone_mono h.2 ht⟩

theorem Alike.isGone (h : Alike t x y) : isGone x t = Lock.isGone y t := by
  rcases h with rfl | ⟨hx, hy⟩
  · rfl
  · rw [hx, hy]

theorem Alike.eq (h : Alike t x y) (hx : Lock.isGone x t = false) : x = y := by
  rcases h with h | ⟨hx', -⟩
  · exact h
  · rw [hx] at hx'; cases hx'

theorem Alike.drop (h : Alike t x y) (hx : x' = x ∨ x' = none ∧ Lock.isGone x t = true) :
    Alike t x' y := by
  rcases hx with rfl | ⟨rfl, hx⟩
  · exact h
  · exact .inr ⟨rfl, h.isGone ▸ hx⟩

end Lock

namespace Answer

theorem isHeld_eq (o : Outcome) : o.isHeld = (o.isSuccess && o.operation != .release) := by
  cases o <;> rfl

theorem isCleared_eq (o : Outcome) : o.isCleared = (o.isSuccess && o.operation == .release) := by
  cases o <;> rfl

theorem Agrees.refl (a : Answer) : a.Agrees a := ⟨rfl, rfl, rfl, rfl, rfl, rfl⟩

theorem agrees_ofOutcome (l : Lock) {o o' : Outcome} (ho : o.operation = o'.operation)
    (hs : o.isSuccess = o'.isSuccess) :
    (ofOutcome l o).Agrees (ofOutcome l o') := by
  have hh : o.isHeld = o'.isHeld := by rw [isHeld_eq, isHeld_eq, ho, hs]
  have hc : o.isCleared = o'.isCleared := by rw [isCleared_eq, isCleared_eq, ho, hs]
  have hcode : (some o).map Outcome.operation = (some o').map Outcome.operation ∧
      (some o).map Outcome.isSuccess = (some o').map Outcome.isSuccess :=
        ⟨congrArg some ho, congrArg some hs⟩
  rw [ofOutcome, ofOutcome, hh, hc]
  split
  · exact ⟨rfl, ho, rfl, rfl, hcode⟩
  · split
    · exact ⟨rfl, ho, rfl, rfl, hcode⟩
    · exact ⟨rfl, ho, rfl, rfl, hcode⟩

theorem ofStored_congr {realm name : String} {now : Int} {x y : Option Lock}
    (h : Lock.Alike now x y) (hx : System.Filed realm name x) (hy : System.Filed realm name y) :
    ofStored (some realm) (some name) x now = ofStored (some realm) (some name) y now := by
  have key {z : Option Lock} (hz : System.Filed realm name z) (hg : Lock.isGone z now = true) :
      ofStored (some realm) (some name) z now =
        ⟨{ realm := some realm, name := some name }, .get, .get, none, none⟩ := by
    cases z with
    | none => rfl
    | some l =>
      obtain ⟨c, lease, expiry, rfl, rfl, rfl⟩ := hz l rfl
      rw [Lock.isGone, Option.all_some] at hg
      simp only [ofStored, hg, if_true]
      rfl
  rcases h with rfl | ⟨hgx, hgy⟩
  · rfl
  · rw [key hx hgx, key hy hgy]

end Answer

/-! ### Operations on records that are alike -/

namespace Operation
variable {op : Operation} {x y x' y' : Option Lock}

theorem permits_congr (h : Lock.Alike op.now x y) : op.permits x = op.permits y := by
  rcases h with rfl | ⟨hx, hy⟩
  · rfl
  · simp only [permits, hx, hy, Bool.true_or, Bool.not_true, Bool.false_and]

/-- Whoever conforms on records that are alike answers alike and leaves records that are alike. -/
theorem Conforms.agrees {extend extend' : Lock → Int → Int → Lock} {v v' : Verdict}
    (h : op.Conforms extend x v x') (h' : op.Conforms extend' y v' y') (hb : Lock.Alike op.now x y)
    (hext : op.permits x = true → op.renewed extend x = op.renewed extend' y) :
    (op.answer v).Agrees (op.answer v') ∧ Lock.Alike op.now x' y' := by
  have hp := permits_congr hb
  have hrec : v.2 = v'.2 := by
    rw [h.renewed, h'.renewed, ← hp]
    by_cases hx : op.permits x = true
    · rw [if_pos hx, if_pos hx, hext hx]
    · rw [if_neg hx, if_neg hx]
  refine ⟨?_, ?_⟩
  · rw [answer, answer, hrec]
    exact Answer.agrees_ofOutcome _ (h.operation.trans h'.operation.symm)
      (by rw [h.success, h'.success, hp])
  · cases hx : op.permits x with
    | false =>
      rw [h.unchanged hx, h'.unchanged (hp ▸ hx)]
      exact hb
    | true =>
      have hy : op.permits y = true := hp ▸ hx
      by_cases hk : op.kind = .release
      · have gone {z z' : Option Lock} (hz : z' = none ∨ z' = z ∧ Lock.isGone z op.now = true) :
          Lock.isGone z' op.now = true := by
          rcases hz with rfl | ⟨rfl, hz⟩
          · rfl
          · exact hz
        exact .inr ⟨gone (h.removes hx hk), gone (h'.removes hy hk)⟩
      · refine .inl ?_
        rw [h.writes hx hk, h'.writes hy hk, h.shown hk hx, h'.shown hk hy, hrec]

end Operation

/-! ### Requests -/

namespace System
variable {S S' : System} {L : S.Laws} {L' : S'.Laws} {realm name : Identifier} {caller : Caller}
  {lease : Term} {kind : Operation.Kind} {now : Int}

/-- Under every key the records are alike. -/
def Similar (S S' : System) (t : Int) (s : S.Store) (s' : S'.Store) : Prop :=
  ∀ realm name : Identifier, Lock.Alike t (S.record s (S.slot realm name))
    (S'.record s' (S'.slot realm name))

theorem Similar.symm {t : Int} {s : S.Store} {s' : S'.Store} (h : Similar S S' t s s') :
    Similar S' S t s' s :=
  fun realm name => (h realm name).symm

theorem Similar.sweep {t u now : Int} {s u' : S.Store} {s' : S'.Store} (h : Similar S S' t s s')
    (ht : t ≤ now) (hu : u ≤ now) (hs : S.Sweep u s u') : Similar S S' now u' s' := by
  intro realm name
  refine ((h realm name).mono ht).drop ?_
  exact (record_sweep hs _).imp_right fun hr => ⟨hr.1, Lock.isGone_mono hr.2 hu⟩

theorem renewed_eq {x y : Option Lock} (L : S.Laws) (L' : S'.Laws) (hx : Dated realm name x)
    (hy : Dated realm name y) (h : Lock.Alike now x y) (hnow : 0 ≤ now)
    (hp : (operation kind (caller.claim realm name) lease now).permits x = true) :
    (operation kind (caller.claim realm name) lease now).renewed S.extend x =
      (operation kind (caller.claim realm name) lease now).renewed S'.extend y := by
  cases kind with
  | acquire | release => rfl
  | renew =>
    have hp' : (operation .renew (caller.claim realm name) lease now).permits y = true :=
      (@Operation.permits_congr (operation .renew (caller.claim realm name) lease now) x y
        h).symm.trans hp
    obtain ⟨d, e, rfl, -, -, hlive, hr⟩ := L.renewable hx hnow hp
    obtain ⟨d', e', rfl, -, -, -, hr'⟩ := L'.renewable hy hnow hp'
    have heq := h.eq (by rw [Claim.isGone_lock, decide_eq_false_iff_not]; omega)
    obtain ⟨rfl, rfl⟩ : d = d' ∧ e = e' := by
      injection heq with heq
      injection heq with _ _ _ _ hd he
      exact ⟨Option.some.inj hd, Option.some.inj he⟩
    rw [hr, hr']

theorem written_eq {x y : Option Lock} {op : Operation} {l : Lock}
    (h : op.permits x = true → op.renewed S.extend x = op.renewed S'.extend y)
    (hp : op.permits x = true) (hl : op.written S'.extend y = some l) :
    op.kind ≠ .release ∧ op.written S.extend x = some l := by
  cases hk : op.kind with
  | acquire =>
    simp only [Operation.written, hk] at hl ⊢
    exact ⟨by decide, hl⟩
  | renew =>
    simp only [Operation.written, hk] at hl ⊢
    exact ⟨by decide, (h hp).trans hl⟩
  | release =>
    simp only [Operation.written, Operation.renewed, hk] at hl
    cases hl

/-- One request on both stores. Nothing is too much for the first, and what it grants fits the
second. -/
theorem ManagerOnly.agree {ask : Ask} {t t' : Timing} {ms ms' : Int} {s u : S.Store}
    {s' u' : S'.Store} {r r' : Except Error Answer} (h : ManagerOnly L s) (h' : ManagerOnly L' s')
    (hsim : Similar S S' now s s') (hnow : 0 ≤ now) (ht : t.now = .ok now) (he : t.elapsed = .ok ms)
    (ht' : t'.now = .ok now) (he' : t'.elapsed = .ok ms') (hall : ∀ l, S.writable l)
    (hfits : ∀ a e, r = .ok a → a.success = some true → a.lock.expiry = some e → S'.fits e)
    (hx : Exec (L.terms False).clients (ask.session S.service t) s r u)
    (hx' : Exec (L'.terms False).clients (ask.session S'.service t') s' r' u') :
    Agree r r' ∧ Similar S S' now u u' := by
  cases ask with
  | get realm name =>
    obtain ⟨-, hu, hr⟩ := L.exec_get h.good hx
    obtain ⟨-, hu', hr'⟩ := L'.exec_get h'.good hx'
    refine ⟨⟨_, _, hr ms now he ht, hr' ms' now he' ht', ?_⟩,
      fun realm' name' => by rw [hu, hu']; exact hsim realm' name'⟩
    rw [Answer.ofStored_congr (hsim realm name) (h.dated realm name).filed
      (h'.dated realm name).filed]
    exact .refl _
  | operate kind realm name caller lease =>
    have hb := hsim realm name
    obtain ⟨v, rfl, hc⟩ := h.ruled ht he (fun l _ _ => hall l) hx
    have heq (hp : (operation kind (caller.claim realm name) lease now).permits
      (S.record s (S.slot realm name)) = true) :=
      renewed_eq L L' (h.dated realm name) (h'.dated realm name) hb hnow hp
    -- what the second store is to write is what the first one granted
    obtain ⟨v', rfl, hc'⟩ := h'.ruled ht' he' (by
      intro l hp' hl
      have hp :=
        (@Operation.permits_congr (operation kind (caller.claim realm name) lease now) _ _ hb).trans
          hp'
      obtain ⟨hk, hsame⟩ := written_eq heq hp hl
      obtain ⟨d, e, rfl, hd, hde⟩ := L'.written (h'.dated realm name) hnow hp' hl
      rw [hc.lock_answer hk hp, Option.some.injEq] at hsame
      exact L'.writable_of_fits hd hde
        (hfits _ e rfl (by rw [hc.success_answer, hp]) (by rw [hsame]; rfl))) hx'
    obtain ⟨hagree, halike⟩ := hc.agrees hc' hb heq
    refine ⟨⟨_, _, rfl, rfl, hagree⟩, fun realm' name' => ?_⟩
    by_cases hk : (realm', name') = (realm, name)
    · obtain ⟨rfl, rfl⟩ := Prod.mk.inj hk
      exact halike
    · rw [(h.operated ht hx).1 realm' name' hk, (h'.operated ht' hx').1 realm' name' hk]
      exact hsim realm' name'

end System

/-! ### Runs -/

/-- Requests, each with the clock reading at which it is made, put to a store one after the other.
Before each the sweeper may pass. -/
inductive Served (S : System) : Int → S.Store → List (Int × Ask) → List (Except Error Answer) → Prop
  | done {t : Int} {s : S.Store} : Served S t s [] []
  | next {t u now ms : Int} {s s' : S.Store} {ask : Ask} {timing : Timing} {context : Context}
    {requests : List (Int × Ask)} {results : List (Except Error Answer)} (ht : t ≤ now)
      (hu : u ≤ now)
    (hs : S.Sweep u s s') (hnow : timing.now = .ok now) (hms : timing.elapsed = .ok ms)
    (h : Served S now ((ask.session S.service timing).run S.client s' context).store
      requests results) :
    Served S t s ((now, ask) :: requests)
      (((ask.session S.service timing).run S.client s' context).result :: results)

/-- A lock was granted until `e`. -/
def Grants (results : List (Except Error Answer)) (e : Int) : Prop :=
  ∃ a, .ok a ∈ results ∧ a.success = some true ∧ a.lock.expiry = some e

theorem Served.agree {S S' : System} {L : S.Laws} {L' : S'.Laws} {t : Int} {s : S.Store}
    {s' : S'.Store} {requests : List (Int × Ask)} {results results' : List (Except Error Answer)}
    (hall : ∀ l, S.writable l) (h : Served S t s requests results)
    (h' : Served S' t s' requests results') (hs : System.ManagerOnly L s)
    (hs' : System.ManagerOnly L' s') (hsim : System.Similar S S' t s s') (ht : 0 ≤ t)
    (hfits : ∀ e, Grants results e → S'.fits e) :
    List.Forall₂ Agree results results' := by
  induction h generalizing s' results' with
  | done => cases h'; exact .nil
  | @next t u now ms s₀ s₁ ask timing context requests results htn hu hsweep hn hms _ ih =>
    obtain _ | @⟨_, u', _, ms', _, s₁', _, timing', context', _, results', -, hu', hsweep', hn',
      hms', h'⟩ := h'
    have hnow : 0 ≤ now := le_trans ht htn
    have hsim := ((hsim.sweep htn hu hsweep).symm.sweep (le_refl now) hu' hsweep').symm
    have hx := exec_run (L.client_mem False) (ask.session S.service timing) s₁ context
    have hx' := exec_run (L'.client_mem False) (ask.session S'.service timing') s₁' context'
    obtain ⟨hagree, hsim'⟩ :=
      (hs.sweep hsweep).agree (hs'.sweep hsweep') hsim hnow hn hms hn' hms' hall
      (fun a e ha hsucc he => hfits e ⟨a, ha ▸ List.mem_cons_self, hsucc, he⟩) hx hx'
    refine .cons hagree (ih h' ((hs.sweep hsweep).exec hn hnow hx)
      ((hs'.sweep hsweep').exec hn' hnow hx') hsim' hnow ?_)
    rintro e ⟨a, ha, hsucc, he⟩
    exact hfits e ⟨a, List.mem_cons_of_mem _ ha, hsucc, he⟩

/-! ### Runs without a sweeper -/

/-- What a backend answers when its sweeper never passes. -/
def System.answers (S : System) : S.Store → List (Int × Ask) → List (Except Error Answer)
  | _, [] => []
  | s, (now, ask) :: requests =>
    let run := (ask.session S.service (still now)).run S.client s []
    run.result :: S.answers run.store requests

theorem System.answers_cons (S : System) (s : S.Store) (now : Int) (ask : Ask)
    (requests : List (Int × Ask)) :
    S.answers s ((now, ask) :: requests) =
      ((ask.session S.service (still now)).run S.client s []).result ::
      S.answers ((ask.session S.service (still now)).run S.client s []).store requests := rfl

theorem Served.sorted {S : System} {t : Int} {s : S.Store} {requests : List (Int × Ask)}
    {results : List (Except Error Answer)} (h : Served S t s requests results) :
    (t :: requests.map Prod.fst).IsChain (· ≤ ·) := by
  induction h with
  | done => exact .singleton _
  | next ht _ _ _ _ _ ih => exact .cons_cons ht ih

theorem served_answers {S : System} (L : S.Laws) {t : Int} {requests : List (Int × Ask)}
    (h : (t :: requests.map Prod.fst).IsChain (· ≤ ·)) (s : S.Store) :
    Served S t s requests (S.answers s requests) := by
  induction requests generalizing t s with
  | nil => exact .done
  | cons request requests ih =>
    obtain ⟨now, ask⟩ := request
    obtain ⟨ht, h⟩ := List.isChain_cons_cons.mp h
    exact .next ht ht ⟨L.passes_refl s, fun _ => .inl rfl⟩ rfl rfl (ih h _)

theorem forall₂_agree_trans {xs ys zs : List (Except Error Answer)} (h : List.Forall₂ Agree xs ys)
    (h' : List.Forall₂ Agree xs zs) : List.Forall₂ Agree ys zs := by
  induction h generalizing zs with
  | nil => cases h'; exact .nil
  | cons hxy _ ih =>
    obtain _ | ⟨hxz, h'⟩ := h'
    exact .cons (hxy.symm.trans hxz) (ih h')

/-- What the locks in memory would grant fits the store. -/
def Fits (b : Backend) (requests : List (Int × Ask)) : Prop :=
  ∀ e, Grants (Memory.system.answers [] requests) e → b.system.fits e

theorem Served.agree_memory {b : Backend} (hb : b.Regular) {requests : List (Int × Ask)}
    {results : List (Except Error Answer)} (h : Served b.system 0 b.system.empty requests results)
    (hfits : Fits b requests) : List.Forall₂ Agree (Memory.system.answers [] requests) results := by
  have L := b.laws hb
  have hsim : System.Similar Memory.system b.system 0 Memory.system.empty b.system.empty :=
    fun _ _ => .inl ((Memory.laws.record_empty _).trans (L.record_empty _).symm)
  exact (served_answers Memory.laws h.sorted []).agree (fun _ => trivial) h (.empty Memory.laws)
    (.empty L) hsim (le_refl 0) hfits

/-- Any two backends answer the same requests alike. -/
theorem Served.conformance {b b' : Backend} (hb : b.Regular) (hb' : b'.Regular)
    {requests : List (Int × Ask)} {results results' : List (Except Error Answer)}
    (h : Served b.system 0 b.system.empty requests results)
    (h' : Served b'.system 0 b'.system.empty requests results') (hfits : Fits b requests)
    (hfits' : Fits b' requests) :
    List.Forall₂ Agree results results' :=
  forall₂_agree_trans (h.agree_memory hb hfits) (h'.agree_memory hb' hfits')

/-- A lock runs out, its holder comes late with a release and with a renewal, and a reader finds it
free. -/
def late : List (Int × Ask) :=
  let realm : Identifier := ⟨"jobs", by decide⟩
  let name : Identifier := ⟨"nightly", by decide⟩
  let ada : Caller := ⟨some "ada", ⟨"one", by decide⟩⟩
  let lease : Term := ⟨10, by decide⟩
  [(5, .operate .acquire realm name ada lease), (20, .operate .release realm name ada lease),
   (21, .operate .renew realm name ada lease), (21, .get realm name)]

/-- One backend dropped the record at the release and does not find it, the other finds that it has
expired. -/
theorem conformance_late : Fits (.keyValue {}) late ∧ Fits .memory late ∧
    List.Forall₂ Agree (Memory.system.answers [] late) ((KeyValue.system {}).answers {} late) := by
  have hfits : Fits (.keyValue {}) late := by
    rintro e ⟨a, ha, -, he⟩
    have hshown : (Memory.system.answers [] late).filterMap
      (fun r => r.toOption.bind fun a => a.lock.expiry) = [15] := by
      decide +kernel
    have he : e ∈ [15] := hshown ▸ List.mem_filterMap.mpr ⟨.ok a, ha, he⟩
    obtain rfl := List.mem_singleton.mp he
    show Number.isTooLong 15 = false
    decide +kernel
  have hsorted : ((0 : Int) :: late.map Prod.fst).IsChain (· ≤ ·) := by decide
  have h := served_answers Memory.laws hsorted []
  have h' := served_answers (KeyValue.laws {}) hsorted {}
  have hfree : Fits .memory late := fun _ _ => trivial
  exact ⟨hfits, hfree, @Served.conformance .memory
    (.keyValue {}) trivial trivial late _ _ h h' hfree hfits⟩

/-! ### Integers of too many digits -/

theorem not_agree_of_isTooLong {realm name : Identifier} {caller : Caller} {lease : Term}
    {now : Int} (hnow : 0 ≤ now) (hlong : Number.isTooLong (now + lease) = true) :
    ¬ List.Forall₂ Agree (Memory.system.answers []
      [(now, .operate .acquire realm name caller lease)])
        ((KeyValue.system {}).answers {} [(now, .operate .acquire realm name caller lease)]) := by
  rw [System.answers_cons, System.answers_cons, List.forall₂_cons]
  rintro ⟨⟨a, b, ha, hb, hab⟩, -⟩
  have hx := exec_run (Memory.laws.client_mem False)
    (Ask.session Memory.service (still now) (.operate .acquire realm name caller lease)) [] []
  have hx' := exec_run ((KeyValue.laws {}).client_mem False)
    (Ask.session (KeyValue.service {}) (still now) (.operate .acquire realm name caller lease)) {}
      []
  have ht : (still now).now = .ok now := rfl
  have he : (still now).elapsed = .ok 0 := rfl
  obtain ⟨a', ha', hgranted, -⟩ :=
    (System.ManagerOnly.empty Memory.laws).grants ht he hnow rfl trivial hx
  obtain rfl := Except.ok.inj (ha.symm.trans ha')
  have hrefused : b.success = some false :=
    (System.ManagerOnly.empty (KeyValue.laws {})).unwritten ht rfl rfl
      (KeyValue.not_writable_of_expiry (Claim.isRecord_lock _ _ _) rfl hlong) hx' hb
  rw [hab.success, hrefused] at hgranted
  cases hgranted

theorem exists_not_agree {now : Int} (hnow : 0 ≤ now) {realm name : Identifier} {caller : Caller}
    {lease : Term} (hlong : Number.isTooLong (now + lease) = true) : ∃ requests results results',
      Served Memory.system 0 [] requests results ∧ Served (KeyValue.system {}) 0
        {} requests results' ∧
        ¬ List.Forall₂ Agree results results' := by
  have hsorted : ((0 : Int) :: [(now, Ask.operate .acquire realm name caller lease)].map
    Prod.fst).IsChain (· ≤ ·) :=
    .cons_cons hnow (.singleton now)
  exact ⟨_, _, _, served_answers Memory.laws hsorted [],
    served_answers (KeyValue.laws {}) hsorted {},
    not_agree_of_isTooLong hnow hlong⟩

/-- The backends come apart when a lease ends behind the last tick. -/
theorem not_conformance_overlong : ¬ ∀ (b b' : Backend) (requests : List (Int × Ask))
    (results results' : List (Except Error Answer)), b.Regular → b'.Regular →
    (∀ options, b = .documents options → Fits b requests) →
    (∀ options, b' = .documents options → Fits b' requests) →
    Served b.system 0 b.system.empty requests results →
    Served b'.system 0 b'.system.empty requests results' →
      List.Forall₂ Agree results results' := by
  intro h
  let caller : Caller := ⟨some "ada", ⟨"one", by decide⟩⟩
  let second : Term := ⟨1, by decide⟩
  have hlong : Number.isTooLong (KeyValue.lastTick + second) = true :=
    KeyValue.isTooLong_lastTick_succ
  obtain ⟨requests, results, results', hm, hk, hne⟩ :=
    @exists_not_agree KeyValue.lastTick KeyValue.lastTick_pos.le
    ⟨"jobs", by decide⟩ ⟨"nightly", by decide⟩ caller second hlong
  exact hne (h .memory (.keyValue {}) requests results results' trivial trivial nofun nofun hm hk)

end Leasehold
