import Leasehold.Proofs.Backend
import Leasehold.Proofs.Request

/-!
# A live lock belongs to its holder

As long as a lock is live, requests of others do not change its record (`System.ManagerOnly.kept`):
whatever is permitted finds nothing, an expired record or one of the caller's own. So the holder
still can renew what it was granted, whatever the others have asked for meanwhile and whichever
races were lost (`live_lock_kept`).
-/

namespace Leasehold
open Session Manager

/-- The client of a system, and those that lose races. -/
def System.clients (S : System) : Set (Client S.I S.Store) := {cl | cl = S.client ∨ cl ∈ S.losses}

theorem System.clients_eq {S : System} (h : S.losses = ∅) : S.clients = {S.client} := by
  ext cl
  simp only [System.clients, h, Set.mem_empty_iff_false, or_false, Set.mem_ofPred_eq]
  exact Iff.rfl

/-- Who asks, where it matters: anyone may read. -/
def Manager.Ask.holder? : Ask → Option (String × String)
  | .get .. => none
  | .operate _ _ _ caller _ => some caller.holder

/-- Requests one after the other, each of which `P` allows at its clock reading. Any race may be
lost. -/
inductive Happens (S : System) (P : Ask → Int → Prop) (s : S.Store) : S.Store → Prop
  | refl : Happens S P s s
  | step {s' s'' : S.Store} {ask : Ask} {t : Timing} {now : Int} {r : Except Error Answer}
    (h : Happens S P s s')
    (ht : t.now = .ok now) (hP : P ask now)
      (hx : Exec S.clients (ask.session S.service t) s' r s'') : Happens S P s s''

namespace System
variable {S : System} {L : S.Laws} {realm name : Identifier} {caller : Caller} {now : Int}
  {t : Timing} {s s' : S.Store} {P : Ask → Int → Prop} {d e : Int}

theorem Laws.clients_subset (L : S.Laws) : S.clients ⊆ (L.terms True).clients := by
  rintro cl (rfl | hl)
  · exact L.client_mem True
  · exact L.losses_mem hl

theorem ManagerOnly.happens (h : ManagerOnly L s) (hP : ∀ ask now, P ask now → 0 ≤ now)
    (hs : Happens S P s s') :
    ManagerOnly L s' := by
  induction hs with
  | refl => exact h
  | step _ ht hp hx ih => exact ih.exec ht (hP _ _ hp) (hx.mono L.clients_subset)

theorem not_permits {kind : Operation.Kind} {other : Caller} {lease : Term} (hlive : now ≤ e)
    (ho : other.holder ≠ caller.holder) :
    (operation kind (other.claim realm name) lease now).permits
      (some ((caller.claim realm name).lock (some d) (some e))) = false := by
  by_contra hp
  rw [Bool.not_eq_false] at hp
  rcases Operation.expired_or_match hp with hx | hm
  · rw [Lock.isExpired, Claim.lock, decide_eq_true_eq] at hx
    exact absurd hx (not_lt.mpr hlive)
  · have heq := Operation.eq_of_match (check_claim kind realm name other lease now) hm
    have howner := Value.text.inj (Option.some.inj (congrArg Lock.owner heq))
    have hinstance := Value.text.inj (Option.some.inj (congrArg Lock.instanceId heq))
    exact ho (Prod.ext howner.symm hinstance.symm)

theorem ManagerOnly.kept (h : ManagerOnly L s) (ht : t.now = .ok now) {ask : Ask}
    {r : Except Error Answer} (hrec : S.record s (S.slot realm name) =
      some ((caller.claim realm name).lock (some d) (some e))) (hlive : now ≤ e)
    (ho : ask.holder? ≠ some caller.holder) (hx : Exec S.clients (ask.session S.service t) s r s') :
    S.record s' (S.slot realm name) = S.record s (S.slot realm name) := by
  replace hx := hx.mono L.clients_subset
  cases ask with
  | get realm' name' => rw [(L.exec_get h.good hx).2.1]
  | operate kind realm' name' other lease =>
    obtain ⟨hothers, r₀, hd, -⟩ := h.operated ht hx
    by_cases hk : (realm, name) = (realm', name')
    · obtain ⟨rfl, rfl⟩ := Prod.mk.inj hk
      have hp : (operation kind (other.claim realm name) lease now).permits
          (some ((caller.claim realm name).lock (some d) (some e))) = false :=
        not_permits hlive fun heq => ho (congrArg some heq)
      cases hd with
      | granted _ _ hp' => rw [hrec, hp] at hp'; cases hp'
      | freed _ _ hp' => rw [hrec, hp] at hp'; cases hp'
      | refused _ ha => exact ha
    · exact hothers realm name hk

theorem ManagerOnly.kept_run (h : ManagerOnly L s)
    (hs : Happens S (fun ask now => 0 ≤ now ∧ now ≤ e ∧ ask.holder? ≠ some caller.holder) s s')
    (hrec : S.record s (S.slot realm name) =
      some ((caller.claim realm name).lock (some d) (some e))) :
    ManagerOnly L s' ∧ S.record s' (S.slot realm name) = S.record s (S.slot realm name) := by
  induction hs with
  | refl => exact ⟨h, rfl⟩
  | step _ ht hp hx ih =>
    obtain ⟨hnow, hlive, ho⟩ := hp
    obtain ⟨htidy, hsame⟩ := ih
    exact ⟨htidy.exec ht hnow (hx.mono L.clients_subset),
      (htidy.kept ht (hsame.trans hrec) hlive ho hx).trans hsame⟩

theorem ManagerOnly.granted (h : ManagerOnly L s) (ht : t.now = .ok now) {kind : Operation.Kind}
    (hk : kind ≠ .release) {lease : Term} {a : Answer}
    (hx : Exec S.clients (Ask.session S.service t (.operate kind realm name caller lease))
      s (.ok a) s')
    (hs : a.success = some true) (he : a.lock.expiry = some e) :
    ∃ d, a.lock = (caller.claim realm name).lock (some d) (some e) ∧
    S.record s' (S.slot realm name) = some a.lock := by
  obtain ⟨-, r₀, hd, hr⟩ := h.operated ht (hx.mono L.clients_subset)
  obtain rfl := hr a rfl
  cases hd with
  | @granted _ c d e' hc _ _ _ hr _ hl ha =>
    obtain rfl := Except.ok.inj ((check_claim kind realm name caller lease now).symm.trans hc)
    obtain rfl := Except.ok.inj hr
    rw [hl] at he ⊢
    obtain rfl : e' = e := Option.some.inj he
    exact ⟨d, rfl, ha⟩
  | freed _ hk' => cases kind <;> first | exact absurd rfl hk | cases hk'
  | refused hr => rw [hr a rfl] at hs; cases hs

theorem ManagerOnly.renewable (h : ManagerOnly L s) (hnow : 0 ≤ now) (hlive : now ≤ e)
    (hrec : S.record s (S.slot realm name) =
      some ((caller.claim realm name).lock (some d) (some e))) (lease : Term) :
    (operation .renew (caller.claim realm name) lease now).permits
      (S.record s (S.slot realm name)) = true ∧
    (operation .renew (caller.claim realm name) lease now).written S.extend
      (S.record s (S.slot realm name)) =
      some ((caller.claim realm name).lock (some (d + lease)) (some (e + lease))) ∧
      0 ≤ d ∧ d ≤ e := by
  have hp : (operation .renew (caller.claim realm name) lease now).permits
    (S.record s (S.slot realm name)) = true := by
    rw [hrec, Operation.permits, Operation.owns_lock
      (check_claim .renew realm name caller lease now) rfl rfl]
    simp only [operation, Claim.isGone_lock, decide_true, Bool.and_self, Bool.and_true,
      Bool.not_eq_true',
      decide_eq_false_iff_not]
    omega
  obtain ⟨d', e', hrec', hd, hde, -, hnew⟩ := L.renewable (h.dated realm name) hnow hp
  obtain ⟨rfl, rfl⟩ : d = d' ∧ e = e' := by
    have heq := Option.some.inj (hrec.symm.trans hrec')
    exact ⟨Option.some.inj (congrArg Lock.lease heq), Option.some.inj (congrArg Lock.expiry heq)⟩
  exact ⟨hp, hnew, hd, hde⟩

/-- The holder renews a live record when no race is lost and the store can hold the new expiry. -/
theorem ManagerOnly.renews (h : ManagerOnly L s) (ht : t.now = .ok now) {ms : Int}
    (hms : t.elapsed = .ok ms) (hnow : 0 ≤ now) (hlive : now ≤ e)
    (hrec : S.record s (S.slot realm name) =
      some ((caller.claim realm name).lock (some d) (some e)))
    {lease : Term} (hfits : S.fits (e + lease)) {r : Except Error Answer}
    (hx : Exec (L.terms False).clients
      (Ask.session S.service t (.operate .renew realm name caller lease)) s r s') :
    ∃ a, r = .ok a ∧ a.success = some true ∧
      a.lock = (caller.claim realm name).lock (some (d + lease)) (some (e + lease)) ∧
      S.record s' (S.slot realm name) = some a.lock := by
  obtain ⟨hp, hw, hd, hde⟩ := h.renewable hnow hlive hrec lease
  have hlease : 0 ≤ lease.1 := le_trans (by decide) lease.2.1
  obtain ⟨v, rfl, hc⟩ := h.ruled ht hms (fun l _ hl => by
    obtain rfl := Option.some.inj (hw.symm.trans hl)
    exact L.writable_of_fits (by omega) (by omega) hfits) hx
  have hk : (operation .renew (caller.claim realm name) lease now).kind ≠ .release := nofun
  have hlock := hc.lock_answer hk hp
  refine ⟨_, rfl, by rw [hc.success_answer, hp], Option.some.inj (hlock.symm.trans hw), ?_⟩
  rw [hc.writes hp hk, hlock]

end System

/-- A renewal by `more` seconds succeeds and moves lease and expiry by so much. -/
def System.Renews (S : System) (s : S.Store) (realm name : Identifier) (caller : Caller) (d e : Int)
    (more : Term) (t : Timing) (context : Context) : Prop :=
  let run :=
    (Ask.session S.service t (.operate .renew realm name caller more)).run S.client s context
  ∃ a, run.result = .ok a ∧ a.success = some true ∧
    a.lock = (caller.claim realm name).lock (some (d + more)) (some (e + more)) ∧
    S.record run.store (S.slot realm name) = some a.lock

/-- A lock that was granted stays as it was granted while it is live, and its holder can renew
it. -/
theorem live_lock_kept (b : Backend) (hb : b.Regular) {s₀ s₁ s₂ : b.system.Store}
    (h₀ : Happens b.system (fun _ now => 0 ≤ now) b.system.empty s₀) {kind : Operation.Kind}
    (hk : kind ≠ .release) {realm name : Identifier} {caller : Caller} {lease : Term} {t : Timing}
    {now e : Int} {a : Answer} (ht : t.now = .ok now) (hnow : 0 ≤ now)
    (hgrant : Exec b.system.clients
      (Ask.session b.system.service t (.operate kind realm name caller lease)) s₀ (.ok a) s₁) (hs :
      a.success = some true) (he : a.lock.expiry = some e)
    (h₁ : Happens b.system
      (fun ask now => 0 ≤ now ∧ now ≤ e ∧ ask.holder? ≠ some caller.holder) s₁ s₂) :
    b.system.record s₂ (b.system.slot realm name) = b.system.record s₁ (b.system.slot realm name) ∧
    ∃ d, b.system.record s₁ (b.system.slot realm name) =
      some ((caller.claim realm name).lock (some d) (some e)) ∧
    ∀ (same : Caller) (more : Term) (t' : Timing) (now' ms : Int) (context : Context),
      same.holder = caller.holder →
      t'.now = .ok now' → t'.elapsed = .ok ms → 0 ≤ now' → now' ≤ e → b.system.fits (e + more) →
        b.system.Renews s₂ realm name same d e more t' context := by
  have L := b.laws hb
  have hs₀ : System.ManagerOnly L s₀ := (System.ManagerOnly.empty L).happens (fun _ _ h => h) h₀
  obtain ⟨d, hl, hrec⟩ := hs₀.granted ht hk hgrant hs he
  rw [hl] at hrec
  obtain ⟨hs₂, hsame⟩ := (hs₀.exec ht hnow (hgrant.mono L.clients_subset)).kept_run h₁ hrec
  refine ⟨hsame, d, hrec, ?_⟩
  intro same more t' now' ms context hholder ht' hms hnow' hlive hfits
  have hclaim : same.claim realm name = caller.claim realm name := by
    have howner : same.name = caller.name := congrArg Prod.fst hholder
    have hinstance : same.instanceId.1 = caller.instanceId.1 := congrArg Prod.snd hholder
    rw [Caller.claim, Caller.claim, howner, hinstance]
  have hrec₂ := hsame.trans hrec
  rw [← hclaim] at hrec₂
  exact hs₂.renews ht' hms hnow' hlive hrec₂ hfits (exec_run (L.client_mem False) _ s₂ context)

/-- A request of someone else, who loses every race, when the lock is about to run out. -/
theorem live_lock_kept_contested :
    let jobs : Identifier := ⟨"jobs", by decide⟩
    let nightly : Identifier := ⟨"nightly", by decide⟩
    let ada : Caller := ⟨some "ada", ⟨"one", by decide⟩⟩
    let ten : Term := ⟨10, by decide⟩
    ∃ (s₁ s₂ : KeyValue.Store) (a : Answer),
      Exec (KeyValue.system {}).clients
        (Ask.session (KeyValue.service {}) (still 5) (.operate .acquire jobs nightly ada ten))
        {} (.ok a) s₁ ∧ a.success = some true ∧ a.lock.expiry = some 15 ∧
      Happens (KeyValue.system {})
        (fun ask now => 0 ≤ now ∧ now ≤ 15 ∧ ask.holder? ≠ some ada.holder) s₁ s₂ ∧
      ∃ d, (KeyValue.system {}).Renews s₂ jobs nightly ada d 15 ten (still 15) [] := by
  intro jobs nightly ada ten
  let bob : Caller := ⟨some "bob", ⟨"one", by decide⟩⟩
  let taken :=
    (Ask.session (KeyValue.service {}) (still 5) (.operate .acquire jobs nightly ada ten)).run
      KeyValue.client {} []
  let refused :=
    (Ask.session (KeyValue.service {}) (still 15) (.operate .acquire jobs nightly bob ten)).run
      KeyValue.losing
    taken.store []
  obtain ⟨a, ha, hs, hl⟩ :=
    (System.ManagerOnly.empty (KeyValue.laws {})).grants rfl rfl (by decide) rfl (by decide +kernel)
    (exec_run ((KeyValue.laws {}).client_mem False)
      (Ask.session (KeyValue.service {}) (still 5) (.operate .acquire jobs nightly ada ten)) {} [])
  have hgrant : Exec (KeyValue.system {}).clients
      (Ask.session (KeyValue.service {}) (still 5) (.operate .acquire jobs nightly ada ten)) {}
        (.ok a) taken.store :=
    ha ▸ exec_run (.inl rfl) _ _ _
  have he : a.lock.expiry = some 15 := by rw [hl]; rfl
  have hothers : Happens (KeyValue.system {})
    (fun ask now => 0 ≤ now ∧ now ≤ 15 ∧ ask.holder? ≠ some ada.holder)
      taken.store refused.store :=
    .step .refl rfl ⟨by decide, le_refl 15, by decide⟩ (exec_run (.inr rfl)
      (Ask.session (KeyValue.service {}) (still 15) (.operate .acquire jobs nightly bob ten))
        taken.store [])
  obtain ⟨-, d, -, hrenews⟩ :=
    @live_lock_kept (.keyValue {}) trivial {} taken.store refused.store .refl .acquire nofun
    jobs nightly ada ten (still 5) 5 15 a rfl (by decide) hgrant hs he hothers
  have hfits : Number.isTooLong (15 + ten) = false := by decide +kernel
  exact ⟨taken.store, refused.store, a, hgrant, hs, he, hothers, d,
    hrenews ada ten (still 15) 15 0 [] rfl rfl rfl (by decide) (le_refl 15) hfits⟩

/-! ### Integers of too many digits -/

theorem not_renews_of_isTooLong {s : KeyValue.Store} (h : System.ManagerOnly (KeyValue.laws {}) s)
    {realm name : Identifier} {caller : Caller} {d e now : Int} (hnow : 0 ≤ now) (hlive : now ≤ e)
    (hrec : (KeyValue.system {}).record s ((KeyValue.system {}).slot realm name) =
      some ((caller.claim realm name).lock (some d) (some e)))
    {more : Term} (hlong : Number.isTooLong (e + more) = true) (context : Context) (d' : Int) :
    ¬ (KeyValue.system {}).Renews s realm name caller d' e more (still now) context := by
  rintro ⟨a, ha, hs, -⟩
  obtain ⟨hp, hw, -⟩ := h.renewable hnow hlive hrec more
  have hrefused :=
    h.unwritten rfl hp hw (KeyValue.not_writable_of_expiry (Claim.isRecord_lock _ _ _) rfl hlong)
    (exec_run ((KeyValue.laws {}).client_mem False)
      (Ask.session (KeyValue.service {}) (still now) (.operate .renew realm name caller more))
        s context) ha
  rw [hrefused] at hs
  cases hs

theorem exists_not_renews {realm name : Identifier} {caller : Caller} {lease more : Term}
    {now : Int} (hnow : 0 ≤ now) (hshort : Number.isTooLong (now + lease) = false)
    (hlong : Number.isTooLong (now + lease + more) = true) :
    ∃ (s : KeyValue.Store) (a : Answer), Exec (KeyValue.system {}).clients
        (Ask.session (KeyValue.service {}) (still now) (.operate .acquire realm name caller lease))
          {} (.ok a) s ∧
      a.success = some true ∧ a.lock.expiry = some (now + lease) ∧
      ∀ d, ¬ (KeyValue.system {}).Renews s realm name caller d (now + lease) more
        (still now) [] := by
  have hempty : System.ManagerOnly (KeyValue.laws {}) {} := .empty _
  have hx := exec_run ((KeyValue.laws {}).client_mem False)
    (Ask.session (KeyValue.service {}) (still now) (.operate .acquire realm name caller lease)) {}
      []
  have hx' : Exec (KeyValue.system {}).clients
      (Ask.session (KeyValue.service {}) (still now) (.operate .acquire realm name caller lease))
        {} _ _ :=
    exec_run (.inl rfl) _ _ []
  obtain ⟨a, ha, hs, hl⟩ := hempty.grants rfl rfl hnow rfl hshort hx
  have he : a.lock.expiry = some (now + lease) := by rw [hl]; rfl
  have hlease : 0 ≤ lease.1 := le_trans (by decide) lease.2.1
  rw [ha] at hx'
  obtain ⟨d, hd, hrec⟩ := hempty.granted rfl (by decide) hx' hs he
  rw [hd] at hrec
  exact ⟨_, a, hx', hs, he, not_renews_of_isTooLong (hempty.exec rfl hnow hx) hnow
    (by omega) hrec hlong []⟩

/-- A lock that is held until the last tick cannot be renewed. -/
theorem not_live_lock_kept_overlong :
    ¬ ∀ (b : Backend) (s₀ s₁ s₂ : b.system.Store) (kind : Operation.Kind)
    (realm name : Identifier) (caller : Caller) (lease more : Term) (t t' : Timing)
    (now now' e ms : Int) (a : Answer) (context : Context), b.Regular →
    Happens b.system (fun _ now => 0 ≤ now) b.system.empty s₀ → kind ≠ .release →
    t.now = .ok now → 0 ≤ now →
    Exec b.system.clients (Ask.session b.system.service t (.operate kind realm name caller lease))
      s₀ (.ok a) s₁ →
    a.success = some true → a.lock.expiry = some e →
    Happens b.system (fun ask now => 0 ≤ now ∧ now ≤ e ∧ ask.holder? ≠ some caller.holder) s₁ s₂ →
    t'.now = .ok now' → t'.elapsed = .ok ms → 0 ≤ now' → now' ≤ e →
    (∀ options, b = .documents options → b.system.fits (e + more)) →
    ∃ d, b.system.Renews s₂ realm name caller d e more t' context := by
  intro h
  let realm : Identifier := ⟨"jobs", by decide⟩
  let name : Identifier := ⟨"nightly", by decide⟩
  let caller : Caller := ⟨some "ada", ⟨"one", by decide⟩⟩
  let second : Term := ⟨1, by decide⟩
  have hnow : 0 ≤ KeyValue.lastTick - 1 := Int.sub_nonneg_of_le KeyValue.lastTick_pos
  have hend : KeyValue.lastTick - 1 + second = KeyValue.lastTick := Int.sub_add_cancel _ _
  have hshort : Number.isTooLong (KeyValue.lastTick - 1 + second) = false := by
    rw [hend]; exact KeyValue.isTooLong_lastTick
  have hlong : Number.isTooLong (KeyValue.lastTick - 1 + second + second) = true := by
    rw [hend]; exact KeyValue.isTooLong_lastTick_succ
  obtain ⟨s, a, hx, hs, he, hn⟩ :=
    @exists_not_renews realm name caller second second _ hnow hshort hlong
  obtain ⟨d, hd⟩ := h (.keyValue {}) {} s s .acquire realm name caller second second (still _)
    (still _) _ _ _ 0 a []
    trivial .refl nofun rfl hnow hx hs he .refl rfl rfl hnow
      (by rw [hend]; exact Int.sub_le_self _ (by decide)) nofun
  exact hn d hd

end Leasehold
