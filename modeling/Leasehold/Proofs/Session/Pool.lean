import Mathlib.Data.List.Induction
import Mathlib.Logic.Function.Basic
import Leasehold.Proofs.Session.Terms

/-!
# Sessions interleaved

A `Pool` is a store with sessions under way on it. `Pool.step` gives one of them its turn: its next
call, or all its calls when a store runs every session as one transaction (`whole`). `Pool.Ready` is
the invariant of a pool of obedient sessions: whoever is not finished still obeys, seen from the
store as it is now. A turn keeps it (`Ready.step`) and is silent, unless the session is finished by
it; then its result is allowed by the store around its last call (`Pool.Turned`). So in a run by
single calls every session that ends has one call with which it takes effect, and its other calls
change nothing that counts (`Pool.progress`).
-/

namespace Leasehold.Session
variable {I : Interface} {σ γ α ι : Type}

/-- The session after its turn, and the store. -/
def turn (client : Client I σ) (whole : Bool) : Session I α → σ → Session I α × σ
  | done a, s => (done a, s)
  | fail e, s => (fail e, s)
  | note _ next, s => next.turn client whole s
  | amend _ next, s => next.turn client whole s
  | call c next, s =>
    if whole then (next (client c s).1).turn client whole
      (client c s).2 else (next (client c s).1, (client c s).2)

theorem turn_of_result (client : Client I σ) (whole : Bool) {session : Session I α}
    {r : Except Error α} (h : session.result? = some r) (s : σ) :
    (session.turn client whole s).1.result? = some r ∧ (session.turn client whole s).2 = s := by
  induction session with
  | done | fail => exact ⟨h, rfl⟩
  | note _ _ ih | amend _ _ ih => exact ih h
  | call => cases h

theorem exec_turn {clients : Set (Client I σ)} {client : Client I σ} (hc : client ∈ clients)
    (session : Session I α) (s : σ) : ∃ r, (session.turn client true s).1.result? = some r ∧
      Exec clients session s r (session.turn client true s).2 := by
  induction session generalizing s with
  | done a => exact ⟨_, rfl, .done a s⟩
  | fail e => exact ⟨_, rfl, .fail e s⟩
  | note _ _ ih =>
    obtain ⟨r, hr, hx⟩ := ih s
    exact ⟨r, hr, .note hx⟩
  | amend _ _ ih =>
    obtain ⟨r, hr, hx⟩ := ih s
    exact ⟨r, hr, .amend hx⟩
  | call c next ih =>
    obtain ⟨r, hr, hx⟩ := ih (client c s).1 (client c s).2
    exact ⟨r, hr, .call hc hx⟩

section Turn
variable {T : Terms I σ γ} {Q : Except Error α → γ → σ → σ → Prop} {client : Client I σ}
  {session : Session I α} {g : γ} {s₀ s₁ s : σ}

/-- One call of an obedient session. The session still obeys, and the others are not disturbed. -/
theorem Obeys.turn (F : T.Fair) (hc : client ∈ T.clients) (h : session.Obeys T Q g s₀ s₁)
    (hr : session.result? = none) (he : T.env g s₁ s) (hs : T.seen s) (hg : T.good s)
    (ho : T.owns g s) :
    ∃ g', T.good (session.turn client false s).2 ∧ T.owns g' (session.turn client false s).2 ∧
      (∀ g₂, T.owns g₂ s → T.apart g g₂ → T.env g₂ s (session.turn client false s).2 ∧
        T.owns g₂ (session.turn client false s).2 ∧ T.apart g' g₂) ∧
      (session.turn client false s).1.Obeys T Q g' s (session.turn client false s).2 := by
  induction session with
  | done | fail => cases hr
  | note _ _ ih | amend _ _ ih => exact ih h hr
  | call c next =>
    obtain ⟨hmay, h⟩ := h.2 s he hs
    refine ⟨T.track g c (client c s).1, F.good_step hg ho hmay hc, F.owns_step hg ho hmay hc,
      ?_, h client hc⟩
    intro g₂ ho₂ ha
    have hs := F.env_step hg ho ho₂ ha hmay hc
    exact ⟨hs.1, hs.2, F.apart_step hg ho ho₂ ha hmay hc⟩

end Turn

/-- A store and sessions that use it at the same time. -/
structure Pool (I : Interface) (σ α ι : Type) where
  store : σ
  sessions : ι → Session I α

namespace Pool

/-- The result of session `i`, when it is finished. -/
def result? (p : Pool I σ α ι) (i : ι) : Option (Except Error α) := (p.sessions i).result?

/-- Gives session `i` its turn. -/
def step [DecidableEq ι] (client : Client I σ) (whole : Bool) (p : Pool I σ α ι) (i : ι) :
    Pool I σ α ι :=
  let turned := (p.sessions i).turn client whole p.store
  { store := turned.2, sessions := Function.update p.sessions i turned.1 }

variable {T : Terms I σ γ} {Q : ι → Except Error α → γ → σ → σ → Prop} {client : Client I σ}
  {whole : Bool} {p : Pool I σ α ι}

section Step
variable [DecidableEq ι]

theorem sessions_step_of_ne {i j : ι} (h : j ≠ i) :
    (p.step client whole i).sessions j = p.sessions j := by
  simp only [step, Function.update_of_ne h]

theorem result?_step_of_ne {i j : ι} (h : j ≠ i) :
    (p.step client whole i).result? j = p.result? j := by
  simp only [result?, sessions_step_of_ne h]

theorem step_of_result {i : ι} {r : Except Error α} (h : p.result? i = some r) :
    (p.step client whole i).store = p.store ∧ (p.step client whole i).result? i = some r := by
  have ht := turn_of_result client whole h p.store
  exact ⟨ht.2, by simpa only [result?, step, Function.update_self] using ht.1⟩

end Step

/-- Everyone keeps to the terms and has an own token; who is not finished obeys. A transaction that
is not finished has not begun. -/
structure Ready (T : Terms I σ γ) (Q : ι → Except Error α → γ → σ → σ → Prop) (whole : Bool)
    (p : Pool I σ α ι) :
    Prop where
  good : T.good p.store
  waiting : whole = true → ∀ i, p.result? i = none → ∀ s, (p.sessions i).Obeys T (Q i) T.idle s s
  underway : whole = false → ∃ g : ι → γ, (∀ i, T.owns (g i) p.store) ∧
    (∀ i j, i ≠ j → T.apart (g i) (g j)) ∧
    ∀ i, p.result? i = none → ∃ s₀ s₁, T.env (g i) s₁ p.store ∧
    (p.sessions i).Obeys T (Q i) (g i) s₀ s₁

/-- What a turn of session `i` did: nothing that counts, or it ended the session in a result that
the store around the last call allows. -/
inductive Turned (T : Terms I σ γ) (Q : ι → Except Error α → γ → σ → σ → Prop) (p p' : Pool I σ α ι)
    (i : ι) : Prop
  | silent (h : T.silent p.store p'.store) (hr : p'.result? i = p.result? i)
  | ended {r : Except Error α} {g : γ} {t : σ} (hn : p.result? i = none)
    (hr : p'.result? i = some r)
    (ht : T.silent p.store t) (h : Q i r g t p'.store)

theorem Ready.start (F : whole = false → T.Fair) (S : T.Sound) (hg : T.good p.store)
    (h : ∀ i s, (p.sessions i).Obeys T (Q i) T.idle s s) : p.Ready T Q whole where
  good := hg
  waiting := fun _ i _ s => h i s
  underway := by
    intro hw
    refine ⟨fun _ => T.idle, fun _ => S.owns_idle hg, fun _ _ _ => (F hw).apart_idle, fun i _ => ?_⟩
    exact ⟨p.store, p.store, S.env_refl hg (S.owns_idle hg), h i p.store⟩

theorem Ready.outside (F : whole = false → T.Fair) (h : p.Ready T Q whole) {s : σ} (hg : T.good s)
    (hs : whole = false → T.Admits p.store s) : Ready T Q whole { p with store := s } where
  good := hg
  waiting := h.waiting
  underway := by
    intro hw
    obtain ⟨g, ho, ha, hu⟩ := h.underway hw
    refine ⟨g, fun i => (hs hw).owns h.good (ho i), ha, fun i hi => ?_⟩
    obtain ⟨s₀, s₁, he, hob⟩ := hu i hi
    exact ⟨s₀, s₁, (F hw).env_trans he ((hs hw).env h.good (ho i)), hob⟩

section Step
variable [DecidableEq ι]

theorem Ready.step_whole (S : T.Sound) (hc : client ∈ T.clients) (hseen : ∀ s, T.seen s)
    (h : p.Ready T Q true) (i : ι) (hi : p.result? i = none) :
    (p.step client true i).Ready T Q true ∧ Turned T Q p (p.step client true i) i := by
  obtain ⟨r, hr, hx⟩ := exec_turn hc (p.sessions i) p.store
  obtain ⟨hg, g, t, ht, -, hQ⟩ :=
    (h.waiting rfl i hi p.store).exec S hseen h.good (S.owns_idle h.good) hx
  have hr' : (p.step client true i).result? i = some r := by
    simpa only [result?, step, Function.update_self] using hr
  refine ⟨⟨hg, fun _ j hj s => ?_, nofun⟩, .ended hi hr' ht hQ⟩
  by_cases hji : j = i
  · subst hji; rw [hr'] at hj; cases hj
  · rw [result?_step_of_ne hji] at hj
    rw [sessions_step_of_ne hji]
    exact h.waiting rfl j hj s

theorem Ready.step_call (F : T.Fair) (hc : client ∈ T.clients) (hs : T.seen p.store)
    (h : p.Ready T Q false) (i : ι) (hi : p.result? i = none) :
    (p.step client false i).Ready T Q false ∧ Turned T Q p (p.step client false i) i := by
  obtain ⟨g, ho, ha, hu⟩ := h.underway rfl
  obtain ⟨s₀, s₁, he, hob⟩ := hu i hi
  obtain ⟨g', hg, ho', hothers, hob'⟩ := hob.turn F hc hi he hs h.good (ho i)
  have hself : ((p.step client false i).sessions i) =
    ((p.sessions i).turn client false p.store).1 := by
    simp only [step, Function.update_self]
  -- only the token of `i` changes, so every statement about tokens is one about `i` or one about
  -- the others
  refine ⟨⟨hg, nofun, fun _ => ⟨Function.update g i g', ?_, ?_, ?_⟩⟩, ?_⟩
  · intro j
    by_cases hj : j = i
    · subst hj; rwa [Function.update_self]
    · rw [Function.update_of_ne hj]; exact (hothers _ (ho j) (ha i j (Ne.symm hj))).2.1
  · intro j k hjk
    by_cases hj : j = i
    · subst hj
      rw [Function.update_self, Function.update_of_ne (Ne.symm hjk)]
      exact (hothers _ (ho k) (ha _ k hjk)).2.2
    · rw [Function.update_of_ne hj]
      by_cases hk : k = i
      · subst hk
        rw [Function.update_self]
        exact F.apart_symm (hothers _ (ho j) (ha _ j (Ne.symm hj))).2.2
      · rw [Function.update_of_ne hk]; exact ha j k hjk
  · intro j hj
    by_cases hji : j = i
    · subst hji
      rw [Function.update_self, hself]
      exact ⟨_, _, F.env_refl hg ho', hob'⟩
    · rw [result?_step_of_ne hji] at hj
      obtain ⟨s₀, s₁, he, hob⟩ := hu j hj
      rw [Function.update_of_ne hji]
      refine ⟨s₀, s₁, F.env_trans he (hothers _ (ho j) (ha i j (Ne.symm hji))).1, ?_⟩
      rw [sessions_step_of_ne hji]
      exact hob
  · rw [← hself] at hob'
    cases hr : (p.step client false i).result? i with
    | none => exact .silent (hob'.silent hr) (hr.trans hi.symm)
    | some r => exact .ended hi hr (F.silent_refl p.store) (hob'.of_result hr)

theorem Ready.step_finished (h : p.Ready T Q whole) {i : ι} {r : Except Error α}
    (hi : p.result? i = some r) :
    (p.step client whole i).Ready T Q whole := by
  obtain ⟨hs, hr⟩ : (p.step client whole i).store = p.store ∧
    (p.step client whole i).result? i = some r :=
    step_of_result hi
  have others {j : ι} (hj : (p.step client whole i).result? j = none) :
      p.result? j = none ∧ (p.step client whole i).sessions j = p.sessions j := by
    have hji : j ≠ i := by rintro rfl; rw [hr] at hj; cases hj
    exact ⟨(result?_step_of_ne hji).symm.trans hj, sessions_step_of_ne hji⟩
  refine ⟨by rw [hs]; exact h.good, fun hw j hj s => ?_, fun hw => ?_⟩
  · rw [(others hj).2]; exact h.waiting hw j (others hj).1 s
  · obtain ⟨g, ho, ha, hu⟩ := h.underway hw
    refine ⟨g, by rw [hs]; exact ho, ha, fun j hj => ?_⟩
    rw [(others hj).2, hs]
    exact hu j (others hj).1

/-- A turn of whoever, when the turns of those who are not finished are understood. -/
theorem Ready.step_of (S : T.Sound) (h : p.Ready T Q whole) (i : ι)
    (hi : p.result? i = none → (p.step client whole i).Ready T Q whole ∧
      Turned T Q p (p.step client whole i) i) :
    (p.step client whole i).Ready T Q whole ∧ Turned T Q p (p.step client whole i) i := by
  cases hr : p.result? i with
  | none => exact hi hr
  | some r =>
    obtain ⟨hs, hr'⟩ : (p.step client whole i).store = p.store ∧
      (p.step client whole i).result? i = some r :=
      step_of_result hr
    exact ⟨h.step_finished hr, .silent (hs ▸ S.silent_refl p.store) (hr'.trans hr.symm)⟩

theorem Ready.step (F : whole = false → T.Fair) (S : T.Sound) (hc : client ∈ T.clients)
    (hseen : ∀ s, T.seen s) (h : p.Ready T Q whole) (i : ι) :
    (p.step client whole i).Ready T Q whole ∧ Turned T Q p (p.step client whole i) i := by
  refine h.step_of S i fun hi => ?_
  cases whole with
  | true => exact h.step_whole S hc hseen i hi
  | false => exact h.step_call (F rfl) hc (hseen p.store) i hi

end Step

/-! ### Runs -/

/-- The calls of `i` in a schedule that was extended by a call of `j`. -/
theorem split_concat {schedule before after : List ι} {i j : ι}
    (h : schedule ++ [j] = before ++ i :: after) :
    (i = j ∧ before = schedule ∧ after = []) ∨ ∃ after', schedule = before ++ i :: after' := by
  rcases List.eq_nil_or_concat after with rfl | ⟨after', k, rfl⟩
  · obtain ⟨h1, h2⟩ := List.append_inj' h rfl
    cases h2
    exact .inl ⟨rfl, h1.symm, rfl⟩
  · rw [List.concat_eq_append, ← List.cons_append, ← List.append_assoc] at h
    exact .inr ⟨after', (List.append_inj' h rfl).1⟩

section Run
variable [DecidableEq ι]

/-- Single calls in the order of a schedule. -/
def run (client : Client I σ) (p : Pool I σ α ι) (schedule : List ι) : Pool I σ α ι :=
  schedule.foldl (step client false) p

theorem run_concat (schedule : List ι) (i : ι) :
    p.run client (schedule ++ [i]) = (p.run client schedule).step client false i := by
  rw [run, List.foldl_append]; rfl

theorem result?_run {i : ι} {r : Except Error α} (h : p.result? i = some r) (schedule : List ι) :
    (p.run client schedule).result? i = some r := by
  induction schedule using List.reverseRecOn with
  | nil => exact h
  | append_singleton schedule j ih =>
    rw [run_concat]
    by_cases hij : i = j
    · subst hij; exact (step_of_result ih).2
    · rw [result?_step_of_ne hij]; exact ih

/-- The call that follows `before` in a run changes nothing that counts. -/
def Silent (T : Terms I σ γ) (client : Client I σ) (p : Pool I σ α ι) (before : List ι)
    (i : ι) : Prop :=
  T.silent (p.run client before).store (p.run client (before ++ [i])).store

/-- Session `i` ended in `r` with the call that follows `before`, and took effect with it; none of
its other calls changes anything that counts. -/
structure TookEffect (T : Terms I σ γ) (Q : ι → Except Error α → γ → σ → σ → Prop)
    (client : Client I σ) (p : Pool I σ α ι) (schedule : List ι) (i : ι) (r : Except Error α)
    (before after : List ι) : Prop where
  split : schedule = before ++ i :: after
  unfinished : (p.run client before).result? i = none
  finished : (p.run client (before ++ [i])).result? i = some r
  effect : ∃ g t, T.silent (p.run client before).store t ∧
    Q i r g t (p.run client (before ++ [i])).store
  others : ∀ before' after', schedule = before' ++ i :: after' → before' ≠ before →
    Silent T client p before' i

/-- What is known after a schedule: who is not finished has changed nothing, and who is has taken
effect. -/
structure Progress (T : Terms I σ γ) (Q : ι → Except Error α → γ → σ → σ → Prop)
    (client : Client I σ) (p : Pool I σ α ι) (schedule : List ι) : Prop where
  ready : (p.run client schedule).Ready T Q false
  silent : ∀ i, (p.run client schedule).result? i = none → ∀ before after,
    schedule = before ++ i :: after →
    Silent T client p before i
  ended : ∀ i r, p.result? i = none → (p.run client schedule).result? i = some r →
    ∃ before after, TookEffect T Q client p schedule i r before after

theorem TookEffect.concat {schedule before after : List ι} {i j : ι} {r : Except Error α}
    (h : TookEffect T Q client p schedule i r before after)
    (hj : i = j → Silent T client p schedule i) :
    TookEffect T Q client p (schedule ++ [j]) i r before (after ++ [j]) where
  split := by rw [h.split, List.append_assoc, List.cons_append]
  unfinished := h.unfinished
  finished := h.finished
  effect := h.effect
  others := by
    intro before' after' hsplit hne
    rcases split_concat hsplit with ⟨hij, rfl, -⟩ | ⟨after'', hs⟩
    · exact hj hij
    · exact h.others before' after'' hs hne

theorem Progress.concat (F : T.Fair) (hc : client ∈ T.clients) {schedule : List ι}
    (h : Progress T Q client p schedule) (j : ι) (hseen : T.seen (p.run client schedule).store) :
    Progress T Q client p (schedule ++ [j]) := by
  have hstep := h.ready.step_of F.toSound j fun hi => h.ready.step_call F hc hseen j hi
  rw [← run_concat] at hstep
  obtain ⟨hready, hturned⟩ := hstep
  have hne {i : ι} (hij : i ≠ j) : (p.run client (schedule ++ [j])).result? i =
    (p.run client schedule).result? i := by
    rw [run_concat]; exact result?_step_of_ne hij
  have hstays {r : Except Error α} (hr : (p.run client schedule).result? j = some r) :
      (p.run client (schedule ++ [j])).result? j = some r := by
    rw [run_concat]; exact (step_of_result hr).2
  refine ⟨hready, fun i hi before after hsplit => ?_, fun i r hi hr => ?_⟩
  · rcases split_concat hsplit with ⟨rfl, rfl, -⟩ | ⟨after', hs⟩
    · cases hturned with
      | silent hs _ => exact hs
      | ended _ hr => rw [hr] at hi; cases hi
    · refine h.silent i ?_ before after' hs
      by_cases hij : i = j
      · subst hij
        cases hr : (p.run client schedule).result? i with
        | none => rfl
        | some r => rw [hstays hr] at hi; cases hi
      · rw [← hne hij]; exact hi
  · by_cases hij : i = j
    · subst hij
      cases hturned with
      | silent hs hsame =>
        obtain ⟨before, after, ht⟩ := h.ended i r hi (hsame.symm.trans hr)
        exact ⟨before, _, ht.concat fun _ => hs⟩
      | @ended r' g t hn hr' ht hQ =>
        -- it has not ended before, so none of its earlier calls changed anything
        cases Option.some.inj (hr'.symm.trans hr)
        refine ⟨schedule, [], ⟨rfl, hn, hr, ⟨g, t, ht, hQ⟩, fun before' after' hsplit hb => ?_⟩⟩
        rcases split_concat hsplit with ⟨-, hb', -⟩ | ⟨after'', hs⟩
        · exact absurd hb' hb
        · exact h.silent i hn before' after'' hs
    · obtain ⟨before, after, ht⟩ := h.ended i r hi ((hne hij).symm.trans hr)
      exact ⟨before, _, ht.concat fun h => absurd h hij⟩

/-- Sessions that keep fair terms, in any interleaving of their calls. -/
theorem progress (F : T.Fair) (hc : client ∈ T.clients) (h : p.Ready T Q false) (schedule : List ι)
    (hseen : ∀ before j after, schedule = before ++ j :: after →
      T.seen (p.run client before).store) :
    Progress T Q client p schedule := by
  induction schedule using List.reverseRecOn with
  | nil =>
    refine ⟨h, fun i _ before after hs => ?_, fun i r hi hr => ?_⟩
    · exact absurd hs.symm (List.append_ne_nil_of_right_ne_nil _ (List.cons_ne_nil _ _))
    · rw [show (p.run client []).result? i = p.result? i from rfl, hi] at hr; cases hr
  | append_singleton schedule j ih =>
    refine (ih fun before k after hs => ?_).concat F hc j (hseen schedule j [] rfl)
    exact hseen before k (after ++ [j]) (by rw [hs, List.append_assoc, List.cons_append])

end Run

end Pool

end Leasehold.Session
