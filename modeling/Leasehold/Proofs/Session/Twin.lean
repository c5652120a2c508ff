import Leasehold.Proofs.Session.Ensures

/-!
# Two runs side by side

What a run does not depend on can be exchanged, and the run comes out alike. `Twin` compares the
runs of two sessions, each on its own store, by clients whose calls fail at the same places
(`scripted`): they write the same log, their stores and contexts are related afterwards as they were
before, and they end in related answers or in the same error. The calls themselves need not be the
same. One rule for each way to put sessions together pushes `Twin` through both of them in lockstep.
-/

namespace Leasehold.Session
variable {I : Interface} {σ α β : Type}

/-! ### Calls that fail by a script -/

/-- What becomes of the calls to come: where a fault stands the call fails, otherwise it is served,
and so are all calls after the last. -/
abbrev Script := List (Option Fault)

/-- The client under a script. A call that fails has no effect. -/
def scripted (client : Client I σ) : Client I (σ × Script) := fun c p =>
  match p with
  | (s, some f :: script) => (.error f, (s, script))
  | (s, script) => ((client c s).1, ((client c s).2, script.tail))

theorem run_scripted (client : Client I σ) (session : Session I α) (s : σ) (c : Context) :
    session.run (scripted client) (s, []) c =
      ⟨(session.run client s c).result, ((session.run client s c).store, []),
        (session.run client s c).context,
        (session.run client s c).log⟩ := by
  induction session generalizing s c with
  | done | fail => rfl
  | note entry next ih => simp only [run, ih]
  | amend change next ih => simp only [run, ih]
  | call q next ih => exact ih _ (client q s).2 c

/-- A rescued run goes on with the handler from where the error left it. -/
theorem run_rescue {client : Client I σ} {answers : Error → Bool} {handler : Error → Session I α}
    (session : Session I α) (s : σ) (c : Context) :
    (session.rescue answers handler).run client s c =
      match (session.run client s c).result with
      | .ok _ => session.run client s c
      | .error e =>
        if answers e then
          let after :=
  (handler e).run client (session.run client s c).store (session.run client s c).context
          { after with log := (session.run client s c).log ++ after.log }
        else session.run client s c := by
  induction session generalizing s c with
  | done a => rfl
  | fail e => simp only [rescue, run]; split <;> rfl
  | note entry next ih =>
    simp only [rescue, run, ih]
    split
    · rfl
    · split <;> rfl
  | amend change next ih => simp only [rescue, run, ih]
  | call q next ih => simp only [rescue, run, ih]

/-! ### Results that correspond -/

/-- Related answers, or the same error. -/
inductive Alike {ε : Type} (R : α → β → Prop) : Except ε α → Except ε β → Prop
  | ok {a : α} {b : β} (h : R a b) : Alike R (.ok a) (.ok b)
  | error (e : ε) : Alike R (.error e) (.error e)

namespace Alike
variable {ε : Type} {R : α → β → Prop} {x : Except ε α} {y : Except ε β}

theorem mono {R' : α → β → Prop} (h : Alike R x y) (hR : ∀ a b, R a b → R' a b) : Alike R' x y := by
  cases h with
  | ok h => exact .ok (hR _ _ h)
  | error e => exact .error e

theorem of_ok (h : Alike R x y) : Alike (fun a b => x = .ok a ∧ y = .ok b ∧ R a b) x y := by
  cases h with
  | ok h => exact .ok ⟨rfl, rfl, h⟩
  | error e => exact .error e

theorem refl {R : α → α → Prop} {x : Except ε α} (h : ∀ a, x = .ok a → R a a) : Alike R x x := by
  cases x with
  | ok a => exact .ok (h a rfl)
  | error e => exact .error e

theorem bind {α' β' : Type} {R' : α' → β' → Prop} {f : α → Except ε α'} {g : β → Except ε β'}
    (h : Alike R x y) (hfg : ∀ a b, R a b → Alike R' (f a) (g b)) :
    Alike R' (x.bind f) (y.bind g) := by
  cases h with
  | ok h => exact hfg _ _ h
  | error e => exact .error e

theorem bind_self {α' β' : Type} {R' : α' → β' → Prop} {f : α → Except ε α'} {g : α → Except ε β'}
    (hfg : ∀ a, Alike R' (f a) (g a)) : Alike R' (x.bind f) (x.bind g) := by
  cases x with
  | ok a => exact hfg a
  | error e => exact .error e

theorem map {α' β' : Type} {R' : α' → β' → Prop} {f : α → α'} {g : β → β'} (h : Alike R x y)
    (hfg : ∀ a b, R a b → R' (f a) (g b)) : Alike R' (x.map f) (y.map g) := by
  cases h with
  | ok h => exact .ok (hfg _ _ h)
  | error e => exact .error e

theorem of_map {α' β' : Type} {R' : α' → β' → Prop} {f : α → α'} {g : β → β'}
    (h : Alike R' (x.map f) (y.map g)) :
    Alike (fun a b => R' (f a) (g b)) x y := by
  cases x with
  | ok a =>
    cases y with
    | ok b => cases h with | ok h => exact .ok h
    | error e => cases h
  | error e =>
    cases y with
    | ok b => cases h
    | error e' => cases h with | error e => exact .error e

theorem map_right (f : α → β) (x : Except ε α) : Alike (fun a b => b = f a) x (x.map f) := by
  cases x with
  | ok a => exact .ok rfl
  | error e => exact .error e

theorem eq_map {f : α → β} (h : Alike (fun a b => b = f a) x y) : y = x.map f := by
  cases h with
  | ok h => exact congrArg _ h
  | error e => rfl

theorem eq {x y : Except ε α} (h : Alike (fun a b => b = a) x y) : y = x := by
  cases h with
  | ok h => exact congrArg _ h
  | error e => rfl

end Alike

/-! ### Lockstep -/

/-- The ends of two runs correspond. -/
structure Matched (Γ : Context → Context → Prop) (T : σ → σ → Prop) (R : α → β → σ → σ → Prop)
    (r : Run (σ × Script) α) (r' : Run (σ × Script) β) : Prop where
  log : r'.log = r.log
  script : r'.store.2 = r.store.2
  context : Γ r.context r'.context
  store : T r.store.1 r'.store.1
  result : Alike (fun a b => R a b r.store.1 r'.store.1) r.result r'.result

/-- Two sessions whose runs correspond, whichever calls fail, from contexts that `Γ` relates on. -/
def Twin (Γ : Context → Context → Prop) (T : σ → σ → Prop) (client : Client I σ)
    (R : α → β → σ → σ → Prop) (session : Session I α) (session' : Session I β) (s s' : σ) : Prop :=
  ∀ script c c', Γ c c' →
    Matched Γ T R (session.run (scripted client) (s, script) c)
      (session'.run (scripted client) (s', script) c')

theorem Matched.plain {Γ : Context → Context → Prop} {T : σ → σ → Prop} {R : α → β → σ → σ → Prop}
    {client : Client I σ} {session : Session I α} {session' : Session I β} {s s' : σ}
    {c c' : Context} (h : Matched Γ T R (session.run (scripted client) (s, []) c)
      (session'.run (scripted client) (s', []) c')) :
    (session'.run client s' c').log = (session.run client s c).log ∧
      Γ (session.run client s c).context (session'.run client s' c').context ∧
      T (session.run client s c).store (session'.run client s' c').store ∧
      Alike (fun a b => R a b (session.run client s c).store (session'.run client s' c').store)
        (session.run client s c).result (session'.run client s' c').result := by
  rw [run_scripted, run_scripted] at h
  exact ⟨h.log, h.context, h.store, h.result⟩

section Rules
variable {Γ : Context → Context → Prop} {T : σ → σ → Prop} {client : Client I σ}
  {R : α → β → σ → σ → Prop} {session : Session I α} {session' : Session I β} {s s' : σ}

theorem twin_done {a : α} {b : β} (hT : T s s') (h : R a b s s') :
    Twin Γ T client R (.done a) (.done b) s s' :=
  fun _ _ _ hc => ⟨rfl, rfl, hc, hT, .ok h⟩

theorem twin_fail {e : Error} (hT : T s s') : Twin Γ T client R (.fail e) (.fail e) s s' :=
  fun _ _ _ hc => ⟨rfl, rfl, hc, hT, .error e⟩

theorem twin_note {entry : Log.Entry} (h : Twin Γ T client R session session' s s') :
    Twin Γ T client R (.note entry session) (.note entry session') s s' := by
  intro script c c' hc
  have hm := h script c c' hc
  exact ⟨congrArg (entry :: ·) hm.log, hm.script, hm.context, hm.store, hm.result⟩

theorem twin_amend {change change' : Context → Context}
    (hΓ : ∀ c c', Γ c c' → Γ (change c) (change' c'))
    (h : Twin Γ T client R session session' s s') :
    Twin Γ T client R (.amend change session) (.amend change' session') s s' :=
  fun script c c' hc => h script (change c) (change' c') (hΓ c c' hc)

theorem twin_call {c c' : I.Call} {next : Except Fault (I.Reply c) → Session I α}
    {next' : Except Fault (I.Reply c') → Session I β}
    (hserved : Twin Γ T client R (next (client c s).1) (next' (client c' s').1) (client c s).2
      (client c' s').2)
    (hfails : ∀ f, Twin Γ T client R (next (.error f)) (next' (.error f)) s s') :
    Twin Γ T client R (.call c next) (.call c' next') s s' := by
  rintro (_ | ⟨_ | f, script⟩) d d' hd
  · exact hserved [] d d' hd
  · exact hserved script d d' hd
  · exact hfails f script d d' hd

theorem twin_bind {α' β' : Type} {R' : α' → β' → σ → σ → Prop} {k : α → Session I α'}
    {k' : β → Session I β'} (h : Twin Γ T client R session session' s s')
    (hk : ∀ a b t t', T t t' → R a b t t' → Twin Γ T client R' (k a) (k' b) t t') :
    Twin Γ T client R' (session.bind k) (session'.bind k') s s' := by
  intro script c c' hc
  have hm := h script c c' hc
  rw [run_bind, run_bind]
  revert hm
  generalize session.run (scripted client) (s, script) c = r
  generalize session'.run (scripted client) (s', script) c' = r'
  obtain ⟨result, ⟨t, left⟩, d, log⟩ := r
  obtain ⟨result', ⟨t', left'⟩, d', log'⟩ := r'
  rintro ⟨rfl, hleft, hd, hT, hr⟩
  obtain rfl : left' = left := hleft
  cases hr with
  | ok hab =>
    have hn := hk _ _ t t' hT hab left' d d' hd
    exact ⟨congrArg (_ ++ ·) hn.log, hn.script, hn.context, hn.store, hn.result⟩
  | error e => exact ⟨rfl, rfl, hd, hT, .error e⟩

theorem twin_rescue {answers : Error → Bool} {handler : Error → Session I α}
    {handler' : Error → Session I β} (h : Twin Γ T client R session session' s s')
    (hh : ∀ e t t', T t t' → answers e = true → Twin Γ T client R (handler e) (handler' e) t t') :
    Twin Γ T client R (session.rescue answers handler) (session'.rescue answers handler') s s' := by
  intro script c c' hc
  have hm := h script c c' hc
  rw [run_rescue, run_rescue]
  revert hm
  generalize session.run (scripted client) (s, script) c = r
  generalize session'.run (scripted client) (s', script) c' = r'
  obtain ⟨result, ⟨t, left⟩, d, log⟩ := r
  obtain ⟨result', ⟨t', left'⟩, d', log'⟩ := r'
  rintro ⟨rfl, hleft, hd, hT, hr⟩
  obtain rfl : left' = left := hleft
  cases hr with
  | ok hab => exact ⟨rfl, rfl, hd, hT, .ok hab⟩
  | error e =>
    dsimp only
    cases ha : answers e with
    | true =>
      have hn := hh e t t' hT ha left' d d' hd
      exact ⟨congrArg (_ ++ ·) hn.log, hn.script, hn.context, hn.store, hn.result⟩
    | false => exact ⟨rfl, rfl, hd, hT, .error e⟩

variable {α' β' : Type} {R' : α' → β' → σ → σ → Prop} {k : α → Session I α'} {k' : β → Session I β'}

theorem twin_ask (c c' : I.Call) {k : I.Reply c → Session I α} {k' : I.Reply c' → Session I β}
    (hT : T s s') (hserved : T (client c s).2 (client c' s').2)
    (h : Alike (fun a b => Twin Γ T client R (k a) (k' b) (client c s).2 (client c' s').2)
      (client c s).1 (client c' s').1) :
    Twin Γ T client R ((ask c).bind k) ((ask c').bind k') s s' := by
  refine twin_call ?_ fun f => twin_fail hT
  revert h
  generalize (client c s).1 = reply
  generalize (client c' s').1 = reply'
  intro h
  cases h with
  | ok h => exact h
  | error f => exact twin_fail hserved

theorem twin_read {reading : Except Fault α} {reading' : Except Fault β} (hT : T s s')
    (h : Alike (fun a b => Twin Γ T client R' (k a) (k' b) s s') reading reading') :
    Twin Γ T client R' ((ofReading reading).bind k) ((ofReading reading').bind k') s s' := by
  cases h with
  | ok h => exact h
  | error f => exact twin_fail hT

theorem twin_ofReading {R : α → β → Prop} {reading : Except Fault α} {reading' : Except Fault β}
    (hT : T s s') (h : Alike R reading reading') :
    Twin Γ T client (fun a b _ _ => R a b) (ofReading reading) (ofReading reading') s s' := by
  cases h with
  | ok h => exact twin_done hT h
  | error f => exact twin_fail hT

theorem ofReading_map (f : α → β) (reading : Except Fault α) :
    (ofReading (I := I) reading).bind (fun a => done (f a)) = ofReading (reading.map f) := by
  cases reading <;> rfl

end Rules

end Leasehold.Session
