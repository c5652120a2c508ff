import Mathlib.Data.Set.Basic
import Leasehold.Session

/-!
# Sessions that share a store

`Terms` says on which terms sessions share a store: how calls may be answered, what one session may
ask for, what it has to expect of the others between two of its calls, which changes of the store
count as none, and what holds of the store and of the tokens that it handed out. `Terms.seen` is
what is taken for granted of the store at every call. `Obeys T Q` is the weakest precondition of a
session under terms `T`. It carries the store before and after the latest call: as soon as another
call follows, the latest one must have been silent, so at the end `Q` relates the result to the
store around the **last** call. That call is where the whole operation takes effect.

A session that obeys sound terms is safe when it runs alone (`Obeys.exec`), and on fair terms also
when it is interleaved with others (`Proofs/Session/Pool`).
-/

namespace Leasehold.Session

/-- The terms on which sessions share a store. A session has a token of what the store handed to
it. -/
structure Terms (I : Interface) (σ γ : Type) where
  /-- How a call may be answered. -/
  clients : Set (Client I σ)
  /-- What becomes of the token. -/
  track : γ → (c : I.Call) → Except Fault (I.Reply c) → γ
  /-- What a session with a token may ask for. -/
  may : γ → I.Call → Prop
  /-- How the others may change the store between two calls. -/
  env : γ → σ → σ → Prop
  /-- What is taken for granted of the store at a call. -/
  seen : σ → Prop
  /-- A change that counts as none. -/
  silent : σ → σ → Prop
  /-- What holds of the store at all times. -/
  good : σ → Prop
  /-- What holds of the store and the token of a session. -/
  owns : γ → σ → Prop
  /-- What holds of the tokens of two sessions. -/
  apart : γ → γ → Prop
  /-- The token of a session that has not begun. -/
  idle : γ

variable {I : Interface} {σ γ α β : Type}

/-- Under terms `T` the session ends in a result that `Q` allows, given the token and the store
before and after the last call. Every call before the last is silent. -/
def Obeys (T : Terms I σ γ) (Q : Except Error α → γ → σ → σ → Prop) : Session I α → γ → σ → σ → Prop
  | done a, g, s₀, s₁ => Q (.ok a) g s₀ s₁
  | fail e, g, s₀, s₁ => Q (.error e) g s₀ s₁
  | note _ next, g, s₀, s₁ => next.Obeys T Q g s₀ s₁
  | amend _ next, g, s₀, s₁ => next.Obeys T Q g s₀ s₁
  | call c next, g, s₀, s₁ => T.silent s₀ s₁ ∧ ∀ s, T.env g s₁ s → T.seen s → T.may g c ∧
      ∀ client ∈ T.clients, (next (client c s).1).Obeys T Q (T.track g c (client c s).1) s
        (client c s).2

section Rules
variable {T : Terms I σ γ} {Q Q' : Except Error α → γ → σ → σ → Prop} {g : γ} {s₀ s₁ : σ}

@[simp] theorem obeys_done (a : α) :
    (done a : Session I α).Obeys T Q g s₀ s₁ ↔ Q (.ok a) g s₀ s₁ := Iff.rfl

@[simp] theorem obeys_fail (e : Error) :
    (fail e : Session I α).Obeys T Q g s₀ s₁ ↔ Q (.error e) g s₀ s₁ := Iff.rfl

@[simp] theorem obeys_note (entry : Log.Entry) (s : Session I α) :
    (note entry s).Obeys T Q g s₀ s₁ ↔ s.Obeys T Q g s₀ s₁ := Iff.rfl

@[simp] theorem obeys_amend (change : Context → Context) (s : Session I α) :
    (amend change s).Obeys T Q g s₀ s₁ ↔ s.Obeys T Q g s₀ s₁ := Iff.rfl

@[simp] theorem obeys_ofExcept (r : Except Error α) :
    (ofExcept r : Session I α).Obeys T Q g s₀ s₁ ↔ Q r g s₀ s₁ := by
  cases r <;> rfl

theorem Obeys.mono {s : Session I α} (h : s.Obeys T Q g s₀ s₁)
    (hQ : ∀ r g s₀ s₁, Q r g s₀ s₁ → Q' r g s₀ s₁) :
    s.Obeys T Q' g s₀ s₁ := by
  induction s generalizing g s₀ s₁ with
  | done | fail => exact hQ _ _ _ _ h
  | note _ _ ih | amend _ _ ih => exact ih h
  | call c next ih =>
    exact ⟨h.1, fun s he hs => ⟨(h.2 s he hs).1, fun client hc => ih _ ((h.2 s he hs).2 client hc)⟩⟩

/-- A sequence obeys when its first part ends where the second may start. -/
theorem obeys_bind {Q : Except Error β → γ → σ → σ → Prop} (s : Session I α) (k : α → Session I β) :
    (s.bind k).Obeys T Q g s₀ s₁ ↔
      s.Obeys T (fun r g s₀ s₁ => match r with
        | .ok a => (k a).Obeys T Q g s₀ s₁
        | .error e => Q (.error e) g s₀ s₁) g s₀ s₁ := by
  induction s generalizing g s₀ s₁ with
  | done | fail => rfl
  | note _ _ ih | amend _ _ ih => exact ih
  | call c next ih => simp only [Session.bind, Obeys, ih]

theorem obeys_rescue (answers : Error → Bool) (handler : Error → Session I α) (s : Session I α) :
    (s.rescue answers handler).Obeys T Q g s₀ s₁ ↔
      s.Obeys T (fun r g s₀ s₁ => match r with
        | .ok a => Q (.ok a) g s₀ s₁
        | .error e =>
          if answers e then (handler e).Obeys T Q g s₀ s₁ else Q (.error e) g s₀ s₁) g s₀ s₁ := by
  induction s generalizing g s₀ s₁ with
  | done => rfl
  | fail e =>
    simp only [rescue, obeys_fail]
    split <;> simp_all
  | note _ _ ih | amend _ _ ih => exact ih
  | call c next ih => simp only [rescue, Obeys, ih]

theorem obeys_ask (c : I.Call) (Q : Except Error (I.Reply c) → γ → σ → σ → Prop) :
    (ask c).Obeys T Q g s₀ s₁ ↔ T.silent s₀ s₁ ∧ ∀ s, T.env g s₁ s → T.seen s → T.may g c ∧
    ∀ client ∈ T.clients,
      Q ((client c s).1.mapError .fault) (T.track g c (client c s).1) s (client c s).2 := by
  simp only [ask, Obeys]
  refine and_congr_right fun _ => forall_congr' fun s => imp_congr_right fun _ =>
    imp_congr_right fun _ =>
    and_congr_right fun _ => forall_congr' fun client => imp_congr_right fun _ => ?_
  cases (client c s).1 <;> rfl

/-- The result of a session that has no call left. -/
def result? : Session I α → Option (Except Error α)
  | done a => some (.ok a)
  | fail e => some (.error e)
  | note _ next => next.result?
  | amend _ next => next.result?
  | call .. => none

theorem result?_bind (s : Session I α) (k : α → Session I β) (h : s.result? = none) :
    (s.bind k).result? = none := by
  induction s with
  | done | fail => cases h
  | note _ _ ih | amend _ _ ih => exact ih h
  | call => rfl

theorem result?_rescue (answers : Error → Bool) (handler : Error → Session I α) {s : Session I α}
    (h : s.result? = none) : (s.rescue answers handler).result? = none := by
  induction s with
  | done | fail => cases h
  | note _ _ ih | amend _ _ ih => exact ih h
  | call => rfl

theorem Obeys.of_result {session : Session I α} {r : Except Error α} (h : session.Obeys T Q g s₀ s₁)
    (hr : session.result? = some r) : Q r g s₀ s₁ := by
  induction session with
  | done | fail => cases hr; exact h
  | note _ _ ih | amend _ _ ih => exact ih h hr
  | call => cases hr

theorem Obeys.silent {session : Session I α} (h : session.Obeys T Q g s₀ s₁)
    (hr : session.result? = none) :
    T.silent s₀ s₁ := by
  induction session with
  | done | fail => cases hr
  | note _ _ ih | amend _ _ ih => exact ih h hr
  | call => exact h.1

end Rules

/-! ### Alone on the store -/

/-- The session can run from one store to another and end in a result, every call answered by one of
the clients. -/
inductive Exec (clients : Set (Client I σ)) : Session I α → σ → Except Error α → σ → Prop
  | done (a : α) (s : σ) : Exec clients (.done a) s (.ok a) s
  | fail (e : Error) (s : σ) : Exec clients (.fail e) s (.error e) s
  | note {entry : Log.Entry} {next : Session I α} {s s' : σ} {r : Except Error α}
    (h : Exec clients next s r s') :
    Exec clients (.note entry next) s r s'
  | amend {change : Context → Context} {next : Session I α} {s s' : σ} {r : Except Error α}
    (h : Exec clients next s r s') : Exec clients (.amend change next) s r s'
  | call {c : I.Call} {next : Except Fault (I.Reply c) → Session I α} {s s' : σ}
    {r : Except Error α}
    {client : Client I σ} (hc : client ∈ clients)
      (h : Exec clients (next (client c s).1) (client c s).2 r s') :
    Exec clients (.call c next) s r s'

section Exec
variable {clients : Set (Client I σ)} {s s' : σ}

theorem exec_run {client : Client I σ} (hc : client ∈ clients) (session : Session I α) (s : σ)
    (c : Context) :
    Exec clients session s (session.run client s c).result (session.run client s c).store := by
  induction session generalizing s c with
  | done a => exact .done a s
  | fail e => exact .fail e s
  | note _ _ ih => exact .note (ih s c)
  | amend change _ ih => exact .amend (ih s (change c))
  | call q _ ih => exact .call hc (ih _ _ c)

theorem Exec.mono {clients' : Set (Client I σ)} (hC : clients ⊆ clients') {session : Session I α}
    {r : Except Error α} (h : Exec clients session s r s') : Exec clients' session s r s' := by
  induction h with
  | done a s => exact .done a s
  | fail e s => exact .fail e s
  | note _ ih => exact .note ih
  | amend _ ih => exact .amend ih
  | call hc _ ih => exact .call (hC hc) ih

section Inversion
variable {session : Session I α} {r : Except Error α}

@[simp] theorem exec_done_iff {a : α} : Exec clients (.done a) s r s' ↔ r = .ok a ∧ s' = s := by
  constructor
  · rintro ⟨⟩; exact ⟨rfl, rfl⟩
  · rintro ⟨rfl, rfl⟩; exact .done a s'

@[simp] theorem exec_fail_iff {e : Error} :
    Exec clients (.fail e : Session I α) s r s' ↔ r = .error e ∧ s' = s := by
  constructor
  · rintro ⟨⟩; exact ⟨rfl, rfl⟩
  · rintro ⟨rfl, rfl⟩; exact .fail e s'

@[simp] theorem exec_note_iff {entry : Log.Entry} :
    Exec clients (.note entry session) s r s' ↔ Exec clients session s r s' :=
  ⟨by rintro ⟨⟩; assumption, .note⟩

@[simp] theorem exec_amend_iff {change : Context → Context} :
    Exec clients (.amend change session) s r s' ↔ Exec clients session s r s' :=
  ⟨by rintro ⟨⟩; assumption, .amend⟩

end Inversion

/-- A sequence runs as its first part, and from where that ended as the second. -/
theorem Exec.of_bind {session : Session I α} {k : α → Session I β} {r : Except Error β}
    (h : Exec clients (session.bind k) s r s') :
    (∃ a t, Exec clients session s (.ok a) t ∧ Exec clients (k a) t r s') ∨
      ∃ e, Exec clients session s (.error e) s' ∧ r = .error e := by
  induction session generalizing s with
  | done a => exact .inl ⟨a, _, .done a _, h⟩
  | fail e => cases h; exact .inr ⟨e, .fail e _, rfl⟩
  | note entry next ih =>
    cases h with
    | note h =>
      rcases ih h with ⟨a, t, h1, h2⟩ | ⟨e, h1, h2⟩
      · exact .inl ⟨a, t, .note h1, h2⟩
      · exact .inr ⟨e, .note h1, h2⟩
  | amend change next ih =>
    cases h with
    | amend h =>
      rcases ih h with ⟨a, t, h1, h2⟩ | ⟨e, h1, h2⟩
      · exact .inl ⟨a, t, .amend h1, h2⟩
      · exact .inr ⟨e, .amend h1, h2⟩
  | call c next ih =>
    cases h with
    | call hc h =>
      rcases ih _ h with ⟨a, t, h1, h2⟩ | ⟨e, h1, h2⟩
      · exact .inl ⟨a, t, .call hc h1, h2⟩
      · exact .inr ⟨e, .call hc h1, h2⟩

end Exec

/-! ### Sound terms -/

namespace Terms

/-- Terms that a session can keep. -/
structure Sound (T : Terms I σ γ) : Prop where
  env_refl : ∀ {g s}, T.good s → T.owns g s → T.env g s s
  silent_refl : ∀ s, T.silent s s
  silent_trans : ∀ {s s' s''}, T.silent s s' → T.silent s' s'' → T.silent s s''
  good_step : ∀ {g s c client}, T.good s → T.owns g s → T.may g c → client ∈ T.clients →
    T.good (client c s).2
  owns_step : ∀ {g s c client}, T.good s → T.owns g s → T.may g c → client ∈ T.clients →
    T.owns (T.track g c (client c s).1) (client c s).2
  owns_idle : ∀ {s}, T.good s → T.owns T.idle s

/-- Terms that sessions can keep towards each other. -/
structure Fair (T : Terms I σ γ) : Prop extends Sound T where
  env_trans : ∀ {g s s' s''}, T.env g s s' → T.env g s' s'' → T.env g s s''
  /-- What one session does is within what another one expects. -/
  env_step : ∀ {g g' s c client}, T.good s → T.owns g s → T.owns g' s → T.apart g g' → T.may g c →
    client ∈ T.clients → T.env g' s (client c s).2 ∧ T.owns g' (client c s).2
  apart_step : ∀ {g g' s c client}, T.good s → T.owns g s → T.owns g' s → T.apart g g' → T.may g c →
    client ∈ T.clients → T.apart (T.track g c (client c s).1) g'
  apart_symm : ∀ {g g'}, T.apart g g' → T.apart g' g
  apart_idle : T.apart T.idle T.idle

/-- A change of the store from outside that every session has to expect. -/
structure Admits (T : Terms I σ γ) (s s' : σ) : Prop where
  owns : ∀ {g}, T.good s → T.owns g s → T.owns g s'
  env : ∀ {g}, T.good s → T.owns g s → T.env g s s'

end Terms

/-! ### Plain terms -/

/-- Terms without tokens. No call before the last changes the store, and the others change it only
under contention. -/
def Terms.plain (client : Client I σ) (may : I.Call → Prop) (good : σ → Prop) (contention : Prop) :
    Terms I σ Unit where
  clients := {client}
  track := fun g _ _ => g
  may := fun _ c => may c
  env := fun _ s s' => good s' ∧ (¬contention → s' = s)
  seen := fun _ => True
  silent := fun s s' => s' = s
  good := good
  owns := fun _ _ => True
  apart := fun _ _ => True
  idle := ()

section Plain
variable {client : Client I σ} {may : I.Call → Prop} {good : σ → Prop} {contention : Prop}
    {g : Unit} {s₀ s₁ : σ}

theorem obeys_call_plain {Q : Except Error α → Unit → σ → σ → Prop} {c : I.Call}
    {next : Except Fault (I.Reply c) → Session I α} (hs : s₁ = s₀)
    (h : ∀ s, good s → (¬contention → s = s₁) →
      may c ∧ (next (client c s).1).Obeys (.plain client may good contention) Q g s
        (client c s).2) :
    (call c next).Obeys (.plain client may good contention) Q g s₀ s₁ := by
  refine ⟨hs, ?_⟩
  rintro s ⟨hg, hc⟩ -
  obtain ⟨hmay, hnext⟩ := h s hg hc
  refine ⟨hmay, ?_⟩
  rintro _ rfl
  exact hnext

theorem obeys_ask_plain {c : I.Call} {Q : Except Error (I.Reply c) → Unit → σ → σ → Prop}
    (hs : s₁ = s₀) (h : ∀ s, good s → (¬contention → s = s₁) → may c ∧
      Q ((client c s).1.mapError .fault) g s (client c s).2) :
    (ask c).Obeys (.plain client may good contention) Q g s₀ s₁ := by
  refine obeys_call_plain hs fun s hg hc => ?_
  obtain ⟨hmay, hQ⟩ := h s hg hc
  refine ⟨hmay, ?_⟩
  generalize client c s = answer at hQ ⊢
  obtain ⟨reply | f, s'⟩ := answer <;> exact hQ

namespace Terms

theorem plain_sound (h : ∀ {s c}, good s → may c → good (client c s).2) :
    (plain client may good contention).Sound where
  env_refl := fun hg _ => ⟨hg, fun _ => rfl⟩
  silent_refl := fun _ => rfl
  silent_trans := fun h h' => Eq.trans h' h
  good_step := by rintro g s c _ hg - hmay rfl; exact h hg hmay
  owns_step := fun _ _ _ _ => trivial
  owns_idle := fun _ => trivial

theorem plain_fair (h : ∀ {s c}, good s → may c → good (client c s).2) :
    (plain client may good True).Fair where
  toSound := plain_sound h
  env_trans := fun _ h' => ⟨h'.1, fun hn => absurd trivial hn⟩
  env_step := by
    rintro g g' s c _ hg - - - hmay rfl
    exact ⟨⟨h hg hmay, fun hn => absurd trivial hn⟩, trivial⟩
  apart_step := fun _ _ _ _ _ _ => trivial
  apart_symm := fun _ => trivial
  apart_idle := trivial

theorem plain_admits {s s' : σ} (h : good s → good s') :
    (plain client may good True).Admits s s' where
  owns := fun _ _ => trivial
  env := fun hg _ => ⟨h hg, fun hn => absurd trivial hn⟩

end Terms

end Plain

/-- An obedient session that runs alone: up to its last call nothing changes, and its result is
allowed by the store around that call. -/
theorem Obeys.exec {T : Terms I σ γ} {Q : Except Error α → γ → σ → σ → Prop} (F : T.Sound)
    (hseen : ∀ s, T.seen s) {session : Session I α} {g : γ} {s₀ s s' : σ} {r : Except Error α}
    (h : session.Obeys T Q g s₀ s) (hg : T.good s) (ho : T.owns g s)
    (hx : Exec T.clients session s r s') :
    T.good s' ∧ ∃ g' t, T.silent s₀ t ∧ T.owns g' s' ∧ Q r g' t s' := by
  induction hx generalizing g s₀ with
  | done a s => exact ⟨hg, g, s₀, F.silent_refl s₀, ho, h⟩
  | fail e s => exact ⟨hg, g, s₀, F.silent_refl s₀, ho, h⟩
  | note _ ih => exact ih h hg ho
  | amend _ ih => exact ih h hg ho
  | @call c next s s' r client hc _ ih =>
    obtain ⟨hsil, h⟩ := h
    obtain ⟨hmay, h⟩ := h s (F.env_refl hg ho) (hseen s)
    obtain ⟨hg', g', t, ht, ho', hQ⟩ :=
      ih (h client hc) (F.good_step hg ho hmay hc) (F.owns_step hg ho hmay hc)
    exact ⟨hg', g', t, F.silent_trans hsil ht, ho', hQ⟩

end Leasehold.Session
