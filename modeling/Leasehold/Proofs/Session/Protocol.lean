import Leasehold.Proofs.Session.Interference
import Leasehold.Proofs.Session.Pool

/-!
# Sessions that keep a protocol

A `Protocol` is a machine that runs along with a session: it says which calls may come next, and how
a reply moves it on. `session.Follows P Q` says that the session makes no other calls, whatever it
is replied, and ends in a result that `Q` allows where the machine stands then. No store is
mentioned in that, so it is proved once for a session and holds in any company: amid others
(`Follows.interfered`), and for each of the sessions of a pool (`Pool.follows_play`).

For a pool the calls of all are kept in a `History`. `HistoryOf` says which are those of sessions
that follow protocols, and what is to be shown of every interleaving is shown by induction on them.
-/

namespace Leasehold.Session
variable {I : Interface} {σ α β ℓ ℓ' ι : Type}

/-- The call with its reply. -/
def Exchange.step (m : Exchange I σ) : Step I := ⟨m.call, m.reply⟩

structure Protocol (I : Interface) (ℓ : Type) where
  start : ℓ
  may : ℓ → I.Call → Prop
  next : ℓ → (c : I.Call) → Except Fault (I.Reply c) → ℓ

namespace Protocol
variable (P : Protocol I ℓ)

/-- Where the machine stands after some calls. -/
def after (steps : List (Step I)) : ℓ := steps.foldl (fun l step => P.next l step.1 step.2) P.start

@[simp] theorem after_concat (steps : List (Step I)) (step : Step I) :
    P.after (steps ++ [step]) = P.next (P.after steps) step.1 step.2 := by
  rw [after, List.foldl_append]; rfl

/-- Calls that the machine admits one after the other. -/
inductive Allows : List (Step I) → Prop
  | nil : Allows []
  | concat {steps : List (Step I)} {step : Step I} (h : Allows steps)
    (hmay : P.may (P.after steps) step.1) :
    Allows (steps ++ [step])

/-- The terms of a protocol. Of the store nothing is known. -/
def terms : Terms I Unit ℓ where
  clients := Set.univ
  track := P.next
  may := P.may
  env := fun _ _ _ => True
  seen := fun _ => True
  silent := fun _ _ => True
  good := fun _ => True
  owns := fun _ _ => True
  apart := fun _ _ => True
  idle := P.start

/-- Machine `P'` goes along with `P` and stands at `f l` where `P` stands at `l`. -/
structure Along (P : Protocol I ℓ) (P' : Protocol I ℓ') (f : ℓ → ℓ') : Prop where
  start : f P.start = P'.start
  may : ∀ {l c}, P.may l c → P'.may (f l) c
  next : ∀ {l c} reply, P.may l c → f (P.next l c reply) = P'.next (f l) c reply

end Protocol

/-- The session keeps the protocol from `l` on, and ends in a result that `Q` allows. -/
def Follows (P : Protocol I ℓ) (Q : Except Error α → ℓ → Prop) (session : Session I α)
    (l : ℓ) : Prop :=
  session.Obeys P.terms (fun r l _ _ => Q r l) l () ()

section Rules
variable {P : Protocol I ℓ} {Q Q' : Except Error α → ℓ → Prop} {session : Session I α} {l : ℓ}

theorem follows_fail {e : Error} : (fail e : Session I α).Follows P Q l ↔ Q (.error e) l := Iff.rfl

theorem Follows.may {c : I.Call} {next : Except Fault (I.Reply c) → Session I α}
    (h : (call c next).Follows P Q l) :
    P.may l c :=
  (h.2 () trivial trivial).1

theorem Follows.next {c : I.Call} {next : Except Fault (I.Reply c) → Session I α}
    (h : (call c next).Follows P Q l) (client : Client I σ) (s : σ) :
    (next (client c s).1).Follows P Q (P.next l c (client c s).1) :=
  (h.2 () trivial trivial).2 (fun c _ => ((client c s).1, ())) trivial

theorem Follows.mono (h : session.Follows P Q l) (hQ : ∀ r l, Q r l → Q' r l) :
    session.Follows P Q' l :=
  Obeys.mono h fun r l _ _ => hQ r l

theorem follows_bind {Q : Except Error β → ℓ → Prop} {k : α → Session I β} :
    (session.bind k).Follows P Q l ↔ session.Follows P (fun r l => match r with
      | .ok a => (k a).Follows P Q l
      | .error e => Q (.error e) l) l :=
  obeys_bind session k

theorem follows_rescue {answers : Error → Bool} {handler : Error → Session I α} :
    (session.rescue answers handler).Follows P Q l ↔ session.Follows P (fun r l => match r with
      | .ok a => Q (.ok a) l
      | .error e => if answers e then (handler e).Follows P Q l else Q (.error e) l) l :=
  obeys_rescue answers handler session

theorem follows_ask {c : I.Call} {Q : Except Error (I.Reply c) → ℓ → Prop} (hmay : P.may l c)
    (h : ∀ reply : Except Fault (I.Reply c), Q (reply.mapError .fault) (P.next l c reply)) :
    (ask c).Follows P Q l :=
  (obeys_ask c _).mpr ⟨trivial, fun _ _ _ => ⟨hmay, fun _ _ => h _⟩⟩

theorem follows_of_result {r : Except Error α} (hr : session.result? = some r) :
    session.Follows P Q l ↔ Q r l := by
  induction session with
  | done | fail => cases hr; rfl
  | note _ _ ih | amend _ _ ih => exact ih hr
  | call => cases hr

theorem Follows.ended (h : session.Follows P Q l) (hl : ∀ c, ¬ P.may l c) :
    ∃ r, session.result? = some r ∧ Q r l := by
  induction session with
  | done a => exact ⟨.ok a, rfl, h⟩
  | fail e => exact ⟨.error e, rfl, h⟩
  | note _ _ ih | amend _ _ ih => exact ih h
  | call c next => exact absurd h.may (hl c)

theorem Follows.turn (h : session.Follows P Q l) (hr : session.result? = none)
    (client : Client I σ) (s : σ) :
    ∃ c, P.may l c ∧ (session.turn client false s).2 = (client c s).2 ∧
      (session.turn client false s).1.Follows P Q (P.next l c (client c s).1) := by
  induction session with
  | done | fail => cases hr
  | note _ _ ih | amend _ _ ih => exact ih h hr
  | call c next => exact ⟨c, h.may, rfl, h.next client s⟩

theorem Follows.along {P' : Protocol I ℓ'} {f : ℓ → ℓ'} (hf : P.Along P' f)
    (h : session.Follows P Q l) :
    session.Follows P' (fun r l' => ∃ l, l' = f l ∧ Q r l) (f l) := by
  induction session generalizing l with
  | done | fail => exact ⟨l, rfl, h⟩
  | note _ _ ih | amend _ _ ih => exact ih h
  | call c next ih =>
    obtain ⟨hmay, hnext⟩ := h.2 () trivial trivial
    refine ⟨trivial, fun _ _ _ => ⟨hf.may hmay, fun client hc => ?_⟩⟩
    have hn := ih _ (hnext client hc)
    rw [show P.terms.track l c _ = P.next l c _ from rfl, hf.next _ hmay] at hn
    exact hn

theorem Follows.interfered {clients : Set (Client I σ)} {others : σ → σ → Prop} {s : σ}
    {ms : List (Exchange I σ)} (hms : P.Allows (ms.map Exchange.step))
    (h : session.Follows P Q (P.after (ms.map Exchange.step))) :
    Ensures (Session.interfered clients others) (fun r p => P.Allows (p.2.map Exchange.step) ∧
      Q r (P.after (p.2.map Exchange.step))) session (s, ms) := by
  induction session generalizing s ms with
  | done a => exact ensures_done.mpr ⟨hms, h⟩
  | fail e => exact ensures_fail.mpr ⟨hms, h⟩
  | note _ _ ih => exact ensures_note.mpr (ih hms h)
  | amend _ _ ih => exact ensures_amend.mpr (ih hms h)
  | call c next ih =>
    refine .call_interfered fun client _ t _ => ih _ ?_ ?_
    · rw [List.map_append]
      exact hms.concat h.may
    · rw [List.map_append, List.map_singleton, Protocol.after_concat]
      exact h.next client t

end Rules

/-! ### Histories -/

/-- All calls that were made on a store, with who made them. -/
abbrev History (I : Interface) (σ ι : Type) := List (ι × Exchange I σ)

/-- The client as it takes the calls of `i`, with the history beside the store. -/
def logged (client : Client I σ) (i : ι) : Client I (σ × History I σ ι) := fun c p =>
  ((client c p.1).1, (client c p.1).2, p.2 ++ [(i, exchange client c p.1)])

variable [DecidableEq ι]

/-- The calls of `i`. -/
def stepsOf (i : ι) (ms : History I σ ι) : List (Step I) := (ms.filter (·.1 = i)).map (·.2.step)

theorem stepsOf_concat_self (i : ι) (ms : History I σ ι) (m : Exchange I σ) :
    stepsOf i (ms ++ [(i, m)]) = stepsOf i ms ++ [m.step] := by
  simp [stepsOf]

theorem stepsOf_concat_of_ne {i j : ι} (h : j ≠ i) (ms : History I σ ι) (m : Exchange I σ) :
    stepsOf j (ms ++ [(i, m)]) = stepsOf j ms := by
  simp [stepsOf, h.symm]

/-- A call moves its maker's machine on, and no other. -/
theorem after_stepsOf_concat {Λ : ι → Type} {P : (i : ι) → Protocol I (Λ i)} (i : ι)
    (ms : History I σ ι) (m : Exchange I σ) : (fun j => (P j).after (stepsOf j (ms ++ [(i, m)]))) =
      Function.update (fun j => (P j).after (stepsOf j ms)) i
        ((P i).next ((P i).after (stepsOf i ms)) m.call m.reply) := by
  funext j
  by_cases hij : j = i
  · subst hij
    rw [stepsOf_concat_self, Protocol.after_concat, Function.update_self]
    rfl
  · rw [stepsOf_concat_of_ne hij, Function.update_of_ne hij]

/-- Histories of sessions that follow the protocols `P`, from store `s` to store `t`. -/
inductive HistoryOf {Λ : ι → Type} (P : (i : ι) → Protocol I (Λ i))
    (clients : Set (Client I σ)) (s : σ) :
    σ → History I σ ι → Prop
  | nil : HistoryOf P clients s s []
  | concat {t : σ} {ms : History I σ ι} {i : ι} {c : I.Call} {client : Client I σ}
    (h : HistoryOf P clients s t ms)
    (hc : client ∈ clients) (hmay : (P i).may ((P i).after (stepsOf i ms)) c) :
    HistoryOf P clients s (client c t).2 (ms ++ [(i, exchange client c t)])

section HistoryOf
variable {Λ Λ' : ι → Type} {P : (i : ι) → Protocol I (Λ i)} {clients : Set (Client I σ)} {s t : σ}
    {ms : History I σ ι}

theorem HistoryOf.allows (h : HistoryOf P clients s t ms) (i : ι) :
    (P i).Allows (stepsOf i ms) := by
  induction h with
  | nil => exact .nil
  | @concat t ms j c client _ _ hmay ih =>
    by_cases hij : i = j
    · subst hij; rw [stepsOf_concat_self]; exact ih.concat hmay
    · rw [stepsOf_concat_of_ne hij]; exact ih

theorem HistoryOf.mono {clients' : Set (Client I σ)} (hC : clients ⊆ clients')
    (h : HistoryOf P clients s t ms) :
    HistoryOf P clients' s t ms := by
  induction h with
  | nil => exact .nil
  | concat _ hc hmay ih => exact ih.concat (hC hc) hmay

theorem HistoryOf.along {P' : (i : ι) → Protocol I (Λ' i)} {f : (i : ι) → Λ i → Λ' i}
    (hf : ∀ i, (P i).Along (P' i) (f i)) (h : HistoryOf P clients s t ms) :
    HistoryOf P' clients s t ms ∧ ∀ i, (P' i).after (stepsOf i ms) = f i
      ((P i).after (stepsOf i ms)) := by
  induction h with
  | nil => exact ⟨.nil, fun i => (hf i).start.symm⟩
  | @concat t ms j c client _ hc hmay ih =>
    obtain ⟨ih, hafter⟩ := ih
    refine ⟨ih.concat hc (by rw [hafter]; exact (hf j).may hmay), fun i => ?_⟩
    by_cases hij : i = j
    · subst hij
      rw [stepsOf_concat_self, Protocol.after_concat, Protocol.after_concat, hafter]
      exact ((hf i).next _ hmay).symm
    · rw [stepsOf_concat_of_ne hij]; exact hafter i

end HistoryOf

namespace Pool

theorem sessions_step_self {client : Client I σ} {whole : Bool} {p : Pool I σ α ι} {i : ι} :
    (p.step client whole i).sessions i = ((p.sessions i).turn client whole p.store).1 := by
  simp only [step, Function.update_self]

/-- Single calls by turns. Each turn says whose it is and which client answers. -/
def play (p : Pool I (σ × History I σ ι) α ι) (turns : List (ι × Client I σ)) :
    Pool I (σ × History I σ ι) α ι :=
  turns.foldl (fun p turn => p.step (logged turn.2 turn.1) false turn.1) p

theorem play_concat (p : Pool I (σ × History I σ ι) α ι) (turns : List (ι × Client I σ))
    (turn : ι × Client I σ) :
    p.play (turns ++ [turn]) = (p.play turns).step (logged turn.2 turn.1) false turn.1 := by
  rw [play, List.foldl_append]; rfl

section Play
variable {Λ : ι → Type} {P : (i : ι) → Protocol I (Λ i)} {Q : (i : ι) → Except Error α → Λ i → Prop}
  {clients : Set (Client I σ)} {s : σ}

/-- Everybody follows a protocol, and is where the history says. Who is not finished has made a call
at every turn. -/
structure Following (P : (i : ι) → Protocol I (Λ i)) (Q : (i : ι) → Except Error α → Λ i → Prop)
    (clients : Set (Client I σ)) (s : σ) (turns : List (ι × Client I σ))
    (p : Pool I (σ × History I σ ι) α ι) : Prop where
  history : HistoryOf P clients s p.store.1 p.store.2
  follows : ∀ i, (p.sessions i).Follows (P i) (Q i) ((P i).after (stepsOf i p.store.2))
  turns : ∀ i, p.result? i = none → (stepsOf i p.store.2).length = turns.countP (·.1 = i)

theorem Following.start {sessions : ι → Session I α}
    (h : ∀ i, (sessions i).Follows (P i) (Q i) (P i).start) :
    Following P Q clients s [] ⟨(s, []), sessions⟩ where
  history := .nil
  follows := h
  turns := fun _ _ => rfl

theorem Following.step {turns : List (ι × Client I σ)} {p : Pool I (σ × History I σ ι) α ι}
    (h : Following P Q clients s turns p) {turn : ι × Client I σ} (hc : turn.2 ∈ clients) :
    Following P Q clients s (turns ++ [turn]) (p.step (logged turn.2 turn.1) false turn.1) := by
  obtain ⟨i, client⟩ := turn
  have hcount {j : ι} (hj : j ≠ i) : (turns ++ [(i, client)]).countP (·.1 = j) = turns.countP
    (·.1 = j) := by
    simp [hj.symm]
  cases hr : p.result? i with
  | some r =>
    obtain ⟨hs, hr'⟩ : (p.step (logged client i) false i).store = p.store ∧
        (p.step (logged client i) false i).result? i = some r := step_of_result hr
    have hself : Q i r ((P i).after (stepsOf i p.store.2)) :=
      (follows_of_result hr).mp (h.follows i)
    refine ⟨by rw [hs]; exact h.history, fun j => ?_, fun j hj => ?_⟩
    · rw [hs]
      by_cases hij : j = i
      · subst hij; exact (follows_of_result hr').mpr hself
      · rw [sessions_step_of_ne hij]; exact h.follows j
    · have hij : j ≠ i := by rintro rfl; rw [hr'] at hj; cases hj
      rw [result?_step_of_ne hij] at hj
      rw [hs, hcount hij, h.turns j hj]
  | none =>
    obtain ⟨c, hmay, hstore, hself⟩ := (h.follows i).turn hr (logged client i) p.store
    have hs : (p.step (logged client i) false i).store =
        ((client c p.store.1).2, p.store.2 ++ [(i, exchange client c p.store.1)]) := hstore
    refine ⟨by rw [hs]; exact h.history.concat hc hmay, fun j => ?_, fun j hj => ?_⟩
    · rw [hs]
      by_cases hij : j = i
      · subst hij
        rw [stepsOf_concat_self, Protocol.after_concat, sessions_step_self]
        exact hself
      · rw [stepsOf_concat_of_ne hij, sessions_step_of_ne hij]
        exact h.follows j
    · rw [hs]
      by_cases hij : j = i
      · subst hij
        rw [stepsOf_concat_self, List.length_append, h.turns j hr]
        simp
      · rw [result?_step_of_ne hij] at hj
        rw [stepsOf_concat_of_ne hij, hcount hij, h.turns j hj]

/-- Sessions that follow protocols still do after any turns. -/
theorem follows_play {sessions : ι → Session I α}
    (h : ∀ i, (sessions i).Follows (P i) (Q i) (P i).start) (turns : List (ι × Client I σ))
    (hc : ∀ turn ∈ turns, turn.2 ∈ clients) :
    Following P Q clients s turns (play ⟨(s, []), sessions⟩ turns) := by
  induction turns using List.reverseRecOn with
  | nil => exact .start h
  | append_singleton turns turn ih =>
    rw [play_concat]
    exact (ih fun t ht => hc t (List.mem_append_left _ ht)).step
      (hc turn (List.mem_append_right _ (.head _)))

end Play

end Pool

end Leasehold.Session
