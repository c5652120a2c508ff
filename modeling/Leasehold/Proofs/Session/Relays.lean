import Leasehold.Proofs.Session.Ensures

/-!
# Sessions that relay their calls

A session relays calls when it makes just these in their order, and nothing but one that fails can
end it early, and then at once (`Relays`). How it ends can be told from the calls that it has made
(`Relays.run`): they were all served, or the last one failed and its fault is the error. Nothing is
asked of the client.
-/

namespace Leasehold.Session
variable {I : Interface} {σ α β : Type}

/-- When the calls are all served the session ends in a `P`. The first one that fails ends it, in
what `wrap` makes of the fault. -/
def Relays (P : α → Prop) (wrap : Fault → Error) : Session I α → List I.Call → Prop
  | done a, calls => calls = [] ∧ P a
  | fail _, _ => False
  | note _ next, calls => next.Relays P wrap calls
  | amend _ next, calls => next.Relays P wrap calls
  | call c next, calls =>
    ∃ later, calls = c :: later ∧ (∀ reply, (next (.ok reply)).Relays P wrap later) ∧
    ∀ f, next (.error f) = fail (wrap f)

/-- No call failed. -/
def Smooth (steps : List (Step I)) : Prop := ∀ step ∈ steps, ∀ f, step.2 ≠ .error f

/-- How such a session ends, after which of the calls. -/
inductive Relayed (P : α → Prop) (wrap : Fault → Error) (calls : List I.Call) :
    List (Step I) → Except Error α → Prop
  | answered {steps : List (Step I)} {a : α} (hs : Smooth steps)
    (hc : steps.map Sigma.fst = calls) (ha : P a) :
    Relayed P wrap calls steps (.ok a)
  | broken {steps : List (Step I)} {c : I.Call} {f : Fault} (hs : Smooth steps)
      (hc : steps.map Sigma.fst ++ [c] <+: calls) : Relayed P wrap calls (steps ++ [⟨c, .error f⟩])
        (.error (wrap f))

theorem smooth_nil : Smooth ([] : List (Step I)) := nofun

theorem Smooth.concat {steps : List (Step I)} {c : I.Call} {reply : I.Reply c} (h : Smooth steps) :
    Smooth (steps ++ [⟨c, .ok reply⟩]) := by
  intro step hm
  rcases List.mem_append.mp hm with hm | hm
  · exact h step hm
  · rw [List.mem_singleton.mp hm]
    rintro f ⟨⟩

namespace Relays
variable {P : α → Prop} {wrap : Fault → Error} {session : Session I α} {calls : List I.Call}

/-- The run of such a session, in front of which some calls have been served already. -/
theorem run (h : session.Relays P wrap calls) (client : Client I σ) {steps : List (Step I)}
    (hs : Smooth steps) (s : σ) (context : Context) : Relayed P wrap (steps.map Sigma.fst ++ calls)
      (session.run (recorded client) (s, steps) context).store.2
      (session.run (recorded client) (s, steps) context).result := by
  induction session generalizing calls s steps context with
  | done a =>
    obtain ⟨rfl, ha⟩ := h
    exact .answered hs (List.append_nil _).symm ha
  | fail e => exact h.elim
  | note entry next ih => exact ih h hs s context
  | amend change next ih => exact ih h hs s (change context)
  | call c next ih =>
    obtain ⟨later, rfl, hserved, hfailed⟩ := h
    simp only [Session.run, recorded]
    cases (client c s).1 with
    | ok reply =>
      have hsteps : Smooth (steps ++ [⟨c, .ok reply⟩]) := hs.concat
      have hrun := ih (.ok reply) (hserved reply) hsteps (client c s).2 context
      rwa [List.map_append, List.append_assoc] at hrun
    | error f =>
      rw [hfailed f]
      exact .broken hs (List.prefix_append_right_inj _ |>.mpr ⟨later, rfl⟩)

theorem bind {Q : β → Prop} {k : α → Session I β} {later : List I.Call}
    (h : session.Relays P wrap calls) (hk : ∀ a, P a → (k a).Relays Q wrap later) :
    (session.bind k).Relays Q wrap (calls ++ later) := by
  induction session generalizing calls with
  | done a =>
    obtain ⟨rfl, ha⟩ := h
    exact hk a ha
  | fail e => exact h.elim
  | note entry next ih => exact ih h
  | amend change next ih => exact ih h
  | call c next ih =>
    obtain ⟨calls, rfl, hserved, hfailed⟩ := h
    exact ⟨calls ++ later, rfl, fun reply => ih _ (hserved reply),
      fun f => congrArg (Session.bind · k) (hfailed f)⟩

theorem map {Q : β → Prop} {f : α → β} (h : session.Relays P wrap calls) (hf : ∀ a, P a → Q (f a)) :
    (f <$> session).Relays Q wrap calls :=
  List.append_nil calls ▸ h.bind (k := fun a => done (f a)) fun a ha => ⟨rfl, hf a ha⟩

theorem ask (c : I.Call) : (ask c).Relays (fun _ => True) .fault [c] :=
  ⟨[], rfl, fun _ => ⟨rfl, trivial⟩, fun _ => rfl⟩

theorem rescue {g : Error → Error} (h : session.Relays P .fault calls) :
    (session.rescue (fun _ => true) fun e => fail (g e)).Relays P
      (fun f => g (.fault f)) calls := by
  induction session generalizing calls with
  | done a => exact h
  | fail e => exact h.elim
  | note entry next ih => exact ih h
  | amend change next ih => exact ih h
  | call c next ih =>
    obtain ⟨later, rfl, hserved, hfailed⟩ := h
    exact ⟨later, rfl, fun reply => ih _ (hserved reply),
      fun f => congrArg (Session.rescue (fun _ => true) fun e => fail (g e)) (hfailed f)⟩

end Relays

end Leasehold.Session
