import Leasehold.Proofs.Session.Ensures

/-!
# Sessions amid others

What a session ensures when it is not alone: before each of its calls the others may have changed
the store. `interfered clients others` are the clients of such a session. They keep its exchanges
with the store: every call with what it found, what it was replied and what it left behind. So a
postcondition can speak of the instant of each call, although the store at the end is anybody's.
-/

namespace Leasehold.Session
variable {I : Interface} {σ α : Type}

/-- A call, with its reply and the store just before and just after it. -/
structure Exchange (I : Interface) (σ : Type) where
  call : I.Call
  before : σ
  reply : Except Fault (I.Reply call)
  after : σ

/-- The exchange when a client takes a call. -/
def exchange (client : Client I σ) (c : I.Call) (s : σ) :
    Exchange I σ := ⟨c, s, (client c s).1, (client c s).2⟩

/-- The client, after the others have made a change; the exchanges are kept beside the store. -/
def disturbed (client : Client I σ) (change : σ → σ) :
    Client I (σ × List (Exchange I σ)) := fun c p =>
  ((client c (change p.1)).1, (client c (change p.1)).2, p.2 ++ [exchange client c (change p.1)])

/-- Calls are answered by `clients`, after changes that `others` allows. -/
def interfered (clients : Set (Client I σ)) (others : σ → σ → Prop) :
    Set (Client I (σ × List (Exchange I σ))) :=
  {cl | ∃ client ∈ clients, ∃ change, (∀ s, others s (change s)) ∧ cl = disturbed client change}

section Rules
variable {clients : Set (Client I σ)} {others : σ → σ → Prop} {s : σ}
    {ms : List (Exchange I σ)} {c : I.Call}

theorem Ensures.call_interfered {next : Except Fault (I.Reply c) → Session I α}
    {Q : Except Error α → σ × List (Exchange I σ) → Prop}
    (h : ∀ client ∈ clients, ∀ t, others s t → Ensures (interfered clients others) Q
      (next (client c t).1) ((client c t).2, ms ++ [exchange client c t])) :
    Ensures (interfered clients others) Q (.call c next) (s, ms) := by
  rw [ensures_call]
  rintro _ ⟨client, hc, change, ho, rfl⟩
  exact h client hc (change s) (ho s)

theorem Ensures.ask_interfered {Q : Except Error (I.Reply c) → σ × List (Exchange I σ) → Prop}
    (h : ∀ client ∈ clients, ∀ t, others s t →
      Q ((client c t).1.mapError .fault) ((client c t).2, ms ++ [exchange client c t])) :
    Ensures (interfered clients others) Q (ask c) (s, ms) := by
  rw [ensures_ask]
  rintro _ ⟨client, hc, change, ho, rfl⟩
  exact h client hc (change s) (ho s)

theorem Exec.call_interfered {next : Except Fault (I.Reply c) → Session I α} {r : Except Error α}
    {p : σ × List (Exchange I σ)} {client : Client I σ} (hc : client ∈ clients) (change : σ → σ)
    (ho : ∀ s, others s (change s))
    (h : Exec (interfered clients others) (next (client c (change s)).1)
      ((client c (change s)).2, ms ++ [exchange client c (change s)]) r p) :
    Exec (interfered clients others) (.call c next) (s, ms) r p :=
  .call ⟨client, hc, change, ho, rfl⟩ h

theorem ensures_keeps {inv : σ × List (Exchange I σ) → Prop} {session : Session I α}
    (hcall : ∀ client ∈ clients, ∀ c s t ms, inv (s, ms) → others s t →
      inv ((client c t).2, ms ++ [exchange client c t])) (h : inv (s, ms)) :
    Ensures (interfered clients others) (fun _ p => inv p) session (s, ms) := by
  intro r p hx
  refine hx.keeps (R := fun p p' => inv p → inv p') (fun _ => id) (fun h h' hi => h' (h hi)) ?_ h
  rintro _ ⟨client, hc, change, ho, rfl⟩ c ⟨s, ms⟩ hi
  exact hcall client hc c s (change s) ms hi (ho s)

/-- The exchanges are those of the clients. -/
def AnsweredBy (clients : Set (Client I σ)) (ms : List (Exchange I σ)) : Prop :=
  ∀ m ∈ ms, ∃ client ∈ clients, m = exchange client m.call m.before

theorem ensures_answeredBy {session : Session I α} :
    Ensures (interfered clients others) (fun _ p => AnsweredBy clients p.2) session (s, []) := by
  refine ensures_keeps (fun client hc c s t ms hms _ m hm => ?_)
    fun _ hm => absurd hm List.not_mem_nil
  rcases List.mem_append.mp hm with hm | hm
  · exact hms m hm
  · rw [List.mem_singleton.mp hm]
    exact ⟨client, hc, rfl⟩

/-- A run with a client that does at every call what one of `clients` does. -/
theorem exec_run_of_agree {client : Client I σ}
    (hc : ∀ c s, ∃ client' ∈ clients, client c s = client' c s) (session : Session I α) (s : σ)
    (context : Context) :
    Exec clients session s (session.run client s context).result
      (session.run client s context).store := by
  induction session generalizing s context with
  | done a => exact .done a s
  | fail e => exact .fail e s
  | note _ _ ih => exact .note (ih s context)
  | amend change _ ih => exact .amend (ih s (change context))
  | call c next ih =>
    obtain ⟨client', hmem, he⟩ := hc c s
    refine .call hmem ?_
    rw [← he]
    exact ih _ _ context

end Rules

end Leasehold.Session
