import Leasehold.Proofs.Session.Terms
import Mathlib.Data.Set.Insert

/-!
# What every run ensures

`Ensures clients Q session s` says that however the calls of a session are answered by `clients`, it
ends in a result and a store that `Q` allows. It is a predicate transformer: the rules below push it
through a session, one rule for each way to put sessions together.

Trouble is a set of clients of which any call may fail instead (`troubled`). A failing call changes
nothing. `recorded` keeps the calls of a run with their replies beside the store.
-/

namespace Leasehold.Session
variable {I : Interface} {σ α β : Type}

theorem rescue_map (f : α → β) (answers : Error → Bool) (handler : Error → Session I α)
    (session : Session I α) :
    (session.rescue answers handler).bind (fun a => done (f a)) =
      (session.bind fun a => done (f a)).rescue answers fun e => (handler e).bind fun a =>
        done (f a) := by
  induction session with
  | done a => rfl
  | fail e => simp only [rescue, Session.bind]; split <;> rfl
  | note _ _ ih => simp only [rescue, Session.bind, ih]
  | amend _ _ ih => simp only [rescue, Session.bind, ih]
  | call _ _ ih => simp only [rescue, Session.bind, ih]

/-! ### Clients in trouble -/

/-- Every call fails with `f` and has no effect. -/
def failing (f : Fault) : Client I σ := fun _ s => (.error f, s)

/-- Any call may be answered by `clients`, or fail with a fault that `P` allows. -/
def troubled (clients : Set (Client I σ)) (P : Fault → Prop) : Set (Client I σ) :=
  {cl | cl ∈ clients ∨ ∃ f, P f ∧ cl = failing f}

theorem subset_troubled (clients : Set (Client I σ)) (P : Fault → Prop) :
    clients ⊆ troubled clients P :=
  fun _ h => .inl h

/-- A call with its reply. -/
abbrev Step (I : Interface) := (c : I.Call) × Except Fault (I.Reply c)

/-- The client, with a list of its calls beside the store. -/
def recorded (client : Client I σ) : Client I (σ × List (Step I)) := fun c s =>
  ((client c s.1).1, (client c s.1).2, s.2 ++ [⟨c, (client c s.1).1⟩])

theorem Exec.recorded {clients : Set (Client I σ)} {session : Session I α} {s s' : σ}
    {r : Except Error α} (h : Exec clients session s r s') (steps : List (Step I)) :
    ∃ steps', Exec (Session.recorded '' clients) session (s, steps) r (s', steps') := by
  induction h generalizing steps with
  | done a s => exact ⟨_, .done a _⟩
  | fail e s => exact ⟨_, .fail e _⟩
  | note _ ih => exact (ih steps).imp fun _ => .note
  | amend _ ih => exact (ih steps).imp fun _ => .amend
  | @call c next s s' r cl hcl _ ih =>
    obtain ⟨steps', hx⟩ := ih (steps ++ [⟨c, (cl c s).1⟩])
    exact ⟨steps', .call ⟨cl, hcl, rfl⟩ hx⟩

theorem Exec.of_recorded {clients : Set (Client I σ)} {P : Fault → Prop} {session : Session I α}
    {p p' : σ × List (Step I)} {r : Except Error α}
    (h : Exec (Session.recorded '' troubled clients P) session p r p')
    (hs : ∀ step ∈ p'.2, ∀ f, step.2 ≠ .error f) : Exec clients session p.1 r p'.1 := by
  -- steps are only added
  have later {session : Session I α} {p p' : σ × List (Step I)} {r : Except Error α}
      (h : Exec (Session.recorded '' troubled clients P) session p r p') : ∀ step ∈ p.2,
        step ∈ p'.2 := by
    induction h with
    | done | fail => exact fun _ => id
    | note _ ih | amend _ ih => exact ih
    | call hcl _ ih =>
      obtain ⟨cl, -, rfl⟩ := hcl
      exact fun step hm => ih step (List.mem_append_left _ hm)
  induction h with
  | done a => exact .done a _
  | fail e => exact .fail e _
  | note _ ih => exact .note (ih hs)
  | amend _ ih => exact .amend (ih hs)
  | @call c next p p' r cl hcl hx ih =>
    obtain ⟨cl, hcl | ⟨f, -, rfl⟩, rfl⟩ := hcl
    · exact .call hcl (ih hs)
    · have hm := later hx ⟨c, .error f⟩ (List.mem_append_right _ (List.mem_singleton_self _))
      exact absurd rfl (hs _ hm f)

theorem Exec.keeps {clients : Set (Client I σ)} {R : σ → σ → Prop} (hrefl : ∀ s, R s s)
    (htrans : ∀ {s t u}, R s t → R t u → R s u) (hcall : ∀ cl ∈ clients, ∀ c s, R s (cl c s).2)
    {session : Session I α} {s s' : σ} {r : Except Error α} (h : Exec clients session s r s') :
    R s s' := by
  induction h with
  | done | fail => exact hrefl _
  | note _ ih | amend _ ih => exact ih
  | call hcl _ ih => exact htrans (hcall _ hcl _ _) ih

/-! ### Rules -/

/-- However `clients` answer, the session ends in a result and a store that `Q` allows. -/
def Ensures (clients : Set (Client I σ)) (Q : Except Error α → σ → Prop) (session : Session I α)
    (s : σ) : Prop :=
  ∀ r s', Exec clients session s r s' → Q r s'

section Rules
variable {clients : Set (Client I σ)} {Q Q' : Except Error α → σ → Prop}
    {session : Session I α} {s : σ}

theorem Ensures.run (h : Ensures clients Q session s) {client : Client I σ} (hc : client ∈ clients)
    (c : Context) :
    Q (session.run client s c).result (session.run client s c).store :=
  h _ _ (exec_run hc session s c)

/-- A session that one client can only bring to one end gets there. -/
theorem Ensures.exec {client : Client I σ} {r : Except Error α} {s' : σ}
    (h : Ensures {client} (fun r' t => r' = r ∧ t = s') session s) :
    Exec {client} session s r s' := by
  obtain ⟨hr, hs⟩ := h.run (Set.mem_singleton client) []
  rw [← hr, ← hs]
  exact exec_run (Set.mem_singleton client) session s []

theorem ensures_exec : Ensures clients (Exec clients session s) session s := fun _ _ h => h

theorem Ensures.mono (h : Ensures clients Q session s) (hQ : ∀ r s', Q r s' → Q' r s') :
    Ensures clients Q' session s :=
  fun r s' hx => hQ r s' (h r s' hx)

theorem Ensures.of_subset {clients' : Set (Client I σ)} (hC : clients ⊆ clients')
    (h : Ensures clients' Q session s) :
    Ensures clients Q session s :=
  fun r s' hx => h r s' (hx.mono hC)

theorem Ensures.of_recorded
    (h : Ensures (recorded '' clients) (fun r p => Q r p.1) session (s, [])) :
    Ensures clients Q session s := by
  intro r s' hx
  obtain ⟨steps, hx⟩ := hx.recorded []
  exact h r (s', steps) hx

@[simp] theorem ensures_done {a : α} : Ensures clients Q (.done a) s ↔ Q (.ok a) s := by
  simp only [Ensures, exec_done_iff, and_imp, forall_eq_apply_imp_iff, forall_eq]

@[simp] theorem ensures_fail {e : Error} : Ensures clients Q (.fail e) s ↔ Q (.error e) s := by
  simp only [Ensures, exec_fail_iff, and_imp, forall_eq_apply_imp_iff, forall_eq]

@[simp] theorem ensures_note {entry : Log.Entry} :
    Ensures clients Q (.note entry session) s ↔ Ensures clients Q session s := by
  simp only [Ensures, exec_note_iff]

@[simp] theorem ensures_amend {change : Context → Context} :
    Ensures clients Q (.amend change session) s ↔ Ensures clients Q session s := by
  simp only [Ensures, exec_amend_iff]

theorem ensures_call {c : I.Call} {next : Except Fault (I.Reply c) → Session I α} :
    Ensures clients Q (.call c next) s ↔ ∀ cl ∈ clients, Ensures clients Q (next (cl c s).1)
      (cl c s).2 := by
  constructor
  · intro h cl hcl r s' hx
    exact h r s' (.call hcl hx)
  · intro h r s' hx
    cases hx with
    | call hcl hx => exact h _ hcl r s' hx

/-- A sequence ensures what its second part ensures from wherever the first one ends. -/
theorem ensures_bind {Q : Except Error β → σ → Prop} {k : α → Session I β} :
    Ensures clients Q (session.bind k) s ↔ Ensures clients (fun r t => match r with
      | .ok a => Ensures clients Q (k a) t
      | .error e => Q (.error e) t) session s := by
  induction session generalizing s with
  | done a => rw [ensures_done]; rfl
  | fail e => rw [ensures_fail]; exact ensures_fail
  | note _ _ ih => rw [ensures_note, ← ih]; exact ensures_note
  | amend _ _ ih => rw [ensures_amend, ← ih]; exact ensures_amend
  | call c next ih => simp only [Session.bind, ensures_call, ih]

theorem ensures_map {Q : Except Error β → σ → Prop} {f : α → β} :
    Ensures clients Q (session.bind fun a => .done (f a)) s ↔
    Ensures clients (fun r t => Q (r.map f) t) session s := by
  rw [ensures_bind]
  refine iff_of_eq (congrArg (Ensures clients · session s) (funext fun r => funext fun t => ?_))
  cases r with
  | ok a => exact propext ensures_done
  | error e => rfl

theorem ensures_rescue {answers : Error → Bool} {handler : Error → Session I α} :
    Ensures clients Q (session.rescue answers handler) s ↔ Ensures clients (fun r t => match r with
      | .ok a => Q (.ok a) t
      | .error e =>
        if answers e then Ensures clients Q (handler e) t else Q (.error e) t) session s := by
  induction session generalizing s with
  | done a => simp only [rescue, ensures_done]
  | fail e =>
    rw [ensures_fail, rescue]
    dsimp only
    split
    · rfl
    · exact ensures_fail
  | note _ _ ih => rw [ensures_note, ← ih]; exact ensures_note
  | amend _ _ ih => rw [ensures_amend, ← ih]; exact ensures_amend
  | call c next ih => simp only [rescue, ensures_call, ih]

@[simp] theorem ensures_ofReading {reading : Except Fault α} :
    Ensures clients Q (ofReading reading) s ↔ Q (reading.mapError .fault) s := by
  cases reading with
  | ok a => exact ensures_done
  | error f => exact ensures_fail

end Rules

@[simp] theorem troubled_false (clients : Set (Client I σ)) :
    troubled clients (fun _ => False) = clients := by
  ext cl
  simp only [troubled, Set.mem_ofPred_eq, false_and, exists_false, or_false]

section Troubled
variable {clients : Set (Client I σ)} {client : Client I σ} {P : Fault → Prop} {s : σ}

theorem forall_troubled {p : Client I σ → Prop} :
    (∀ cl ∈ troubled clients P, p cl) ↔ (∀ cl ∈ clients, p cl) ∧ ∀ f, P f → p (failing f) := by
  simp only [troubled, Set.mem_ofPred_eq, or_imp, forall_and, forall_exists_index, and_imp]
  refine and_congr_right fun _ => ⟨fun h f hf => h _ f hf rfl, ?_⟩
  rintro h _ f hf rfl
  exact h f hf

theorem ensures_call_troubled {Q : Except Error α → σ → Prop} {c : I.Call}
    {next : Except Fault (I.Reply c) → Session I α} :
    Ensures (troubled {client} P) Q (.call c next) s ↔
      Ensures (troubled {client} P) Q (next (client c s).1) (client c s).2 ∧
      ∀ f, P f → Ensures (troubled {client} P) Q (next (.error f)) s := by
  simp only [ensures_call, forall_troubled, Set.mem_singleton_iff, forall_eq, failing]

theorem ensures_ask {c : I.Call} {Q : Except Error (I.Reply c) → σ → Prop} :
    Ensures clients Q (ask c) s ↔ ∀ cl ∈ clients, Q ((cl c s).1.mapError .fault) (cl c s).2 := by
  rw [ask, ensures_call]
  refine forall_congr' fun cl => imp_congr_right fun _ => ?_
  cases (cl c s).1 with
  | ok a => exact ensures_done
  | error f => exact ensures_fail

theorem ensures_ask_troubled {c : I.Call} {Q : Except Error (I.Reply c) → σ → Prop} :
    Ensures (troubled {client} P) Q (ask c) s ↔
      Q ((client c s).1.mapError .fault) (client c s).2 ∧ ∀ f, P f → Q (.error (.fault f)) s := by
  rw [ensures_ask, forall_troubled]
  simp only [Set.mem_singleton_iff, forall_eq]
  rfl

theorem ensures_ask_bind {c : I.Call} {k : I.Reply c → Session I α}
    {Q : Except Error α → σ → Prop} :
    Ensures (troubled {client} P) Q ((ask c).bind k) s ↔ (match (client c s).1 with
      | .ok a => Ensures (troubled {client} P) Q (k a) (client c s).2
      | .error f => Q (.error (.fault f)) (client c s).2) ∧
      ∀ f, P f → Q (.error (.fault f)) s := by
  rw [ensures_bind, ensures_ask_troubled]
  refine and_congr_left fun _ => ?_
  cases (client c s).1 <;> rfl

theorem ensures_ask_client {c : I.Call} {k : I.Reply c → Session I α}
    {Q : Except Error α → σ → Prop} :
    Ensures {client} Q ((ask c).bind k) s ↔ match (client c s).1 with
      | .ok a => Ensures {client} Q (k a) (client c s).2
      | .error f => Q (.error (.fault f)) (client c s).2 := by
  rw [← troubled_false {client}, ensures_ask_bind]
  exact and_iff_left nofun

/-- One call, and its reply read: either the call fails, or the reading may. -/
theorem ensures_ask_reading {c : I.Call} {decode : I.Reply c → Except Fault β} {k : β → α}
    {Q : Except Error α → σ → Prop} :
    Ensures (troubled {client} P) Q
      ((ask c).bind fun reply => (ofReading (decode reply)).bind fun b => done (k b)) s ↔
      Q (((client c s).1.bind fun reply => (decode reply).map k).mapError .fault) (client c s).2 ∧
      ∀ f, P f → Q (.error (.fault f)) s := by
  rw [ensures_ask_bind]
  refine and_congr_left fun _ => ?_
  cases (client c s).1 with
  | error f => rfl
  | ok reply =>
    show Ensures _ Q _ _ ↔ Q (((decode reply).map k).mapError .fault) _
    cases decode reply <;> simp only [ofReading, Session.bind, ensures_done, ensures_fail] <;> rfl

end Troubled

end Leasehold.Session
