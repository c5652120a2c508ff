import Leasehold.Session

/-!
# What a run writes

`session.Writes P Q` says what a session leaves in the log and makes of the log context, whatever
store is behind its calls: however they are answered, as long as `P` allows the replies, `Q` holds
of the result, of the log entries and of the change of the context. As with `Ensures` there is a
rule for each way to put sessions together.
-/

namespace Leasehold.Session
variable {I : Interface} {α β : Type}

/-- `Q` holds of the result, the log entries and the change of the context, for all replies that `P`
allows. -/
def Writes (P : (c : I.Call) → Except Fault (I.Reply c) → Prop) :
    Session I α → (Except Error α → List Log.Entry → (Context → Context) → Prop) → Prop
  | done a, Q => Q (.ok a) [] id
  | fail e, Q => Q (.error e) [] id
  | note entry next, Q => next.Writes P fun r log f => Q r (entry :: log) f
  | amend change next, Q => next.Writes P fun r log f => Q r log (f ∘ change)
  | call c next, Q => ∀ reply, P c reply → (next reply).Writes P Q

section Rules
variable {P : (c : I.Call) → Except Fault (I.Reply c) → Prop}
  {Q Q' : Except Error α → List Log.Entry → (Context → Context) → Prop} {session : Session I α}

@[simp] theorem writes_done {a : α} : (done a : Session I α).Writes P Q ↔ Q (.ok a) [] id := Iff.rfl

@[simp] theorem writes_fail {e : Error} :
    (fail e : Session I α).Writes P Q ↔ Q (.error e) [] id := Iff.rfl

@[simp] theorem writes_note {entry : Log.Entry} :
    (note entry session).Writes P Q ↔ session.Writes P fun r log f =>
      Q r (entry :: log) f := Iff.rfl

@[simp] theorem writes_amend {change : Context → Context} :
    (amend change session).Writes P Q ↔ session.Writes P fun r log f =>
      Q r log (f ∘ change) := Iff.rfl

theorem Writes.run {σ : Type} {client : Client I σ} (h : session.Writes P Q)
    (hP : ∀ c s, P c (client c s).1) (s : σ) (c : Context) :
    ∃ f, Q (session.run client s c).result (session.run client s c).log f ∧
      (session.run client s c).context = f c := by
  induction session generalizing Q s c with
  | done a => exact ⟨id, h, rfl⟩
  | fail e => exact ⟨id, h, rfl⟩
  | note entry next ih => exact ih h s c
  | amend change next ih =>
    obtain ⟨f, hQ, hf⟩ := ih h s (change c)
    exact ⟨f ∘ change, hQ, hf⟩
  | call q next ih => exact ih _ (h _ (hP q s)) _ c

theorem Writes.mono (h : session.Writes P Q) (hQ : ∀ r log f, Q r log f → Q' r log f) :
    session.Writes P Q' := by
  induction session generalizing Q Q' with
  | done a => exact hQ _ _ _ h
  | fail e => exact hQ _ _ _ h
  | note entry next ih => exact ih h fun r log f => hQ r (entry :: log) f
  | amend change next ih => exact ih h fun r log f => hQ r log (f ∘ change)
  | call c next ih => exact fun reply hr => ih reply (h reply hr) hQ

/-- What the second part writes comes after what the first has written. -/
theorem writes_bind {k : α → Session I β}
    {Q : Except Error β → List Log.Entry → (Context → Context) → Prop} :
    (session.bind k).Writes P Q ↔ session.Writes P fun r log f => match r with
      | .ok a => (k a).Writes P fun r' log' g => Q r' (log ++ log') (g ∘ f)
      | .error e => Q (.error e) log f := by
  induction session generalizing Q with
  | done a => rfl
  | fail e => rfl
  | note entry next ih => exact ih
  | amend change next ih => exact ih
  | call c next ih => exact forall_congr' fun reply => imp_congr_right fun _ => ih reply

theorem writes_rescue {answers : Error → Bool} {handler : Error → Session I α} :
    (session.rescue answers handler).Writes P Q ↔ session.Writes P fun r log f => match r with
      | .ok a => Q (.ok a) log f
      | .error e =>
        if answers e then (handler e).Writes P fun r' log' g =>
          Q r' (log ++ log') (g ∘ f) else Q (.error e) log f := by
  induction session generalizing Q with
  | done a => rfl
  | fail e =>
    simp only [rescue, Writes]
    split <;> rfl
  | note entry next ih => exact ih
  | amend change next ih => exact ih
  | call c next ih => exact forall_congr' fun reply => imp_congr_right fun _ => ih reply

end Rules

end Leasehold.Session
