import Leasehold.Error
import Leasehold.Log.Context
import Leasehold.Log.Entry

/-! # Sessions

A session is what an operation does, apart from any store: it asks a client for single calls, writes
log entries, changes the log context, and ends in an answer or an error. One session can be run
against a store at once, against a client that is told when to fail, or call by call between other
sessions. -/

namespace Leasehold

/-- The calls of a store client, and what each replies. -/
structure Interface where
  Call : Type
  Reply : Call → Type

/-- An operation on the client `I` that answers an `α`. -/
inductive Session (I : Interface) (α : Type) where
  | done (a : α)
  | fail (e : Error)
  /-- Writes a log entry. -/
  | note (entry : Log.Entry) (next : Session I α)
  /-- Changes the log context. -/
  | amend (change : Context → Context) (next : Session I α)
  /-- Makes a client call, which may fail. -/
  | call (c : I.Call) (next : Except Fault (I.Reply c) → Session I α)

namespace Session
variable {I : Interface} {α β : Type}

protected def bind : Session I α → (α → Session I β) → Session I β
  | done a, k => k a
  | fail e, _ => fail e
  | note entry next, k => note entry (next.bind k)
  | amend change next, k => amend change (next.bind k)
  | call c next, k => call c fun r => (next r).bind k

instance : Monad (Session I) where
  pure := done
  bind := Session.bind

/-- Runs `s`; an error that `answers` accepts leads on to `handler`. -/
def rescue (answers : Error → Bool) (handler : Error → Session I α) : Session I α → Session I α
  | done a => done a
  | fail e => if answers e then handler e else fail e
  | note entry next => note entry (next.rescue answers handler)
  | amend change next => amend change (next.rescue answers handler)
  | call c next => call c fun r => (next r).rescue answers handler

/-- Makes one call; a fault of the client ends the session. -/
def ask (c : I.Call) : Session I (I.Reply c) :=
  call c fun
    | .ok r => done r
    | .error f => fail (.fault f)

/-- Ends in what a check found. -/
def ofExcept : Except Error α → Session I α
  | .ok a => done a
  | .error e => fail e

/-- Goes on with what was read, unless reading failed. -/
def ofReading : Except Fault α → Session I α
  | .ok a => done a
  | .error f => fail (.fault f)

def log (entry : Log.Entry) : Session I Unit := note entry (done ())

def context (change : Context → Context) : Session I Unit := amend change (done ())

@[simp] theorem pure_eq_done (a : α) : (pure a : Session I α) = done a := rfl

@[simp] theorem bind_eq (s : Session I α) (k : α → Session I β) : s >>= k = s.bind k := rfl

@[simp] theorem bind_done (s : Session I α) : s.bind done = s := by
  induction s with
  | done | fail => rfl
  | note entry next ih => simp [Session.bind, ih]
  | amend change next ih => simp [Session.bind, ih]
  | call c next ih => simp [Session.bind, ih]

theorem bind_assoc {γ : Type} (s : Session I α) (k : α → Session I β) (j : β → Session I γ) :
    (s.bind k).bind j = s.bind fun a => (k a).bind j := by
  induction s with
  | done | fail => rfl
  | note entry next ih => simp [Session.bind, ih]
  | amend change next ih => simp [Session.bind, ih]
  | call c next ih => simp [Session.bind, ih]

/-- How a store in state `σ` takes the calls of a client. -/
abbrev Client (I : Interface) (σ : Type) := (c : I.Call) → σ → Except Fault (I.Reply c) × σ

/-- Everything that a run leaves behind. -/
structure Run (σ α : Type) where
  result : Except Error α
  store : σ
  context : Context
  log : List Log.Entry

/-- Runs a session to its end, with nothing between its calls. -/
def run {σ : Type} (client : Client I σ) : Session I α → σ → Context → Run σ α
  | done a, s, c => ⟨.ok a, s, c, []⟩
  | fail e, s, c => ⟨.error e, s, c, []⟩
  | note entry next, s, c =>
    let r := next.run client s c
    { r with log := entry :: r.log }
  | amend change next, s, c => next.run client s (change c)
  | call q next, s, c =>
    let (reply, s') := client q s
    (next reply).run client s' c

/-- The run of `r` and after it that of `next`, as one. -/
def Run.andThen {σ : Type} (r : Run σ α) (next : α → σ → Context → Run σ β) : Run σ β :=
  match r.result with
  | .ok a =>
    let after := next a r.store r.context
    { after with log := r.log ++ after.log }
  | .error e => { r with result := .error e }

theorem run_bind {σ : Type} (client : Client I σ) (s : Session I α) (k : α → Session I β) (st : σ)
    (c : Context) : (s.bind k).run client st c = (s.run client st c).andThen fun a => (k a).run client := by
  induction s generalizing st c with
  | done | fail => rfl
  | note entry next ih =>
    simp only [Session.bind, run, ih, Run.andThen]
    split <;> rfl
  | amend change next ih => simp only [Session.bind, run, ih]
  | call q next ih => simp only [Session.bind, run, ih]

/-- Runs sessions in turn, each to its end and from the same log context, which stays as it was.
Ends in all their answers, or in the error of the first that failed. -/
def runEach {σ : Type} (client : Client I σ) (context : Context) : List (Session I α) → σ → Run σ (List α)
  | [], s => ⟨.ok [], s, context, []⟩
  | session :: sessions, s =>
    let first := session.run client s context
    let others := runEach client context sessions first.store
    ⟨do return (← first.result) :: (← others.result), others.store, context, first.log ++ others.log⟩

end Session

end Leasehold
