import Leasehold.Session
import Leasehold.Lock.Claim
import Leasehold.Lock.Decision
import Leasehold.Lock.Answer

/-! # Lock services

A service keeps locks in one kind of store: it looks a record up, and decides acquisitions, renewals
and releases. `Service` holds what differs between stores; the checks before a decision and the
record of it in context and log are the same for all. Conflicts and failures of the store are
answers; only arguments that are missing are errors. -/

namespace Leasehold

/-- A lock service on the client `I`. A renewal answers the new record when it knows it. -/
structure Service (I : Interface) where
  name : String
  find : (realm name : String) → Session I (Option Lock)
  acquire : (claim : RawClaim) → (lease expiry now : Int) → Session I Outcome
  renew : (claim : RawClaim) → (delta now : Int) → Session I (Outcome × Option Lock)
  release : (claim : RawClaim) → (now : Int) → Session I Outcome

namespace Service
variable {I : Interface} (s : Service I)

/-- The log entry of a decision on `l`. -/
def decisionEntry (l : Lock) : Log.Entry :=
  ⟨.debug, "lock backend decision",
   [("lock_backend", .text s.name), ("lock_namespace", l.realm.getD .null),
     ("lock_name", l.name.getD .null)]⟩

/-- Records the outcome in context and log, and answers it. -/
def finish (l : Lock) (o : Outcome) : Session I Answer :=
  .amend (·.record o) (.note (s.decisionEntry l) (.done (Answer.ofOutcome l o)))

def getLock (realm name : Option String) : Session I (Option Lock) := do
  let _ ← Session.ofExcept (RawClaim.checkKey (realm.map .text) (name.map .text))
  s.find (realm.getD "") (name.getD "")

def acquireLock (lock : Option Lock) (now : Int) : Session I Answer := do
  let (claim, lease, expiry, l) ← Session.ofExcept (RawClaim.forAcquisition lock)
  let o ← s.acquire claim lease expiry now
  s.finish l o

def renewLock (lock : Option Lock) (now : Int) : Session I Answer := do
  let (claim, delta, l) ← Session.ofExcept (RawClaim.forRenewal lock)
  let (o, renewed) ← s.renew claim delta now
  s.finish (renewed.getD l) o

def releaseLock (lock : Option Lock) (now : Int) : Session I Answer := do
  let (claim, l) ← Session.ofExcept (RawClaim.ofLock lock)
  let o ← s.release claim now
  s.finish l o

def keyFields (realm name : Value) : Value.Fields := [("namespace", realm), ("lock_name", name)]

/-- Logs a fault that befell the operation named in `event`, and goes on with `a`. -/
def report {α : Type} (event : String) (realm name : Value) (a : α) : Session I α :=
  .note (.ofFault event (keyFields realm name)) (.done a)

def answersFor (kinds : List Fault.Kind) : Error → Bool
  | .fault f => kinds.contains f.kind
  | _ => false

/-- Runs `s`; an error that `answers` accepts is logged under `event` and answered with `failed`. -/
def guarded {α : Type} (answers : Error → Bool) (event : String) (realm name : Value) (failed : α)
    (s : Session I α) :
    Session I α :=
  s.rescue answers fun _ => report event realm name failed

end Service

end Leasehold
