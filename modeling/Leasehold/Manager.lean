import Leasehold.Service
import Leasehold.Lock.Argument
import Leasehold.Digest
import Leasehold.Number.Fraction

/-! # The manager

The manager is what callers talk to. It checks the arguments, binds the request to the log context,
reads the clock and computes the expiry, hands the request to the service, and logs how it ended and
how long it took. A request whose arguments are refused leaves everything as it was. -/

namespace Leasehold.Manager

/-- The owner of requests that name none. -/
def anonymousOwner : String := "anonymous"

/-- What a request reads from its surroundings: the clock in epoch seconds, and a timer before and
after the call of the service. -/
structure Timing where
  now : Except Fault Int
  started : Value := .float 0.0
  ended : Value := .float 0.0

/-- Epoch seconds of a clock that may give fractions. -/
def epochSeconds (reading : Value) : Except Fault Int :=
  match reading.toInt with
  | .ok n => .ok n
  | .error e => .error (.number e)

def toFloat : Value → Except Fault Float
  | .float x => .ok x
  | .int n => match Number.floatOfInt? n with
    | some x => .ok x
    | none => .error .integerTooLarge
  | _ => .ok 0.0

/-- Whole milliseconds between two readings of a timer in seconds. -/
def elapsed : (started ended : Value) → Except Fault Int
  | .int a, .int b => .ok ((b - a) * 1000)
  | a, b => do
    let x := (← toFloat b) - (← toFloat a)
    match (Binary.ofFloat (x * 1000.0)).truncate with
    | .ok n => .ok n
    | .error e => .error (.number e)

def Timing.elapsed (t : Timing) : Except Fault Int := Manager.elapsed t.started t.ended

/-- The fields of a request in the log context. The instance id appears as a digest only. -/
def requestFields (operation : Action) (realm name : String) (owner : Option Value)
    (instanceId : Option String) (lease : Option Int) : Value.Fields :=
  [("lock_namespace", .text realm), ("lock_name", .text name), ("lock_operation", .text operation.label),
   ("auth_subject", owner.getD .null), ("instance_id_hash", .ofText? (instanceId.map Digest.sha256)),
   ("requested_lease_duration_sec", .ofInt? lease)]

/-- Starts the context of a request: what an earlier request left there goes. -/
def bindRequest (operation : Action) (realm name : String) (owner : Option Value)
    (instanceId : Option String) (lease : Option Int) (c : Context) : Context :=
  c.reset.bind (requestFields operation realm name owner instanceId lease)

/-- The fields that the end of a request adds to the log context. -/
def resultFields (backend : String) (elapsed : Int) (label : String) (expiry : Option Int) : Value.Fields :=
  [("lock_backend", .text backend), ("backend_duration_ms", .int elapsed), ("lock_result", .text label),
   ("computed_expiry_epoch_sec", .ofInt? expiry)]

def completedEntry : Log.Entry := ⟨.info, "lock request completed", []⟩

structure Request where
  realm : String
  name : String
  owner : Value
  instanceId : String
  lease : Option Int

/-- The record that the service is asked for. -/
def Request.lock (r : Request) (lease expiry : Option Int) : Lock :=
  { realm := some r.realm, name := some r.name, owner := some r.owner,
    instanceId := some r.instanceId, lease, expiry }

/-- The owner in whose name a request is made: any value that is truthy, as it is. -/
def ownerOf (owner : Value) : Value := if owner.isTruthy then owner else anonymousOwner

/-- The arguments of a request, checked in order. A lease that is not there is not checked. -/
def check (realm name owner instanceId lease : Value) : Except Error Request := do
  let realm ← Argument.identifier "namespace" realm
  let name ← Argument.identifier "lock_name" name
  let instanceId ← Argument.identifier "instance_id" instanceId
  let lease ← match lease with
    | .null => pure none
    | v => some <$> Argument.leaseDuration v
  return { realm, name, owner := ownerOf owner, instanceId, lease }

variable {I : Interface} (s : Service I) (t : Timing)

def complete (elapsed : Int) (label : String) (expiry : Option Int) : Session I Unit :=
  .amend (·.bind (resultFields s.name elapsed label expiry)) (.note completedEntry (.done ()))

def resultLabel (a : Answer) : String := if a.success = some true then "success" else "conflict"

/-- Shows a lock as far as anyone may see it. -/
def get (realm name : Value) : Session I Answer := do
  let realm ← Session.ofExcept (Argument.identifier "namespace" realm)
  let name ← Session.ofExcept (Argument.identifier "lock_name" name)
  Session.context (bindRequest .get realm name none none none)
  let stored ← s.getLock (some realm) (some name)
  let elapsed ← Session.ofReading t.elapsed
  let now ← Session.ofReading t.now
  complete s elapsed (if stored.isSome then "success" else "not_found") none
  return Answer.ofStored (some realm) (some name) stored now

def start (operation : Action) (r : Request) : Session I Int := do
  Session.context (bindRequest operation r.realm r.name (some r.owner) (some r.instanceId) r.lease)
  Session.ofReading t.now

/-- Takes a lock for `lease` seconds from now. -/
def acquire (realm name owner instanceId lease : Value) : Session I Answer := do
  let r ← Session.ofExcept (check realm name owner instanceId lease)
  let now ← start t .acquire r
  match r.lease with
  | none => Session.fail (.fault .noLease)
  | some lease =>
    let expiry := now + lease
    let a ← s.acquireLock (some (r.lock (some lease) (some expiry))) now
    let elapsed ← Session.ofReading t.elapsed
    complete s elapsed (resultLabel a) (if a.success = some true then some expiry else none)
    return a

/-- Adds `lease` seconds to a lock that the caller holds. -/
def renew (realm name owner instanceId lease : Value) : Session I Answer := do
  let r ← Session.ofExcept (check realm name owner instanceId lease)
  let now ← start t .renew r
  let a ← s.renewLock (some (r.lock r.lease none)) now
  let elapsed ← Session.ofReading t.elapsed
  complete s elapsed (resultLabel a) (if a.success = some true then a.lock.expiry else none)
  return a

def release (realm name owner instanceId : Value) : Session I Answer := do
  let r ← Session.ofExcept (check realm name owner instanceId .null)
  let now ← start t .release r
  let a ← s.releaseLock (some (r.lock none none)) now
  let elapsed ← Session.ofReading t.elapsed
  complete s elapsed (resultLabel a) none
  return a

end Leasehold.Manager
