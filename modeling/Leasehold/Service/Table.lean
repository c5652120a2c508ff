import Leasehold.Service
import Leasehold.Store.Table
import Leasehold.Lock.Argument

/-! # Locks in an SQL table: the service

Acquiring, renewing and releasing are one statement each, so that the server decides. Only the
outcome of a release that deleted nothing is told apart by a second statement. -/

namespace Leasehold.Table

/-- With `useServerTime` the server's clock decides about expiry, otherwise the caller's. -/
structure Options where
  table : String := "locks"
  useServerTime : Bool := false

def Options.clock (options : Options) (now : Int) : Clock :=
  if options.useServerTime then .server else .caller now

def answered : List Fault.Kind := [.database, .databaseClient, .system, .disconnected, .refused, .timeout]

def query (options : Options) (statement : Statement) : Session interface (Option Row) :=
  Session.ask (I := interface) ⟨options.table, statement⟩

def column (row : Row) (name : String) : Except Fault Value := Lock.demand row name

/-- A number of a row, which must be there and be a number. -/
def columnInt (row : Row) (name : String) : Except Fault Int := do
  match (← column row name).toInt with
  | .ok n => return n
  | .error e => throw (.number e)

def ofRow (row : Row) : Except Fault Lock := do
  let realm ← column row "namespace"
  let name ← column row "lock_name"
  let owner ← column row "owner"
  let instanceId ← column row "instance_id"
  let lease ← columnInt row "lease_duration"
  let expiry ← columnInt row "expiry"
  return { realm := Lock.identity realm, name := Lock.identity name, owner := Lock.identity owner,
           instanceId := Lock.identity instanceId, lease := some lease, expiry := some expiry }

/-- Faults that are answered for end in `failed`. -/
def guarded {α : Type} (event : String) (realm name : Value) (failed : α)
    (s : Session interface α) : Session interface α :=
  Service.guarded (Service.answersFor answered) event realm name failed s

def find (options : Options) (realm name : String) : Session interface (Option Lock) :=
  guarded "Error getting lock" realm name none do
    match ← query options (.select realm name) with
    | some row => return some (← Session.ofReading (ofRow row))
    | none => return none

def acquire (options : Options) (claim : RawClaim) (lease expiry now : Int) : Session interface Outcome :=
  guarded "Error acquiring lock" claim.realm claim.name .acquireError do
    match ← query options (.upsert claim lease expiry (options.clock now)) with
    | some _ => return .acquired
    | none => return .acquireConflict

def renew (options : Options) (claim : RawClaim) (delta now : Int) :
    Session interface (Outcome × Option Lock) :=
  guarded "Error renewing lock" claim.realm claim.name (.renewError, none) do
    match ← query options (.extend claim delta (options.clock now)) with
    | some row =>
      let l ← Session.ofReading (ofRow row)
      return (.renewed, some l)
    | none => return (.renewConflict, none)

def expiredFlag (row : Row) : Except Fault Bool := do
  return (← column row "expired").isTruthy

def release (options : Options) (claim : RawClaim) (now : Int) : Session interface Outcome :=
  guarded "Error releasing lock" claim.realm claim.name .releaseError do
    match ← query options (.delete claim (options.clock now)) with
    | some row =>
      let expired ← Session.ofReading (expiredFlag row)
      return if expired then .releasedExpired else .released
    | none =>
      match ← query options (.selectExpired claim.realm claim.name (options.clock now)) with
      | some row =>
        let expired ← Session.ofReading (expiredFlag row)
        return if expired then .releasedExpired else .releaseConflict
      | none => return .releasedNotFound

def ensureSchema (options : Options) : Session interface Unit :=
  (query options .create).bind fun _ => .done ()

def service (options : Options) : Service interface :=
  { name := "postgres", find := find options, acquire := acquire options, renew := renew options,
    release := release options }

end Leasehold.Table
