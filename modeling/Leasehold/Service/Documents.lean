import Leasehold.Service
import Leasehold.Store.Documents
import Leasehold.Instant

/-! # Locks as documents: the service

Reading, deciding and writing happen in one transaction, which the client runs again when it lost a
race. -/

namespace Leasehold.Documents

/-- The collection of the lock documents, and the field that repeats the expiry as a point in time
for the store's own sweeper, if any. -/
structure Options where
  collection : String := "locks"
  ttl : Option String := some "ttl"

/-- The field name, unless it is missing or empty. -/
def Options.ttlName? (options : Options) : Option String := options.ttl.filter (· ≠ "")

def answered : List Fault.Kind :=
  [.unavailable, .deadline, .aborted, .remote, .lookup, .wrongType, .badValue]

def pathOf (options : Options) (realm name : String) : String :=
  options.collection ++ "/" ++ Lock.keyOf realm name

def dataOf (options : Options) (l : Lock) : Except Fault Value.Fields :=
  match options.ttlName?, l.expiry with
  | some name, some expiry => do
    let t ← Instant.ofEpoch expiry
    return Assoc.put l.toFields name t
  | _, _ => .ok l.toFields

def read (path : String) (inTransaction : Bool) : Session interface (Option Lock) := do
  match ← Session.ask (I := interface) (.get path inTransaction) with
  | some data => return some (← Session.ofReading (Lock.ofFields data))
  | none => return none

def find (options : Options) (realm name : String) : Session interface (Option Lock) :=
  Service.guarded (Service.answersFor answered) "Error getting lock" realm name none
    (read (pathOf options realm name) false)

/-- Runs `body` as a transaction; faults that are answered for end in `failed`. -/
def operate {α : Type} (event : String) (claim : RawClaim) (failed : α)
    (body : Session interface (α × List Write)) : Session interface α :=
  Service.guarded (Service.answersFor answered) event claim.realm claim.name failed (transaction body)

def acquire (options : Options) (claim : RawClaim) (lease expiry now : Int) : Session interface Outcome :=
  let path := pathOf options claim.realm.plain claim.name.plain
  let l := claim.lock (some lease) (some expiry)
  operate "Error acquiring lock" claim .acquireError do
    let existing ← read path true
    let o := Decision.acquire existing l now
    if o.isSuccess then
      let data ← Session.ofReading (dataOf options l)
      return (o, [.set path data])
    else return (o, [])

def renew (options : Options) (claim : RawClaim) (delta now : Int) :
    Session interface (Outcome × Option Lock) :=
  let path := pathOf options claim.realm.plain claim.name.plain
  operate "Error renewing lock" claim (.renewError, none) do
    let existing ← read path true
    match Decision.renew existing (claim.lock (some delta) none) now with
    | (o, some l) =>
      let data ← Session.ofReading (dataOf options l)
      return ((o, some l), [.set path data])
    | (o, none) => return ((o, none), [])

def release (options : Options) (claim : RawClaim) (now : Int) : Session interface Outcome :=
  let path := pathOf options claim.realm.plain claim.name.plain
  operate "Error releasing lock" claim .releaseError do
    let existing ← read path true
    let o := Decision.release existing (claim.lock none none) now
    return (o, if o = .released then [.delete path] else [])

def service (options : Options) : Service interface :=
  { name := "firestore", find := find options, acquire := acquire options, renew := renew options,
    release := release options }

end Leasehold.Documents
