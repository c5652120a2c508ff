import Leasehold.Lock.Basic
import Leasehold.Error

/-! # Claims

A claim names a lock and one holder of it. Operations take a lock record from the caller; the checks
here turn it into a claim, or refuse it with the first field that is missing. They ask only that the
fields are there: a claim comes with whatever values the caller has put in them (`RawClaim`). Those
of a `Claim` are texts, as they should be. -/

namespace Leasehold

/-- A claim as it comes. -/
structure RawClaim where
  realm : Value
  name : Value
  owner : Value
  instanceId : Value
deriving DecidableEq, Repr

namespace RawClaim

def key (c : RawClaim) : String := Lock.keyOf c.realm.plain c.name.plain

def lock (c : RawClaim) (lease expiry : Option Int) : Lock :=
  { realm := some c.realm, name := some c.name, owner := some c.owner,
    instanceId := some c.instanceId, lease, expiry }

def demand {α : Type} (field : String) : Option α → Except Error α
  | some a => .ok a
  | none => .error (.required field)

/-- A name that is empty counts as missing. -/
def demandName (field : String) : Option Value → Except Error Value
  | some v => if v.isTruthy then .ok v else .error (.required field)
  | none => .error (.required field)

def checkKey (realm name : Option Value) : Except Error (Value × Value) := do
  let realm ← demandName "namespace" realm
  let name ← demandName "lock_name" name
  return (realm, name)

def ofLock (lock : Option Lock) : Except Error (RawClaim × Lock) := do
  let l ← demand "lock" lock
  let (realm, name) ← checkKey l.realm l.name
  let owner ← demand "owner" l.owner
  let instanceId ← demand "instance_id" l.instanceId
  return (⟨realm, name, owner, instanceId⟩, l)

/-- A claim with the lease that a renewal adds. -/
def forRenewal (lock : Option Lock) : Except Error (RawClaim × Int × Lock) := do
  let (claim, l) ← ofLock lock
  let lease ← demand "lease_duration" l.lease
  return (claim, lease, l)

/-- A claim with lease and expiry. -/
def forAcquisition (lock : Option Lock) : Except Error (RawClaim × Int × Int × Lock) := do
  let (claim, lease, l) ← forRenewal lock
  let expiry ← demand "expiry" l.expiry
  return (claim, lease, expiry, l)

end RawClaim

/-- A claim whose fields are texts. -/
structure Claim where
  realm : String
  name : String
  owner : String
  instanceId : String
deriving DecidableEq, Repr

namespace Claim

@[coe] def raw (c : Claim) : RawClaim := ⟨c.realm, c.name, c.owner, c.instanceId⟩

instance : Coe Claim RawClaim := ⟨raw⟩

def key (c : Claim) : String := Lock.keyOf c.realm c.name

def lock (c : Claim) (lease expiry : Option Int) : Lock :=
  { realm := some c.realm, name := some c.name, owner := some c.owner,
    instanceId := some c.instanceId, lease, expiry }

section
variable (c : Claim)

@[simp] theorem raw_realm : c.raw.realm = .text c.realm := rfl

@[simp] theorem raw_name : c.raw.name = .text c.name := rfl

@[simp] theorem raw_owner : c.raw.owner = .text c.owner := rfl

@[simp] theorem raw_instanceId : c.raw.instanceId = .text c.instanceId := rfl

@[simp] theorem key_raw : c.raw.key = c.key := rfl

@[simp] theorem lock_raw (lease expiry : Option Int) : c.raw.lock lease expiry = c.lock lease expiry := rfl

theorem key_lock (lease expiry : Option Int) : (c.lock lease expiry).key = c.key := rfl

end

end Claim

end Leasehold
