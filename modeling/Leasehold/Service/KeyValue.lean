import Leasehold.Service
import Leasehold.Store.KeyValue
import Leasehold.Json.Writer

/-! # Locks in a key-value store: the service

The store cannot test a record, so each operation reads it, decides, and commits on the condition
that the key has not changed since. A lost commit is tried again from the reading on, a given number
of times. Records hang on leases, so that a lock that nobody renews goes away by itself; the lease
of a lost commit is revoked. -/

namespace Leasehold.KeyValue

/-- `root` stands before every key; a lost commit is tried again up to `retries` times. -/
structure Options where
  root : String := "locks/"
  retries : Nat := 3

/-- The text of a record, which some values do not have. -/
def recordText (l : Lock) : Except Fault String :=
  let v : Value := .map l.toFields
  match Json.unwritable? v with
  | some f => .error f
  | none => .ok (Json.render v)

def ofRecordText (s : String) : Except Fault Lock :=
  match Json.read s with
  | some v => Lock.ofValue v
  | none => .error .notJson

def get (key : String) : Session interface (Option (String × Nat)) :=
  Session.ask (I := interface) (.get key)

def grant (ttl : Int) : Session interface Nat := Session.ask (I := interface) (.grant ttl)

def commit (compares : List Compare) (success failure : List Change) : Session interface Bool :=
  Session.ask (I := interface) (.commit compares success failure)

def revoke (lease : Nat) : Session interface Unit := Session.ask (I := interface) (.revoke lease)

/-- The record under a key and the revision of its last change; revision zero when there is none. -/
def read (key : String) : Session interface (Option Lock × Nat) := do
  match ← get key with
  | none => return (none, 0)
  | some (text, revision) =>
    let l ← Session.ofReading (ofRecordText text)
    return (some l, revision)

/-- The key has not changed since `revision` was read. -/
def unchanged (key : String) (revision : Nat) : Compare :=
  if revision = 0 then .created key 0 else .modified key revision

/-- How long the lease of a record runs: until its expiry, and for one second at least. -/
def timeToLive (l : Lock) (now : Int) : Int := max 1 (Decision.orNow l.expiry now - now)

/-- Puts a record unless the key has changed; answers whether it did. -/
def putIfUnchanged (key : String) (revision : Nat) (l : Lock) (now : Int) : Session interface Bool := do
  let lease ← grant (timeToLive l now)
  let text ← Session.ofReading (recordText l)
  let committed ← commit [unchanged key revision] [.put key text (some lease)] []
  if committed then return true
  else
    revoke lease
    return false

/-- Deletes a record unless the key has changed; answers whether it did. -/
def deleteIfUnchanged (key : String) (revision : Nat) : Session interface Bool :=
  commit [unchanged key revision] [.delete key] []

def lostEntry (operation : Action) (attempt total : Nat) : Log.Entry :=
  ⟨.debug, "CAS failed for " ++ operation.label, [("attempt", .int attempt), ("max_attempts", .int total)]⟩

/-- Makes up to `left` of `total` attempts. An attempt answers nothing when its commit was lost. -/
def retry {α : Type} (operation : Action) (total : Nat) (attempt : Session interface (Option α)) :
    (left : Nat) → Session interface (Option α)
  | 0 => .done none
  | left + 1 => attempt.bind fun
    | some a => .done (some a)
    | none => .note (lostEntry operation (total - left) total) (retry operation total attempt left)

def exhaustedEntry (options : Options) (operation : Action) (claim : RawClaim) : Log.Entry :=
  ⟨.error, "Max retries exceeded",
   ("operation", .text operation.label) :: Service.keyFields claim.realm claim.name
     ++ [("max_retries", .int options.retries)]⟩

/-- An operation: attempts, then what to answer when all were lost or something failed. -/
def operate {α : Type} (options : Options) (operation : Action) (event : String) (claim : RawClaim)
    (exhausted failed : α) (attempt : Session interface (Option α)) : Session interface α :=
  let total := options.retries + 1
  Service.guarded (fun _ => true) event claim.realm claim.name failed do
    match ← retry operation total attempt total with
    | some a => return a
    | none => .note (exhaustedEntry options operation claim) (.done exhausted)

def keyOf (options : Options) (realm name : String) : String := options.root ++ Lock.keyOf realm name

def find (options : Options) (realm name : String) : Session interface (Option Lock) :=
  Service.guarded (fun _ => true) "Error getting lock" realm name none do
    let (l, _) ← read (keyOf options realm name)
    return l

def tryAcquire (key : String) (l : Lock) (now : Int) : Session interface (Option Outcome) := do
  let (existing, revision) ← read key
  let o := Decision.acquire existing l now
  if o.isSuccess then
    let committed ← putIfUnchanged key revision l now
    return if committed then some o else none
  else return some o

def tryRenew (key : String) (l : Lock) (now : Int) :
    Session interface (Option (Outcome × Option Lock)) := do
  let (existing, revision) ← read key
  match Decision.renew existing l now with
  | (o, some renewed) =>
    let committed ← putIfUnchanged key revision renewed now
    return if committed then some (o, some renewed) else none
  | (o, none) => return some (o, none)

def tryRelease (key : String) (l : Lock) (now : Int) : Session interface (Option Outcome) := do
  let (existing, revision) ← read key
  let o := Decision.release existing l now
  if o = .released then
    let committed ← deleteIfUnchanged key revision
    return if committed then some o else none
  else return some o

def acquire (options : Options) (claim : RawClaim) (lease expiry now : Int) : Session interface Outcome :=
  operate options .acquire "Error acquiring lock" claim .acquireMaxRetries .acquireError
    (tryAcquire (keyOf options claim.realm.plain claim.name.plain)
      (claim.lock (some lease) (some expiry)) now)

def renew (options : Options) (claim : RawClaim) (delta now : Int) :
    Session interface (Outcome × Option Lock) :=
  operate options .renew "Error renewing lock" claim (.renewMaxRetries, none) (.renewError, none)
    (tryRenew (keyOf options claim.realm.plain claim.name.plain) (claim.lock (some delta) none) now)

def release (options : Options) (claim : RawClaim) (now : Int) : Session interface Outcome :=
  operate options .release "Error releasing lock" claim .releaseMaxRetries .releaseError
    (tryRelease (keyOf options claim.realm.plain claim.name.plain) (claim.lock none none) now)

def service (options : Options) : Service interface :=
  { name := "etcd", find := find options, acquire := acquire options, renew := renew options,
    release := release options }

/-- The number of retries that a caller asks for. -/
def retriesOf (n : Int) : Except Error Nat :=
  if n < 0 then .error (.invalidConfig "max_retries must be >= 0") else .ok n.toNat

end Leasehold.KeyValue
