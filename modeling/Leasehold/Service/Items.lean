import Leasehold.Service
import Leasehold.Store.Items

/-! # Locks as conditional items: the service

Each operation is one conditional write, without a reading before it. A refused release is followed
by a reading that only tells apart why it was refused. -/

namespace Leasehold.Items

/-- The attribute that repeats the expiry for the store's own sweeper, if any. -/
structure Options where
  ttl : Option String := none

/-- The attribute name, unless it is missing or empty. -/
def Options.ttlName? (options : Options) : Option String := options.ttl.filter (· ≠ "")

def answered : List Fault.Kind := [.response, .unreachable, .transport, .lookup, .badValue]

/-- The store refused a write because its condition failed. -/
def isConditionFailure : Error → Bool
  | .fault (.reported .response (some code) _) => code = conditionFailed
  | _ => false

/-- The item of a claim: its id and every field that is there. -/
def itemOf (options : Options) (l : Lock) : Item :=
  let item : Item := ("lockId", .text l.key) :: l.toFields.filter fun e => !Context.isNull e.2
  match options.ttlName?, l.expiry with
  | some name, some expiry => Assoc.put item name (.int expiry)
  | _, _ => item

/-- The record of an item in a response; nothing when there is no item or an empty one. -/
def ofItem (v : Value) : Except Fault (Option Lock) :=
  if v.isTruthy then some <$> Lock.ofValue v else .ok none

def part (response : Value.Fields) (name : String) : Value := (Assoc.find? response name).getD .null

def heldBy (claim : RawClaim) : Condition :=
  .and (.equals "owner" claim.owner) (.equals "instanceId" claim.instanceId)

/-- Faults that are answered for end in `failed`. -/
def guarded {α : Type} (event : String) (realm name : Value) (failed : α)
    (s : Session interface α) : Session interface α :=
  Service.guarded (Service.answersFor answered) event realm name failed s

def getItem (key : String) : Session interface (Option Lock) := do
  let response ← Session.ask (I := interface) (.get key)
  Session.ofReading (ofItem (part response "Item"))

def find (realm name : String) : Session interface (Option Lock) :=
  guarded "Error getting lock" realm name none (getItem (Lock.keyOf realm name))

/-- Answers a failed condition with `conflict`, any other fault that is answered for with
`failed`. -/
def settle {α : Type} (operation : Action) (event : String) (claim : RawClaim) (conflict failed : α)
    (s : Session interface α) : Session interface α :=
  s.rescue (Service.answersFor answered) fun e =>
    if isConditionFailure e then
      .note ⟨.debug, "Conditional check failed for " ++ operation.label,
        Service.keyFields claim.realm claim.name⟩
        (.done conflict)
    else Service.report event claim.realm claim.name failed

/-- No item, an expired one, or one of the claimant. -/
def isFree (claim : RawClaim) (now : Int) : Condition :=
  .or (.or (.absent "lockId") (.lessThan "expiry" (.int now))) (heldBy claim)

def acquire (options : Options) (claim : RawClaim) (lease expiry now : Int) : Session interface Outcome :=
  settle .acquire "Error acquiring lock" claim .acquireConflict .acquireError do
    let l := claim.lock (some lease) (some expiry)
    let response ← Session.ask (I := interface) (.put (itemOf options l) (isFree claim now))
    match ← Session.ofReading (ofItem (part response "Attributes")) with
    | some previous => return if l.isMatch previous then .lockReplaced else .acquired
    | none => return .acquired

/-- A live item of the claimant. -/
def isLive (claim : RawClaim) (now : Int) : Condition :=
  .and (.and (.present "lockId") (.atLeast "expiry" (.int now))) (heldBy claim)

/-- Adds `delta` to lease and expiry; the attribute of the sweeper follows the expiry. -/
def extension (options : Options) (delta : Int) : Update :=
  let assignments : List Assignment := [⟨"#lease", "#lease"⟩, ⟨"#expiry", "#expiry"⟩]
  let names := [("#lease", "leaseDuration"), ("#expiry", "expiry")]
  match options.ttlName? with
  | some name => ⟨assignments ++ [⟨"#ttl", "#expiry"⟩], names ++ [("#ttl", name)], delta⟩
  | none => ⟨assignments, names, delta⟩

def renew (options : Options) (claim : RawClaim) (delta now : Int) :
    Session interface (Outcome × Option Lock) :=
  settle .renew "Error renewing lock" claim (.renewConflict, none) (.renewError, none) do
    let response ← Session.ask (I := interface)
      (.update claim.key (extension options delta) (isLive claim now))
    let renewed ← Session.ofReading (ofItem (part response "Attributes"))
    return (.renewed, renewed)

/-- The outcome of a deletion that returned the old item `v`. -/
def releaseOutcome (v : Value) (now : Int) : Except Fault Outcome := do
  match ← ofItem v with
  | some previous => return if previous.isExpired now then .releasedExpired else .released
  | none => return .released

def release (claim : RawClaim) (now : Int) : Session interface Outcome :=
  guarded "Error releasing lock" claim.realm claim.name .releaseError <|
    Session.call (I := interface) (.delete claim.key (heldBy claim)) fun
      | .ok response => Session.ofReading (releaseOutcome (part response "Attributes") now)
      | .error f =>
        if isConditionFailure (.fault f) then do
          let existing ← getItem claim.key
          return Decision.afterRefusedRelease existing now
        else .fail (.fault f)

def service (options : Options) : Service interface :=
  { name := "dynamodb", find, acquire := acquire options, renew := renew options, release }

end Leasehold.Items
