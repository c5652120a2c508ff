import Leasehold.Fault

/-! # Locks

The record of a lock as a store keeps it, and its form as a map. Identity fields that are `none`
match anything; a lock without an expiry never expires. Identities are texts, but what a store holds
may be anything, and is kept as it was found. -/

namespace Leasehold

/-- A lock record: the lock's namespace (`realm`) and name, who holds it, for how long, until
when. -/
structure Lock where
  realm : Option Value
  name : Option Value
  owner : Option Value := none
  instanceId : Option Value := none
  lease : Option Int := none
  expiry : Option Int := none
deriving DecidableEq, Repr

namespace Lock

/-- The key of a lock: namespace and name with a colon between them. -/
def keyOf (realm name : String) : String := realm ++ ":" ++ name

def key (l : Lock) : String := keyOf (l.realm.getD .null).plain (l.name.getD .null).plain

/-- The expiry lies before `now`. A lock is still held at its expiry. -/
def isExpired (l : Lock) (now : Int) : Bool :=
  match l.expiry with
  | some e => e < now
  | none => false

def isActive (l : Lock) (now : Int) : Bool := !l.isExpired now

/-- A field asked for agrees with a field found. -/
def agrees (asked found : Option Value) : Bool := asked.all fun v => found.any v.same

/-- Every identity field that `l` names is the same in `other`. -/
def isMatch (l other : Lock) : Bool :=
  agrees l.realm other.realm && agrees l.name other.name && agrees l.owner other.owner
    && agrees l.instanceId other.instanceId

def withLease (l : Lock) (lease expiry : Option Int) : Lock := { l with lease, expiry }

def redacted (l : Lock) : Lock := { realm := l.realm, name := l.name }

def toFields (l : Lock) : Value.Fields :=
  [("namespace", l.realm.getD .null), ("lockName", l.name.getD .null), ("owner", l.owner.getD .null),
   ("instanceId", l.instanceId.getD .null), ("leaseDuration", .ofInt? l.lease),
   ("expiry", .ofInt? l.expiry)]

/-- An identity field as found: nothing, or whatever is there. -/
def identity : Value → Option Value
  | .null => none
  | v => some v

/-- A number as found: nothing, or an integer. -/
def whole : Value → Except Fault (Option Int)
  | .null => .ok none
  | v => match v.toInt with
    | .ok n => .ok (some n)
    | .error e => .error (.number e)

/-- The field `name`, which must be there. -/
def demand (fields : Value.Fields) (name : String) : Except Fault Value :=
  match Assoc.find? fields name with
  | some v => .ok v
  | none => .error (.missing name)

/-- The lock of a stored map. Namespace and name must be there; numbers are made integers. -/
def ofFields (fields : Value.Fields) : Except Fault Lock := do
  let realm ← demand fields "namespace"
  let name ← demand fields "lockName"
  let field (key : String) : Value := (Assoc.find? fields key).getD .null
  let lease ← whole (field "leaseDuration")
  let expiry ← whole (field "expiry")
  return { realm := identity realm, name := identity name, owner := identity (field "owner"),
           instanceId := identity (field "instanceId"), lease, expiry }

def ofValue : Value → Except Fault Lock
  | .map fields => ofFields fields
  | v => .error (.notMap v.kind)

/-- A text agrees with itself and nothing else. -/
theorem agrees_text (s : String) (found : Option Value) :
    agrees (some (.text s)) found = decide (found = some (.text s)) := by
  rw [Bool.eq_iff_iff, decide_eq_true_iff]
  cases found with
  | none => simp [agrees]
  | some w => simp [agrees, Value.same_text]

theorem whole_ofInt? (n : Option Int) : whole (.ofInt? n) = .ok n := by
  cases n <;> rfl

end Lock

end Leasehold
