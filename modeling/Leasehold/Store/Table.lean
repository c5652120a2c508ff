import Leasehold.Lock.Claim
import Leasehold.Number.Fraction
import Leasehold.Number.Word
import Leasehold.Session

/-! # An SQL table

The PostgreSQL model: the statements that the table understands, their exact text and bind values,
and what each does to the rows. Each statement is atomic. The time of a statement is either bound by
the caller or read from the server.

`client` takes integers of any size, `limitedClient` those that the columns can hold. -/

namespace Leasehold.Table

/-- A row as a map from column to value. -/
abbrev Row := Value.Fields

structure Store where
  rows : Assoc (String × String) Row := []
  serverNow : Int := 0

inductive Clock where
  | server
  | caller (now : Int)
deriving DecidableEq, Repr

inductive Statement where
  | create
  | select (realm name : String)
  | upsert (claim : RawClaim) (lease expiry : Int) (clock : Clock)
  | extend (claim : RawClaim) (delta : Int) (clock : Clock)
  | delete (claim : RawClaim) (clock : Clock)
  | selectExpired (realm name : Value) (clock : Clock)
deriving DecidableEq, Repr

/-- A statement on a named table; the reply is the row it returns, if any. -/
structure Call where
  table : String
  statement : Statement

def Reply (_ : Call) : Type := Option Row

abbrev interface : Interface := ⟨Call, Reply⟩

namespace Clock

/-- The time in the text of a statement; `position` is the number of the bind value. -/
def sql (position : Nat) : Clock → String
  | .server => "EXTRACT(EPOCH FROM now())::bigint"
  | .caller _ => "$" ++ toString position

def args : Clock → List Value
  | .server => []
  | .caller now => [.int now]

def time (s : Store) : Clock → Int
  | .server => s.serverNow
  | .caller now => now

end Clock

namespace Statement

def columns : String := "namespace, lock_name, owner, instance_id, lease_duration, expiry"

def sql (t : String) : Statement → String
  | .create =>
    "CREATE TABLE IF NOT EXISTS " ++ t ++ " (namespace TEXT NOT NULL, lock_name TEXT NOT NULL, "
      ++ "owner TEXT NOT NULL, instance_id TEXT NOT NULL, lease_duration BIGINT NOT NULL, expiry BIGINT NOT NULL, "
      ++ "PRIMARY KEY (namespace, lock_name))"
  | .select .. => "SELECT " ++ columns ++ " FROM " ++ t ++ " WHERE namespace = $1 AND lock_name = $2"
  | .upsert _ _ _ clock =>
    "INSERT INTO " ++ t ++ " (" ++ columns ++ ") VALUES ($1, $2, $3, $4, $5, $6) "
      ++ "ON CONFLICT (namespace, lock_name) DO UPDATE SET owner = EXCLUDED.owner, "
      ++ "instance_id = EXCLUDED.instance_id, lease_duration = EXCLUDED.lease_duration, "
      ++ "expiry = EXCLUDED.expiry WHERE " ++ t ++ ".expiry < " ++ clock.sql 7
      ++ " OR (" ++ t ++ ".owner = EXCLUDED.owner AND " ++ t ++ ".instance_id = EXCLUDED.instance_id) "
      ++ "RETURNING namespace"
  | .extend _ _ clock =>
    "UPDATE " ++ t ++ " SET lease_duration = lease_duration + $1, expiry = expiry + $1 "
      ++ "WHERE namespace = $2 AND lock_name = $3 AND expiry >= " ++ clock.sql 6
      ++ " AND owner = $4 AND instance_id = $5 RETURNING " ++ columns
  | .delete _ clock =>
    "DELETE FROM " ++ t ++ " WHERE namespace = $1 AND lock_name = $2 AND owner = $3 AND instance_id = $4 "
      ++ "RETURNING (expiry < " ++ clock.sql 5 ++ ") AS expired"
  | .selectExpired _ _ clock =>
    "SELECT (expiry < " ++ clock.sql 3 ++ ") AS expired FROM " ++ t
      ++ " WHERE namespace = $1 AND lock_name = $2"

/-- The bind values, in order of position. -/
def args : Statement → List Value
  | .create => []
  | .select realm name => [.text realm, .text name]
  | .upsert c lease expiry clock =>
    [c.realm, c.name, c.owner, c.instanceId, .int lease, .int expiry] ++ clock.args
  | .extend c delta clock =>
    [.int delta, c.realm, c.name, c.owner, c.instanceId] ++ clock.args
  | .delete c clock => [c.realm, c.name, c.owner, c.instanceId] ++ clock.args
  | .selectExpired realm name clock => [realm, name] ++ clock.args

end Statement

def rowOf (c : Claim) (lease expiry : Int) : Row :=
  [("namespace", .text c.realm), ("lock_name", .text c.name), ("owner", .text c.owner),
   ("instance_id", .text c.instanceId), ("lease_duration", .int lease), ("expiry", .int expiry)]

/-! ### Cells

A row that lacks a column holds NULL there. What is computed from NULL is NULL, and a condition that
is NULL does not hold. -/

def cell (row : Row) (name : String) : Value := (Assoc.find? row name).getD .null

def columnNames : List String :=
  ["namespace", "lock_name", "owner", "instance_id", "lease_duration", "expiry"]

/-- A row as a statement returns it. -/
def shown (row : Row) : Row := columnNames.map fun name => (name, cell row name)

/-- A column of another type than the statement takes. -/
def mistyped (v : Value) : Fault :=
  .reported .database none ("operator does not exist for a column of " ++ v.kind)

/-- A bind value that the column does not take. -/
def misbound (v : Value) : Fault :=
  .reported .databaseClient none ("invalid input for query argument: " ++ v.kind)

/-- A truth value, `none` being NULL. -/
abbrev Truth := Option Bool

namespace Truth

def not (a : Truth) : Truth := a.map (!·)

def and : (a b : Truth) → Truth
  | some false, _ => some false
  | _, some false => some false
  | some true, some true => some true
  | _, _ => none

def or : (a b : Truth) → Truth
  | some true, _ => some true
  | _, some true => some true
  | some false, some false => some false
  | _, _ => none

def value (a : Truth) : Value := a.elim .null .bool

end Truth

/-- Whether a number lies below `n`. -/
def isBelow (v : Value) (n : Int) : Except Fault Truth :=
  match v with
  | .null => .ok none
  | .float x => .ok (some ((Binary.ofFloat x).isBelow n))
  | _ => match v.decimal? with
    | some d => .ok (some (d.lt (.ofInt n)))
    | none => .error (mistyped v)

/-- The sum of a stored number and `n`. A sum with a binary fraction is one. -/
def plus (v : Value) (n : Int) : Except Fault Value :=
  match v with
  | .null => .ok .null
  | .int m => .ok (.int (m + n))
  | .float x => match Number.floatOfInt? n with
    | some y => .ok (.float (x + y))
    | none => .error (misbound (.int n))
  | _ => match v.decimal? with
    | some d => .ok (.decimal (d.add (.ofInt n)))
    | none => .error (mistyped v)

/-- Whether a column holds the text `s`. -/
def isText (v : Value) (s : String) : Except Fault Truth :=
  match v with
  | .null => .ok none
  | .text t => .ok (some (t = s))
  | _ => .error (mistyped v)

def isHeldBy (row : Row) (c : Claim) : Except Fault Truth := do
  let owner ← isText (cell row "owner") c.owner
  let instanceId ← isText (cell row "instance_id") c.instanceId
  return owner.and instanceId

def isExpired (row : Row) (now : Int) : Except Fault Truth := isBelow (cell row "expiry") now

/-- A bind value for a text column. -/
def boundText : Value → Except Fault String
  | .text s => .ok s
  | v => .error (misbound v)

def bound (c : RawClaim) : Except Fault Claim :=
  return ⟨← boundText c.realm, ← boundText c.name, ← boundText c.owner, ← boundText c.instanceId⟩

/-! ### Statements -/

/-- What a statement returns and the rows it leaves. A statement that fails changes nothing. -/
def Store.execute (s : Store) : Statement → Except Fault (Option Row × Store)
  | .create => .ok (none, s)
  | .select realm name => .ok ((s.rows.find? (realm, name)).map shown, s)
  | .upsert claim lease expiry clock => do
    let c ← bound claim
    let fresh : Store := { s with rows := s.rows.put (c.realm, c.name) (rowOf c lease expiry) }
    let granted := (some [("namespace", Value.text c.realm)], fresh)
    match s.rows.find? (c.realm, c.name) with
    | none => return granted
    | some row =>
      let expired ← isExpired row (clock.time s)
      let held ← isHeldBy row c
      return if expired.or held = some true then granted else (none, s)
  | .extend claim delta clock => do
    let c ← bound claim
    match s.rows.find? (c.realm, c.name) with
    | none => return (none, s)
    | some row =>
      let lease ← plus (cell row "lease_duration") delta
      let expiry ← plus (cell row "expiry") delta
      let expired ← isExpired row (clock.time s)
      let held ← isHeldBy row c
      if expired.not.and held = some true then
        let row := (Assoc.put row "lease_duration" lease).put "expiry" expiry
        return (some (shown row), { s with rows := s.rows.put (c.realm, c.name) row })
      else return (none, s)
  | .delete claim clock => do
    let c ← bound claim
    match s.rows.find? (c.realm, c.name) with
    | none => return (none, s)
    | some row =>
      let held ← isHeldBy row c
      let expired ← isExpired row (clock.time s)
      return if held = some true then
          (some [("expired", expired.value)], { s with rows := s.rows.erase (c.realm, c.name) })
        else (none, s)
  | .selectExpired realm name clock => do
    match s.rows.find? (← boundText realm, ← boundText name) with
    | none => return (none, s)
    | some row => return (some [("expired", (← isExpired row (clock.time s)).value)], s)

/-- A client of a server that executes statements like this. -/
def clientOf (execute : Store → Statement → Except Fault (Option Row × Store)) :
    Session.Client interface Store :=
  fun call s => match execute s call.statement with
    | .ok (row, s') => (.ok row, s')
    | .error f => (.error f, s)

abbrev client : Session.Client interface Store := clientOf Store.execute

/-! ### Limits of numbers

Lease durations and expiries are words of 64 bits. The client sends no other number, and a sum that
is none fails. -/

def isWord (n : Int) : Bool := -Number.maxWord - 1 ≤ n && n ≤ Number.maxWord

/-- A value is an integer that is no word. -/
def isLong : Value → Bool
  | .int n => !isWord n
  | _ => false

def outOfRange : Fault := .reported .database none "bigint out of range"

/-- The row of a renewal holds the sums. -/
def overflows (statement : Statement) (row : Option Row) : Bool :=
  match statement with
  | .extend .. => row.any (·.any (isLong ·.2))
  | _ => false

def Store.executeLimited (s : Store) (statement : Statement) : Except Fault (Option Row × Store) := do
  match statement.args.find? isLong with
  | some v => throw (misbound v)
  | none =>
    let (row, s') ← s.execute statement
    if overflows statement row then throw outOfRange else return (row, s')

abbrev limitedClient : Session.Client interface Store := clientOf Store.executeLimited

end Leasehold.Table
