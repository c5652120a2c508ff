import Leasehold.Lock.Outcome
import Leasehold.Value

/-! # The log context

The fields that every log line of a request carries. A request first resets the lock fields, so that
nothing of the request before it stays; fields of other origin are left alone. -/

namespace Leasehold

/-- Named values, bound for all log lines until they are taken out. -/
abbrev Context := Assoc String Value

namespace Context

def outcomeKey : String := "lock_service_outcome"

def lockKeys : List String :=
  ["lock_namespace", "lock_name", "lock_operation", "auth_subject", "instance_id_hash",
   "requested_lease_duration_sec", "lock_backend", "backend_duration_ms", "lock_result",
   "computed_expiry_epoch_sec", outcomeKey]

def isNull : Value → Bool
  | .null => true
  | _ => false

/-- Binds fields as they are. -/
def bindAll (c : Context) (fields : Value.Fields) : Context := Assoc.putAll c fields

/-- Binds the fields that are not null. -/
def bind (c : Context) (fields : Value.Fields) : Context := c.bindAll (fields.filter fun e => !isNull e.2)

def recordText (c : Context) (outcome : String) : Context := Assoc.put c outcomeKey (.text outcome)

def record (c : Context) (o : Outcome) : Context := c.recordText o.code

def reset (c : Context) : Context := Assoc.drop c lockKeys.contains

end Context

end Leasehold
