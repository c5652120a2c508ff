import Leasehold.Fault

/-! # Log entries -/

namespace Leasehold.Log

inductive Level where
  | debug
  | info
  | warning
  | error
  | critical
deriving DecidableEq, Repr

namespace Level

def name : Level → String
  | debug => "debug"
  | info => "info"
  | warning => "warning"
  | error => "error"
  | critical => "critical"

def severity : Level → Int
  | debug => 10
  | info => 20
  | warning => 30
  | error => 40
  | critical => 50

def all : List Level := [debug, info, warning, error, critical]

def synonyms : List (String × Level) := [("warn", warning), ("fatal", critical), ("exception", error)]

def ofName? (s : String) : Option Level := (all.find? fun l => l.name = s).or (Assoc.find? synonyms s)

end Level

structure Entry where
  level : Level
  event : String
  fields : Value.Fields := []

/-- The field that marks an event as the report of a fault. -/
def faultMark : String × Value := ("exc_info", .bool true)

def Entry.ofFault (event : String) (fields : Value.Fields) : Entry :=
  ⟨.error, event, fields ++ [faultMark]⟩

/-- The parts of the call that writes an entry of the given level, with the name of the call that
has them. -/
def Entry.parts (level : Level) : List (String × String) :=
  let outer := "BoundLogger." ++ level.name
  [("self", outer), ("event", outer), ("method_name", "BoundLogger._proxy_to_logger")]

/-- Why an entry cannot be written: no field can have the name of a part. -/
def Entry.refused? (e : Entry) : Option Fault :=
  (Entry.parts e.level).findSome? fun (part, call) =>
    if e.fields.any (·.1 = part) then
      some (.reported .wrongType none (call ++ "() got multiple values for argument '" ++ part ++ "'"))
    else none

end Leasehold.Log
