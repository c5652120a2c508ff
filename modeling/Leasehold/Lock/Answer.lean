import Leasehold.Lock.Basic
import Leasehold.Lock.Outcome

/-! # Answers

What the caller of an operation gets: the record it may see, the operation, how it ended. Failures
and releases show namespace and name only, so that nobody learns who holds a lock from being
refused. -/

namespace Leasehold

structure Answer where
  lock : Lock
  operation : Action
  action : Action
  success : Option Bool := none
  outcome : Option Outcome := none
deriving DecidableEq, Repr

namespace Answer

def succeeded (l : Lock) (o : Outcome) : Answer := ⟨l, o.operation, .success, some true, some o⟩

def cleared (l : Lock) (o : Outcome) : Answer := ⟨l.redacted, o.operation, .success, some true, some o⟩

def failed (l : Lock) (o : Outcome) : Answer := ⟨l.redacted, o.operation, .failed, some false, some o⟩

def ofOutcome (l : Lock) (o : Outcome) : Answer :=
  if o.isHeld then succeeded l o else if o.isCleared then cleared l o else failed l o

/-- What a reader may see: never the instance, never the lease, and of an expired lock nothing but
its key. -/
def ofStored (realm name : Option String) (stored : Option Lock) (now : Int) : Answer :=
  let shown : Lock := match stored with
    | none => { realm := realm.map .text, name := name.map .text }
    | some l => if l.isExpired now then l.redacted else { l with instanceId := none, lease := none }
  ⟨shown, .get, .get, none, none⟩

def retriesExhausted (a : Answer) : Bool :=
  match a.outcome with
  | some o => o.retriesExhausted
  | none => false

end Answer

end Leasehold
