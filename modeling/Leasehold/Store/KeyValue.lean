import Leasehold.Session

/-! # A revisioned key-value store

The etcd model: every applied put or delete takes the next revision, a key remembers the revisions
of its creation and of its last change, and a key may hang on a lease that takes it along when it
ends. A transaction applies one of two lists of changes, depending on comparisons of revisions. -/

namespace Leasehold.KeyValue

structure Entry where
  value : String
  created : Nat
  modified : Nat
  lease : Option Nat
deriving DecidableEq, Repr

/-- `granted` counts the leases handed out so far; `leases` holds the running ones with their time
to live. -/
structure Store where
  revision : Nat := 0
  entries : Assoc String Entry := []
  leases : Assoc Nat Int := []
  granted : Nat := 0

/-- A condition on one key: it was created, or last changed, at a given revision. A missing key has
revision zero. -/
inductive Compare where
  | created (key : String) (revision : Nat)
  | modified (key : String) (revision : Nat)
deriving DecidableEq, Repr

inductive Change where
  | put (key value : String) (lease : Option Nat)
  | delete (key : String)
deriving DecidableEq, Repr

inductive Call where
  | get (key : String)
  | grant (ttl : Int)
  | commit (compares : List Compare) (success failure : List Change)
  | revoke (lease : Nat)

/-- A reading gives text and revision, a grant the lease, a commit whether its conditions held. -/
def Reply : Call → Type
  | .get _ => Option (String × Nat)
  | .grant _ => Nat
  | .commit .. => Bool
  | .revoke _ => Unit

abbrev interface : Interface := ⟨Call, Reply⟩

namespace Store

def holds (s : Store) : Compare → Bool
  | .created key n => (s.entries.find? key).elim 0 Entry.created = n
  | .modified key n => (s.entries.find? key).elim 0 Entry.modified = n

/-- One change, at the next revision. -/
def apply (s : Store) : Change → Store
  | .put key value lease =>
    let revision := s.revision + 1
    let created := (s.entries.find? key).elim revision Entry.created
    { s with revision, entries := s.entries.put key ⟨value, created, revision, lease⟩ }
  | .delete key => { s with revision := s.revision + 1, entries := s.entries.erase key }

def grant (s : Store) (ttl : Int) : Nat × Store :=
  let lease := s.granted + 1
  (lease, { s with leases := s.leases.put lease ttl, granted := lease })

/-- The end of a lease: the lease goes, and every key that hangs on it. -/
def revoke (s : Store) (lease : Nat) : Store :=
  { s with leases := s.leases.erase lease, entries := s.entries.filter fun e => e.2.lease ≠ some lease }

end Store

def client : Session.Client interface Store
  | .get key, s => (.ok ((s.entries.find? key).map fun e => (e.value, e.modified)), s)
  | .grant ttl, s => let (lease, s') := s.grant ttl; (.ok lease, s')
  | .commit compares success failure, s =>
    let holds := compares.all s.holds
    (.ok holds, (if holds then success else failure).foldl Store.apply s)
  | .revoke lease, s => (.ok (), s.revoke lease)

end Leasehold.KeyValue
