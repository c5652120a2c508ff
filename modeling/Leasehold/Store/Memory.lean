import Leasehold.Session
import Leasehold.Lock.Basic

/-! # Locks in memory

The store of a single process: records by key. Its calls cannot fail. -/

namespace Leasehold.Memory

abbrev Store := Assoc String Lock

inductive Call where
  | read (key : String)
  | write (key : String) (lock : Lock)
  | remove (key : String)
  | clear

def Reply : Call → Type
  | .read _ => Option Lock
  | .write .. => Unit
  | .remove _ => Unit
  | .clear => Unit

abbrev interface : Interface := ⟨Call, Reply⟩

def client : Session.Client interface Store
  | .read key, s => (.ok (Assoc.find? s key), s)
  | .write key l, s => (.ok (), Assoc.put s key l)
  | .remove key, s => (.ok (), Assoc.erase s key)
  | .clear, _ => (.ok (), [])

end Leasehold.Memory
