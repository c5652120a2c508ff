import Leasehold.Service
import Leasehold.Store.Memory

/-! # Locks in memory: the service

Each operation reads the record, decides, and writes. Unlike the other services it clears the key on
every successful release, an expired record included. -/

namespace Leasehold.Memory

def read (key : String) : Session interface (Option Lock) := Session.ask (I := interface) (.read key)

def write (key : String) (l : Lock) : Session interface Unit := Session.ask (I := interface) (.write key l)

def remove (key : String) : Session interface Unit := Session.ask (I := interface) (.remove key)

def clear : Session interface Unit := Session.ask (I := interface) .clear

def find (realm name : String) : Session interface (Option Lock) :=
  read (Lock.keyOf realm name)

def acquire (claim : RawClaim) (lease expiry now : Int) : Session interface Outcome := do
  let l := claim.lock (some lease) (some expiry)
  let existing ← read claim.key
  let o := Decision.acquire existing l now
  if o.isSuccess then
    write claim.key l
    return o
  else return o

def renew (claim : RawClaim) (delta now : Int) : Session interface (Outcome × Option Lock) := do
  let existing ← read claim.key
  match Decision.renew existing (claim.lock (some delta) none) now with
  | (o, some l) =>
    write claim.key l
    return (o, some l)
  | (o, none) => return (o, none)

def release (claim : RawClaim) (now : Int) : Session interface Outcome := do
  let existing ← read claim.key
  let o := Decision.release existing (claim.lock none none) now
  if o.isSuccess then
    remove claim.key
    return o
  else return o

def service : Service interface := { name := "memory", find, acquire, renew, release }

end Leasehold.Memory
