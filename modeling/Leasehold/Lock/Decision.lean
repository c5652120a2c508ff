import Leasehold.Lock.Basic
import Leasehold.Lock.Outcome

/-! # Decisions

The rules of the lock: what a store that has read the record of a lock answers to a request. -/

namespace Leasehold.Decision

/-- A free or expired lock goes to whoever asks; its holder may take it again at any time. -/
def acquire (existing : Option Lock) (requested : Lock) (now : Int) : Outcome :=
  match existing with
  | none => .acquired
  | some l =>
    if requested.isMatch l then .lockReplaced
    else if l.isActive now then .acquireConflict
    else .acquired

/-- A number, with zero for nothing. -/
def orZero (n : Option Int) : Int := n.getD 0

/-- A number, with `now` for nothing and for zero. -/
def orNow (n : Option Int) (now : Int) : Int := if orZero n = 0 then now else orZero n

/-- The record with lease and expiry moved by `delta`, counted from the stored values. -/
def extend (l : Lock) (delta now : Int) : Lock :=
  l.withLease (some (orZero l.lease + delta)) (some (orNow l.expiry now + delta))

/-- Only the holder of a live lock may extend it; the new record comes with the success. -/
def renew (existing : Option Lock) (requested : Lock) (now : Int) : Outcome × Option Lock :=
  match existing with
  | none => (.renewNotFound, none)
  | some l =>
    if !requested.isMatch l then (.renewMismatch, none)
    else if l.isExpired now then (.renewExpired, none)
    else (.renewed, some (extend l (orZero requested.lease) now))

/-- Only a live lock of someone else cannot be released; only `released` asks for a deletion. -/
def release (existing : Option Lock) (requested : Lock) (now : Int) : Outcome :=
  match existing with
  | none => .releasedNotFound
  | some l =>
    if l.isExpired now then .releasedExpired
    else if !requested.isMatch l then .releaseConflict
    else .released

/-- What a deletion that found no record of the claimant comes to, given a later reading. -/
def afterRefusedRelease (existing : Option Lock) (now : Int) : Outcome :=
  match existing with
  | none => .releasedNotFound
  | some l => if l.isExpired now then .releasedExpired else .releaseConflict

end Leasehold.Decision
