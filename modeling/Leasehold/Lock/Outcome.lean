/-! # Outcomes

The verdict of a store on one operation, as a code. Each code belongs to one operation, and says
whether the operation succeeded and whether it gave up after losing every race. -/

namespace Leasehold

/-- An operation under way, or how it ended. -/
inductive Action where
  | get
  | acquire
  | renew
  | release
  | success
  | failed
deriving DecidableEq, Repr

def Action.name : Action → String
  | .get => "GET"
  | .acquire => "ACQUIRE"
  | .renew => "RENEW"
  | .release => "RELEASE"
  | .success => "SUCCESS"
  | .failed => "FAILED"

def Action.label : Action → String
  | .get => "get"
  | .acquire => "acquire"
  | .renew => "renew"
  | .release => "release"
  | .success => "success"
  | .failed => "failed"

inductive Outcome where
  | acquired
  | lockReplaced
  | acquireConflict
  | acquireError
  | acquireMaxRetries
  | renewed
  | renewNotFound
  | renewMismatch
  | renewExpired
  | renewConflict
  | renewError
  | renewMaxRetries
  | released
  | releasedNotFound
  | releasedExpired
  | releaseConflict
  | releaseError
  | releaseMaxRetries
deriving DecidableEq, Repr

namespace Outcome

def all : List Outcome :=
  [.acquired, .lockReplaced, .acquireConflict, .acquireError, .acquireMaxRetries,
   .renewed, .renewNotFound, .renewMismatch, .renewExpired, .renewConflict, .renewError, .renewMaxRetries,
   .released, .releasedNotFound, .releasedExpired, .releaseConflict, .releaseError, .releaseMaxRetries]

def code : Outcome → String
  | acquired => "ACQUIRED"
  | lockReplaced => "LOCK_REPLACED"
  | acquireConflict => "ACQUIRE_CONFLICT"
  | acquireError => "ACQUIRE_ERROR"
  | acquireMaxRetries => "ACQUIRE_MAX_RETRIES"
  | renewed => "RENEWED"
  | renewNotFound => "RENEW_NOT_FOUND"
  | renewMismatch => "RENEW_MISMATCH"
  | renewExpired => "RENEW_EXPIRED"
  | renewConflict => "RENEW_CONFLICT"
  | renewError => "RENEW_ERROR"
  | renewMaxRetries => "RENEW_MAX_RETRIES"
  | released => "RELEASED"
  | releasedNotFound => "RELEASED_NOT_FOUND"
  | releasedExpired => "RELEASED_EXPIRED"
  | releaseConflict => "RELEASE_CONFLICT"
  | releaseError => "RELEASE_ERROR"
  | releaseMaxRetries => "RELEASE_MAX_RETRIES"

def ofCode? (s : String) : Option Outcome := all.find? fun o => o.code = s

def operation : Outcome → Action
  | acquired | lockReplaced | acquireConflict | acquireError | acquireMaxRetries => .acquire
  | renewed | renewNotFound | renewMismatch | renewExpired | renewConflict | renewError | renewMaxRetries => .renew
  | released | releasedNotFound | releasedExpired | releaseConflict | releaseError | releaseMaxRetries => .release

/-- The caller holds the lock now. -/
def isHeld : Outcome → Bool
  | acquired | lockReplaced | renewed => true
  | _ => false

/-- The caller no longer holds the lock, as it asked. -/
def isCleared : Outcome → Bool
  | released | releasedNotFound | releasedExpired => true
  | _ => false

def isSuccess (o : Outcome) : Bool := o.isHeld || o.isCleared

/-- Every attempt lost its race; the caller should wait longer than after a plain conflict. -/
def retriesExhausted : Outcome → Bool
  | acquireMaxRetries | renewMaxRetries | releaseMaxRetries => true
  | _ => false

/-- The store failed or held something that is no lock record. -/
def isError : Outcome → Bool
  | acquireError | renewError | releaseError => true
  | _ => false

end Outcome

end Leasehold
