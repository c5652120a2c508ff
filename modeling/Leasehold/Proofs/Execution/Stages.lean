import Leasehold.Proofs.Atomicity
import Leasehold.Proofs.Execution.KeyValue
import Leasehold.Proofs.Session.Protocol

/-!
# The stages of an operation on a key-value store

An operation on a key-value store runs through stages: it reads its key, decides, has a lease
granted, commits, and gives back the lease of a lost commit before it tries again. `protocol` is the
machine of these stages, and every operation follows it (`follows_session`), whatever its calls are
replied and whoever else changes the store.

`Moves` lists all that a single call can do to a stage. What is to be shown of every course of an
operation is shown of each of these moves (`allows_induction`).
-/

namespace Leasehold.KeyValue
open Session

/-- What an operation is about to do. A record is put only if the rules want it put, and a key is
deleted only if they want it deleted. Whoever is through may leave a lease behind. -/
inductive Place (op : Operation) where
  | read
  | grant (existing : Option Lock) (revision : Nat) (l : Lock) (h : op.effect existing = .put l)
  | put (existing : Option Lock) (revision : Nat) (text : String) (lease : Nat)
    (h : ∃ l, op.effect existing = .put l ∧ recordText l = .ok text)
  | delete (existing : Option Lock) (revision : Nat) (h : op.effect existing = .delete)
  | revoke (lease : Nat)
  | through (v : Verdict) (left : Option Nat)

/-- Where an operation stands, and how many commits it has lost. -/
structure Stage (op : Operation) where
  lost : Nat
  place : Place op

section Stages
variable (options : Options) (op : Operation)

/-- Where the effect leads that the rules want. -/
def Place.ofEffect {op : Operation} (existing : Option Lock) (revision : Nat) :
    (e : Operation.Effect) → op.effect existing = e → Place op
  | .keep, _ => .through (op.decide existing) none
  | .put l, h => .grant existing revision l h
  | .delete, h => .delete existing revision h

/-- Where a reading leads. -/
def decided (existing : Option Lock) (revision : Nat) :
    Place op := .ofEffect existing revision (op.effect existing) rfl

/-- The next attempt, if there is one. -/
def again (lost : Nat) : Stage op :=
  ⟨lost, if lost ≤ options.retries then .read else .through (op.kind.exhausted, none) none⟩

def failed (left : Option Nat) : Place op := .through (op.kind.failed, none) left

namespace Place
variable {op}

def call : Place op → Option Call
  | .read => some (.get (options.key op))
  | .grant _ _ l _ => some (.grant (timeToLive l op.now))
  | .put _ revision text lease _ =>
    some (.commit [unchanged (options.key op) revision]
      [.put (options.key op) text (some lease)] [])
  | .delete _ revision _ =>
    some (.commit [unchanged (options.key op) revision] [.delete (options.key op)] [])
  | .revoke lease => some (.revoke lease)
  | .through .. => none

/-- The lease that is left when the next call fails. That of a failed revocation counts as given
back. -/
def leaseIfFails : Place op → Option Nat
  | .put _ _ _ lease _ => some lease
  | _ => none

def next (lost : Nat) : Place op → (c : Call) → Except Fault (Reply c) → Stage op
  | .read, .get _, .ok none => ⟨lost, decided op none 0⟩
  | .read, .get _, .ok (some (text, revision)) =>
    match ofRecordText text with
    | .ok l => ⟨lost, decided op (some l) revision⟩
    | .error _ => ⟨lost, failed op none⟩
  | .grant existing revision l h, .grant _, .ok lease =>
    match ht : recordText l with
    | .ok text => ⟨lost, .put existing revision text lease ⟨l, h, ht⟩⟩
    | .error _ => ⟨lost, failed op (some lease)⟩
  | .put existing _ _ _ _, .commit .., .ok true => ⟨lost, .through (op.decide existing) none⟩
  | .put _ _ _ lease _, .commit .., .ok false => ⟨lost + 1, .revoke lease⟩
  | .delete existing _ _, .commit .., .ok true => ⟨lost, .through (op.decide existing) none⟩
  | .delete .., .commit .., .ok false => again options op (lost + 1)
  | .revoke _, .revoke _, .ok _ => again options op lost
  | p, _, _ => ⟨lost, failed op p.leaseIfFails⟩

end Place

/-- The machine of an operation. -/
def protocol : Protocol interface (Stage op) where
  start := ⟨0, .read⟩
  may := fun p c => p.place.call options = some c
  next := fun p c reply => p.place.next options p.lost c reply

/-- The operation has come to an end: it answers the verdict, unless it was refused without a
call. -/
def Ended (r : Except Error Answer) (p : Stage op) : Prop :=
  match op.check with
  | .ok _ => ∃ v left, r = .ok (op.answer v) ∧ p.place = .through v left
  | .error e => r = .error e

/-- All that a call can do. -/
inductive Moves (lost : Nat) : Place op → Step interface → Stage op → Prop
  | absent : Moves lost .read ⟨.get (options.key op), .ok none⟩ ⟨lost, decided op none 0⟩
  | found {text : String} {revision : Nat} {l : Lock} (ht : ofRecordText text = .ok l) :
    Moves lost .read ⟨.get (options.key op), .ok (some (text, revision))⟩
      ⟨lost, decided op (some l) revision⟩
  | unreadable {text : String} {revision : Nat} {f : Fault} (ht : ofRecordText text = .error f) :
    Moves lost .read ⟨.get (options.key op), .ok (some (text, revision))⟩ ⟨lost, failed op none⟩
  | granted {existing : Option Lock} {revision : Nat} {l : Lock} {h : op.effect existing = .put l}
    {text : String}
    (lease : Nat) (ht : recordText l = .ok text) :
    Moves lost (.grant existing revision l h) ⟨.grant (timeToLive l op.now), .ok lease⟩
      ⟨lost, .put existing revision text lease ⟨l, h, ht⟩⟩
  | unwritable {existing : Option Lock} {revision : Nat} {l : Lock}
    {h : op.effect existing = .put l} {f : Fault}
    (lease : Nat) (ht : recordText l = .error f) :
    Moves lost (.grant existing revision l h) ⟨.grant (timeToLive l op.now), .ok lease⟩
      ⟨lost, failed op (some lease)⟩
  | written {existing : Option Lock} {revision : Nat} {text : String} {lease : Nat}
    {h : ∃ l, op.effect existing = .put l ∧ recordText l = .ok text} :
    Moves lost (.put existing revision text lease h)
      ⟨.commit [unchanged (options.key op) revision] [.put (options.key op) text (some lease)]
        [], .ok true⟩
      ⟨lost, .through (op.decide existing) none⟩
  | beaten {existing : Option Lock} {revision : Nat} {text : String} {lease : Nat}
    {h : ∃ l, op.effect existing = .put l ∧ recordText l = .ok text} :
    Moves lost (.put existing revision text lease h)
      ⟨.commit [unchanged (options.key op) revision] [.put (options.key op) text (some lease)]
        [], .ok false⟩
      ⟨lost + 1, .revoke lease⟩
  | deleted {existing : Option Lock} {revision : Nat} {h : op.effect existing = .delete} :
    Moves lost (.delete existing revision h)
      ⟨.commit [unchanged (options.key op) revision] [.delete (options.key op)] [], .ok true⟩
      ⟨lost, .through (op.decide existing) none⟩
  | forestalled {existing : Option Lock} {revision : Nat} {h : op.effect existing = .delete} :
    Moves lost (.delete existing revision h)
      ⟨.commit [unchanged (options.key op) revision] [.delete (options.key op)] [], .ok false⟩
      (again options op (lost + 1))
  | revoked {lease : Nat} : Moves lost (.revoke lease) ⟨.revoke lease, .ok ()⟩
    (again options op lost)
  | failed {p : Place op} {c : Call} (f : Fault) (hc : p.call options = some c) :
    Moves lost p ⟨c, .error f⟩ ⟨lost, failed op p.leaseIfFails⟩

end Stages

section Lemmas
variable {options : Options} {op : Operation} {c : Claim}

theorem decided_eq {existing : Option Lock} {e : Operation.Effect} (h : op.effect existing = e)
    (revision : Nat) :
    decided op existing revision = .ofEffect existing revision e h := by
  subst h; rfl

theorem again_of_le {lost : Nat} (h : lost ≤ options.retries) :
    again options op lost = ⟨lost, .read⟩ := by
  rw [again, if_pos h]

theorem again_of_lt {lost : Nat} (h : options.retries < lost) :
    again options op lost = ⟨lost, .through (op.kind.exhausted, none) none⟩ := by
  rw [again, if_neg (Nat.not_le.mpr h)]

@[elab_as_elim]
theorem decided_cases {existing : Option Lock} {revision : Nat} {motive : Place op → Prop}
    (kept : motive (.through (op.decide existing) none))
    (put : ∀ l h, motive (.grant existing revision l h))
    (deleted : ∀ h, motive (.delete existing revision h)) :
    motive (decided op existing revision) := by
  cases he : op.effect existing with
  | keep => rw [decided_eq he]; exact kept
  | put l => rw [decided_eq he]; exact put l he
  | delete => rw [decided_eq he]; exact deleted he

@[elab_as_elim]
theorem again_cases {lost : Nat} {motive : Stage op → Prop}
    (exhausted : options.retries < lost → motive ⟨lost, .through (op.kind.exhausted, none) none⟩)
    (retried : lost ≤ options.retries → motive ⟨lost, .read⟩) : motive (again options op lost) := by
  rcases Nat.lt_or_ge options.retries lost with h | h
  · rw [again_of_lt h]; exact exhausted h
  · rw [again_of_le h]; exact retried h

theorem moves_of_may {p : Stage op} {call : Call} (h : (protocol options op).may p call)
    (reply : Except Fault (Reply call)) :
    Moves options op p.lost p.place ⟨call, reply⟩ ((protocol options op).next p call reply) := by
  obtain ⟨lost, place⟩ := p
  cases reply with
  | error f =>
    have hnext : (protocol options op).next ⟨lost, place⟩ call (.error f) =
      ⟨lost, failed op place.leaseIfFails⟩ := by
      cases place <;> cases call <;> rfl
    rw [hnext]
    exact .failed f h
  | ok reply =>
    cases place with
    | read =>
      cases h
      match reply with
      | none => exact .absent
      | some (text, revision) =>
        simp only [protocol, Place.next]
        split
        · rename_i ht; exact .found ht
        · rename_i ht; exact .unreadable ht
    | grant existing revision l hl =>
      cases h
      simp only [protocol, Place.next]
      split
      · rename_i ht; exact .granted _ ht
      · rename_i ht; exact .unwritable _ ht
    | put => cases h; cases (reply : Bool) with
      | true => exact .written
      | false => exact .beaten
    | delete => cases h; cases (reply : Bool) with
      | true => exact .deleted
      | false => exact .forestalled
    | revoke => cases h; exact .revoked
    | through => cases h

theorem client_error {call : Call} {s : Store} {f : Fault} : (client call s).1 ≠ .error f := by
  cases call <;> nofun

/-- What each move preserves a whole course preserves. -/
theorem allows_induction {motive : List (Step interface) → Stage op → Prop}
    (start : motive [] ⟨0, .read⟩)
    (move : ∀ {steps step p p'}, motive steps p → Moves options op p.lost p.place step p' →
      motive (steps ++ [step]) p')
    {steps : List (Step interface)} (h : (protocol options op).Allows steps) :
    motive steps ((protocol options op).after steps) := by
  induction h with
  | nil => exact start
  | concat h hmay ih =>
    rw [Protocol.after_concat]
    exact move ih (moves_of_may hmay _)

/-- At most `n` calls lead to the stage, as four make an attempt that is lost. -/
def Stage.Within (n : Nat) (p : Stage op) : Prop :=
  match p.place with
  | .read => n ≤ 4 * p.lost
  | .grant .. | .delete .. => n ≤ 4 * p.lost + 1
  | .put .. => n ≤ 4 * p.lost + 2
  | .revoke _ => n + 1 ≤ 4 * p.lost
  | .through .. => True

theorem within_decided {n lost : Nat} (h : n ≤ 4 * lost + 1) (existing : Option Lock)
    (revision : Nat) :
    Stage.Within n ⟨lost, decided op existing revision⟩ := by
  refine decided_cases ?_ (fun l hl => ?_) fun hd => ?_
  · trivial
  · exact h
  · exact h

theorem within_again {n lost : Nat} (h : n ≤ 4 * lost) : (again options op lost).Within n := by
  refine again_cases (fun hlost => ?_) fun hlost => ?_
  · trivial
  · exact h

theorem within_length {steps : List (Step interface)} (h : (protocol options op).Allows steps) :
    ((protocol options op).after steps).Within steps.length := by
  refine allows_induction (motive := fun steps (p : Stage op) => p.Within steps.length)
    (Nat.le_refl _) ?_ h
  rintro steps step ⟨lost, place⟩ p' ih hmove
  rw [List.length_append, List.length_singleton]
  cases hmove with
  | absent | found => exact within_decided (Nat.succ_le_succ ih) _ _
  | granted => exact Nat.succ_le_succ ih
  | beaten => exact Nat.succ_le_succ (Nat.succ_le_succ ih)
  | forestalled => exact within_again (Nat.le_trans (Nat.succ_le_succ ih) (by omega))
  | revoked => exact within_again ih
  | unreadable | unwritable | written | deleted => trivial
  | failed f hc => cases place <;> trivial

/-! ### Operations follow their stages -/

/-- How one attempt ends. -/
def Attempted (options : Options) (op : Operation) (lost : Nat) (r : Except Error (Option Verdict))
    (p : Stage op) : Prop :=
  match r with
  | .ok (some v) => ∃ left, p.place = .through v left
  | .ok none => p = again options op (lost + 1)
  | .error _ => ∃ left, p.place = failed op left

theorem follows_put {existing : Option Lock} {revision : Nat} {l : Lock}
    (h : op.effect existing = .put l) (lost : Nat) :
    ((putIfUnchanged (options.key op) revision l op.now).bind fun committed =>
      done (if committed then some (op.decide existing) else none)).Follows (protocol options op)
      (Attempted options op lost) ⟨lost, .grant existing revision l h⟩ := by
  rw [follows_bind, putIfUnchanged, bind_eq, follows_bind]
  refine follows_ask rfl fun reply => ?_
  cases reply with
  | error f => exact ⟨_, rfl⟩
  | ok lease =>
    dsimp only [Except.mapError, protocol, Place.next]
    split
    · rename_i text ht
      simp only [ht, ofReading, bind_eq, Session.bind, follows_bind]
      refine follows_ask rfl fun reply => ?_
      rcases reply with f | committed
      · exact ⟨_, rfl⟩
      cases (committed : Bool) with
      | true => exact ⟨_, rfl⟩
      | false =>
        show ((revoke lease).bind fun _ => done false).Follows _ _ _
        rw [follows_bind]
        refine follows_ask rfl fun reply => ?_
        cases reply with
        | error f => exact ⟨_, rfl⟩
        | ok _ => rfl
    · rename_i f ht
      simp only [ht, ofReading, bind_eq, Session.bind, follows_fail]
      exact ⟨_, rfl⟩

theorem follows_delete {existing : Option Lock} {revision : Nat} (h : op.effect existing = .delete)
    (lost : Nat) :
    ((deleteIfUnchanged (options.key op) revision).bind fun committed =>
      done (if committed then some (op.decide existing) else none)).Follows (protocol options op)
      (Attempted options op lost) ⟨lost, .delete existing revision h⟩ := by
  rw [follows_bind, deleteIfUnchanged]
  refine follows_ask rfl fun reply => ?_
  rcases reply with f | committed
  · exact ⟨_, rfl⟩
  cases (committed : Bool) with
  | true => exact ⟨_, rfl⟩
  | false => rfl

theorem follows_decided (existing : Option Lock) (revision lost : Nat) :
    (match op.effect existing with
      | .keep => done (some (op.decide existing))
      | .put l => (putIfUnchanged (options.key op) revision l op.now).bind fun committed =>
        done (if committed then some (op.decide existing) else none)
      | .delete => (deleteIfUnchanged (options.key op) revision).bind fun committed =>
        done (if committed then some (op.decide existing) else none)).Follows (protocol options op)
      (Attempted options op lost) ⟨lost, decided op existing revision⟩ := by
  cases he : op.effect existing with
  | keep => rw [decided_eq he]; exact ⟨_, rfl⟩
  | put l => rw [decided_eq he]; exact follows_put he lost
  | delete => rw [decided_eq he]; exact follows_delete he lost

theorem follows_tries (h : op.check = .ok c) (lost : Nat) :
    (tries options op c).Follows (protocol options op) (Attempted options op lost)
      ⟨lost, .read⟩ := by
  rw [tries, ← key_of_check h, read, bind_eq, Session.bind_assoc, follows_bind]
  refine follows_ask rfl fun reply => ?_
  rcases reply with f | _ | ⟨text, revision⟩
  · exact ⟨_, rfl⟩
  · exact follows_decided none 0 lost
  · dsimp only [Except.mapError, protocol, Place.next]
    cases ofRecordText text with
    | error f => exact ⟨_, rfl⟩
    | ok l => exact follows_decided (some l) revision lost

theorem follows_retry (h : op.check = .ok c) {operation : Action} (left : Nat) {lost : Nat}
    (hl : lost + left = options.retries + 1) :
    (retry operation (options.retries + 1) (tries options op c) left).Follows (protocol options op)
      (fun r p => match r with
      | .ok (some v) => ∃ left, p.place = .through v left
      | .ok none => ∃ left, p.place = .through (op.kind.exhausted, none) left
      | .error _ => ∃ left, p.place = failed op left) (again options op lost) := by
  induction left generalizing lost with
  | zero =>
    rw [again_of_lt (by omega)]
    exact ⟨none, rfl⟩
  | succ left ih =>
    rw [retry, follows_bind, again_of_le (by omega)]
    refine (follows_tries h lost).mono fun r p hr => ?_
    rcases r with e | _ | v
    · exact hr
    · obtain rfl : p = again options op (lost + 1) := hr
      exact ih (by omega)
    · exact hr

/-- An operation follows its stages. -/
theorem follows_session (options : Options) (op : Operation) :
    (op.session (service options)).Follows (protocol options op) (Ended op)
      (protocol options op).start := by
  cases h : op.check with
  | error e => rw [op.session_of_error _ h]; exact show Ended op (.error e) _ by rw [Ended, h]
  | ok c =>
    have hended {v : Verdict} {p : Stage op} (hp : ∃ left, p.place = .through v left) :
        Ended op (.ok (op.answer v)) p := by
      obtain ⟨left, hp⟩ := hp
      rw [Ended, h]
      exact ⟨v, left, rfl, hp⟩
    have hstart : again options op 0 = (protocol options op).start := again_of_le (Nat.zero_le _)
    rw [op.session_of_check _ h, follows_bind, attempt_eq options h, operate, Service.guarded,
      follows_rescue, bind_eq,
      follows_bind, ← hstart]
    refine (follows_retry h (options.retries + 1) (Nat.zero_add _)).mono fun r p hr => ?_
    rcases r with e | _ | v <;> exact hended hr

end Lemmas

/-! ### Accounts -/

/-- What some calls come to. -/
structure Account where
  reads : Nat := 0
  /-- For each transaction, the lease that it is to put a record under. -/
  transactions : List (Option Nat) := []
  /-- Those of the transactions that have been lost. -/
  losses : List (Option Nat) := []
  /-- Those of the transactions that have gone through. -/
  successes : List (Option Nat) := []
  granted : List Nat := []
  /-- The leases that were to be revoked. -/
  revoked : List Nat := []
deriving DecidableEq, Repr

def leaseOf : List Change → Option Nat
  | [.put _ _ lease] => lease
  | _ => none

namespace Account

def add (a : Account) : Step interface → Account
  | ⟨.get _, _⟩ => { a with reads := a.reads + 1 }
  | ⟨.grant _, .ok (lease : Nat)⟩ => { a with granted := a.granted ++ [lease] }
  | ⟨.grant _, .error _⟩ => a
  | ⟨.commit _ changes _, reply⟩ =>
    { a with
      transactions := a.transactions ++ [leaseOf changes]
      losses := match reply with
        | .ok false => a.losses ++ [leaseOf changes]
        | _ => a.losses
      successes := match reply with
        | .ok true => a.successes ++ [leaseOf changes]
        | _ => a.successes }
  | ⟨.revoke lease, _⟩ => { a with revoked := a.revoked ++ [lease] }

end Account

def account (steps : List (Step interface)) : Account := steps.foldl .add {}

@[simp] theorem account_concat (steps : List (Step interface)) (step : Step interface) :
    account (steps ++ [step]) = (account steps).add step := by
  rw [account, List.foldl_append]; rfl

section Accounts
variable {options : Options} {op : Operation} {steps : List (Step interface)}

theorem length_concat_of_eq {α : Type} {l : List α} {x : α} {n : Nat} (h : l.length = n) :
    (l ++ [x]).length = n + 1 := by
  rw [List.length_append, h]; rfl

theorem length_losses (h : (protocol options op).Allows steps) :
    (account steps).losses.length = ((protocol options op).after steps).lost := by
  refine allows_induction
    (motive := fun steps (p : Stage op) => (account steps).losses.length = p.lost) rfl ?_ h
  rintro steps step ⟨lost, place⟩ p' ih hmove
  rw [account_concat]
  cases hmove with
  | beaten | forestalled => exact length_concat_of_eq ih
  | absent | found | unreadable | granted | unwritable | written | deleted | revoked => exact ih
  | failed f hc => cases place <;> cases hc <;> exact ih

end Accounts

end Leasehold.KeyValue
