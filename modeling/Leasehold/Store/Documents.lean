import Leasehold.Session

/-! # A transactional document store

The Firestore model: documents by path, read one at a time and written in commits. `transaction`
runs a session between begin and commit, and runs it again when the commit lost a race. -/

namespace Leasehold.Documents

abbrev Store := Assoc String Value.Fields

inductive Write where
  | set (path : String) (data : Value.Fields)
  | delete (path : String)

inductive Call where
  /-- `again` says that an attempt of the same transaction went before. -/
  | begin (again : Bool)
  | get (path : String) (inTransaction : Bool)
  | commit (writes : List Write)
  | rollback

def Reply : Call → Type
  | .begin _ => Unit
  | .get .. => Option Value.Fields
  | .commit _ => Unit
  | .rollback => Unit

abbrev interface : Interface := ⟨Call, Reply⟩

def Write.apply (s : Store) : Write → Store
  | .set path data => Assoc.put s path data
  | .delete path => Assoc.erase s path

def client : Session.Client interface Store
  | .begin _, s => (.ok (), s)
  | .get path _, s => (.ok (Assoc.find? s path), s)
  | .commit writes, s => (.ok (), writes.foldl Write.apply s)
  | .rollback, s => (.ok (), s)

/-- How often a transaction is tried. -/
def maxAttempts : Nat := 5

/-- Gives the transaction up and ends in `e`. -/
def giveUp {α : Type} (e : Error) : Session interface α := .call .rollback fun _ => .fail e

/-- Tries `body` up to `left` times. `body` answers a value and the writes to commit; a commit that
was aborted discards both. -/
def attempt {α : Type} (body : Session interface (α × List Write)) :
    (left : Nat) → (again : Bool) → Session interface α
  | 0, _ => giveUp (.fault (.contention maxAttempts))
  | left + 1, again =>
    let opened := (Session.ask (I := interface) (.begin again)).bind fun _ => body
    (opened.rescue (fun _ => true) giveUp).bind fun (a, writes) =>
      .call (.commit writes) fun
        | .ok _ => .done a
        | .error f => if f.kind = .aborted then attempt body left true else giveUp (.fault f)

/-- Runs `body` as one transaction. -/
def transaction {α : Type} (body : Session interface (α × List Write)) : Session interface α :=
  attempt body maxAttempts false

end Leasehold.Documents
