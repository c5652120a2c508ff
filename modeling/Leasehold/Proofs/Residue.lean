import Leasehold.Proofs.Backend
import Leasehold.Proofs.Execution.Documents
import Leasehold.Proofs.Execution.Items
import Leasehold.Proofs.Execution.KeyValue
import Leasehold.Proofs.Execution.Memory
import Leasehold.Proofs.Execution.Table
import Leasehold.Proofs.Tenure

/-!
# What a failure leaves behind

An operation that reads, decides and then writes leaves nothing behind when it fails, wherever a
call failed and whatever is stored (`failure_leaves_nothing`). A conditional write decides at once,
and what it hands back is read when it is too late: `failure_leaves_nothing_iff` tells which
operations fail after their write, so that they have changed the table. That is told of clients with
the limits of real ones.
-/

namespace Leasehold
open Session

/-- A failed session has done what a failed attempt has, and nothing when the checks refused it. -/
theorem Operation.ensures_failed {I : Interface} {σ : Type} {clients : Set (Client I σ)} {s : σ}
    {op : Operation} (service : Service I) (kept : σ → Prop) (hs : kept s) :
    Ensures clients (fun r s' => Failed r → kept s') (op.session service) s ↔
      ∀ c, op.check = .ok c → Ensures clients (fun r s' => Unsuccessful r → kept s')
        (op.attempt service c) s := by
  cases h : op.check with
  | error e =>
    refine iff_of_true ((ensures_session_of_error service h).mpr fun _ => hs) ?_
    rintro _ ⟨⟩
  | ok c =>
    rw [ensures_session service h]
    simp only [failed_answer, Except.ok.injEq, forall_eq']

/-! ### Stores that are read first -/

namespace Backend

/-- In a key-value store no entry hangs on a lease that is yet to be granted. -/
def Fresh : (b : Backend) → b.system.Store → Prop
  | keyValue _, s => KeyValue.Fresh s
  | memory, _ | table _, _ | items _, _ | documents _, _ => True

theorem ensures_kept {b : Backend} (hb : b.ReadsFirst) {s : b.system.Store} (hs : b.Fresh s)
    {op : Operation} {c : Claim} (h : op.check = .ok c) :
    Ensures (troubled b.system.clients fun _ => True)
      (fun r s' => Unsuccessful r → ∀ k, b.system.raw s' k = b.system.raw s k)
        (op.attempt b.system.service c) s := by
  cases b with
  | memory =>
    rw [System.clients_eq rfl]
    refine (Memory.ensures_kept h).mono fun r s' hr hu k => ?_
    rw [hr hu]
  | keyValue options =>
    -- the course of the operation is known with the calls recorded
    refine Ensures.of_recorded ((KeyValue.ensures_attempt h hs).mono fun r p hr hu k => ?_)
    obtain ⟨v, rfl, hkept, -⟩ := hr
    show Assoc.find? p.1.entries k = Assoc.find? s.entries k
    rw [hkept (hu v rfl)]
  | documents options =>
    rw [System.clients_eq rfl]
    refine (Documents.ensures_kept h).mono fun r s' hr hu k => ?_
    rw [hr hu]
  | table options => exact hb.elim
  | items options => exact hb.elim

end Backend

/-- A failed operation on conditional items or on an SQL table has changed nothing, unless it fails
after its write. -/
theorem failure_leaves_nothing_iff {op : Operation} {c : Claim} (h : op.check = .ok c) :
    (∀ (options : Items.Options) (s : Items.Store),
      Ensures (troubled {Items.limitedClient} fun _ => True)
        (fun r s' => Failed r → s' = s) (op.session (Items.service options)) s ↔
        ¬ Items.FailsAfterWrite options op c s) ∧
    ∀ (options : Table.Options) (s : Table.Store),
      Ensures (troubled {Table.limitedClient} fun _ => True)
        (fun r s' => Failed r → s' = s) (op.session (Table.service options)) s ↔
        ¬ Table.FailsAfterWrite options op c s := by
  refine ⟨fun options s => ?_, fun options s => ?_⟩
  · rw [Operation.ensures_failed _ (· = s) rfl, ← Items.ensures_kept h]
    simp only [h, Except.ok.injEq, forall_eq']
  · rw [Operation.ensures_failed _ (· = s) rfl, ← Table.ensures_kept]
    simp only [h, Except.ok.injEq, forall_eq']

/-- A lock cannot be renewed past the greatest word, and its row stays. -/
theorem failure_leaves_nothing_at_last :
    let c : Claim := ⟨"jobs", "nightly", "ada", "one"⟩
    let last : Table.Store := { rows := [(("jobs", "nightly"), Table.rowOf c 10 Number.maxWord)] }
    let op : Operation := ⟨.renew, c.record (some 10) none, 5⟩
    op.check = .ok c ∧
      Ensures (troubled {Table.limitedClient} fun _ => True) (fun r s' => Failed r → s' = last)
        (op.session (Table.service {})) last := by
  intro c last op
  have hcheck : op.check = .ok c := rfl
  refine ⟨hcheck, ((failure_leaves_nothing_iff hcheck).2 {} last).mpr ?_⟩
  rintro ⟨-, _, _, _, hx, -⟩
  have hlong : last.executeLimited (Table.statement {} op c) = .error Table.outOfRange := rfl
  rw [hlong] at hx
  cases hx

/-- An expired item of which only key and expiry are left is replaced, and the acquisition fails. A
row without a lease gets a later expiry, and the renewal fails. -/
theorem not_failure_leaves_nothing :
    (¬ ∀ (options : Items.Options) (op : Operation) (c : Claim) (s : Items.Store),
      op.check = .ok c → Ensures (troubled {Items.limitedClient} fun _ => True)
        (fun r s' => Failed r → s' = s) (op.session (Items.service options)) s) ∧
    ¬ ∀ (options : Table.Options) (op : Operation) (c : Claim) (s : Table.Store),
      op.check = .ok c → Ensures (troubled {Table.limitedClient} fun _ => True)
        (fun r s' => Failed r → s' = s) (op.session (Table.service options)) s := by
  let c : Claim := ⟨"jobs", "nightly", "ada", "one"⟩
  constructor
  · intro h
    let bare : Items.Store :=
      [("jobs:nightly", [("lockId", .text "jobs:nightly"), ("expiry", .int 1)])]
    let op : Operation := ⟨.acquire, c.record (some 5) (some 15), 10⟩
    have hcheck : op.check = .ok c := rfl
    have hkept := (Operation.ensures_failed _ (· = bare) rfl).mp (h {} op c bare hcheck) c hcheck
    have hsize (s : Items.Store) (hs : s.map (·.2.length) ≠ bare.map (·.2.length)) : s ≠ bare :=
      fun he => hs (he ▸ rfl)
    exact (Items.ensures_kept hcheck).mp hkept
      ⟨hsize _ (by decide), .missing "namespace", by decide +kernel⟩
  · intro h
    let row (expiry : Int) : Table.Row := (Table.rowOf c 10 expiry).put "lease_duration" .null
    let unleased (expiry : Int) : Table.Store := { rows := [(("jobs", "nightly"), row expiry)] }
    let op : Operation := ⟨.renew, c.record (some 5) none, 10⟩
    have hcheck : op.check = .ok c := rfl
    have hkept := (Operation.ensures_failed _ (· = unleased 15) rfl).mp
      (h {} op c (unleased 15) hcheck) c hcheck
    have hextended : (unleased 15).executeLimited (Table.statement {} op c) =
        .ok (some (Table.shown (row 20)), unleased 20) := rfl
    have hmoved : unleased 20 ≠ unleased 15 := by
      intro he
      have hrow := congrArg Prod.snd (List.head_eq_of_cons_eq (congrArg Table.Store.rows he))
      exact absurd hrow (by decide)
    exact Table.ensures_kept.mp hkept ⟨rfl, _, _, _, hextended, hmoved, rfl⟩

end Leasehold
