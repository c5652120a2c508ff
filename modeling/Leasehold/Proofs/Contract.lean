import Leasehold.Proofs.Backend
import Leasehold.Proofs.Execution.Documents
import Leasehold.Proofs.Execution.Items
import Leasehold.Proofs.Execution.KeyValue
import Leasehold.Proofs.Execution.Memory
import Leasehold.Proofs.Execution.Table
import Leasehold.Proofs.Tenure

/-!
# What is answered

A reading answers a record or none, an operation an answer, whatever the client of the store reports
and whatever the store holds: that is the contract. `answered_iff` tells on which stores it is kept.
A map in memory and a key-value store always keep it. The other services answer for some kinds of
faults only, and what is stored may be unreadable for a reason of another kind: a reading
(`Backend.FindRaises`) or an operation (`Backend.OperationRaises`) then raises, and an error gets
through. The clients have the limits of real ones (`Backend.limited`), and that of conditional items
reports a number of too many digits in a way that its service does not answer for.
-/

namespace Leasehold
open Session

namespace Backend

/-- The faults that the client of the store may report: a map in memory has none, the client of a
key-value store any, and the others the errors of their own libraries. -/
def Reports : Backend → Fault → Prop
  | memory, _ => False
  | keyValue _, _ => True
  | table _, f => f.kind ∈ [.database, .databaseClient, .system, .disconnected, .refused, .timeout]
  | items _, f => f.kind ∈ [.response, .unreachable, .transport]
  | documents _, f => f.kind ∈ [.unavailable, .deadline, .aborted, .remote]

/-- The clients of the store, with the limits of numbers. -/
def limited : (b : Backend) → Set (Client b.system.I b.system.Store)
  | table _ => {Table.limitedClient}
  | items _ => {Items.limitedClient}
  | memory => memory.system.clients
  | keyValue options => (keyValue options).system.clients
  | documents options => (documents options).system.clients

/-- What is stored under the lock cannot be read, for a reason that a reading does not answer
for. -/
def FindRaises : (b : Backend) → b.system.Store → (realm name : String) → Prop
  | memory, _, _, _ => False
  | keyValue _, _, _, _ => False
  | table _, s, realm, name =>
    Escapes Table.answered (Table.reading (Assoc.find? s.rows (realm, name)))
  | items _, s, realm, name =>
    Escapes Items.answered (Items.reading (Assoc.find? s (Lock.keyOf realm name)))
  | documents options, s, realm, name =>
    Escapes Documents.answered
      (Documents.reading (Assoc.find? s (Documents.pathOf options realm name)))

/-- The operation comes upon something that it does not answer for. -/
def OperationRaises : (b : Backend) → Operation → Claim → b.system.Store → Prop
  | memory, _, _, _ => False
  | keyValue _, _, _, _ => False
  | table options, op, c, s => Table.Raises options op c s
  | items options, op, c, s => Items.Raises options op c s
  | documents options, op, c, s => Documents.Raises options op c s

variable (b : Backend) {s : b.system.Store}

theorem Reports.answered_table {options : Table.Options} {f : Fault}
    (h : (table options).Reports f) :
    f.kind ∈ Table.answered := h

theorem Reports.answered_items {options : Items.Options} {f : Fault}
    (h : (items options).Reports f) :
    f.kind ∈ Items.answered := List.mem_append_left [Fault.Kind.lookup, .badValue] h

theorem Reports.answered_documents {options : Documents.Options} {f : Fault}
    (h : (documents options).Reports f) :
    f.kind ∈ Documents.answered := List.mem_append_left [Fault.Kind.lookup, .wrongType, .badValue] h

theorem ensures_find (realm name : String) :
    Ensures (troubled b.limited b.Reports) (fun r _ => ∃ l, r = .ok l)
    (b.system.service.find realm name) s ↔ ¬ b.FindRaises s realm name := by
  have answered {kinds : List Fault.Kind} {f : Fault} (hf : f.kind ∈ kinds) :
      ∃ l : Option Lock, recovered (Service.answersFor kinds) none (.error (.fault f)) = .ok l :=
    ⟨_, recovered_fault hf⟩
  cases b with
  | memory =>
    refine iff_of_true ?_ id
    show Ensures (troubled memory.system.clients fun _ => False) _ _ _
    rw [troubled_false, System.clients_eq rfl]
    exact (Memory.ensures_found realm name).mono fun _ _ hr => ⟨_, hr⟩
  | keyValue options => exact iff_of_true (KeyValue.ensures_find_answered realm name) id
  | table options =>
    refine (Table.ensures_find Table.restricts_executeLimited).trans ?_
    rw [exists_recovered]
    exact and_iff_left fun f hf => answered (Reports.answered_table hf)
  | items options =>
    refine (Items.ensures_find Items.plain_limitedClient).trans ?_
    rw [exists_recovered]
    exact and_iff_left fun f hf => answered (Reports.answered_items hf)
  | documents options =>
    show Ensures (troubled (documents options).system.clients _) _ _ _ ↔ _
    rw [System.clients_eq rfl]
    refine Documents.ensures_find.trans ?_
    rw [exists_recovered]
    exact and_iff_left fun f hf => answered (Reports.answered_documents hf)

theorem ensures_attempt {op : Operation} {c : Claim} (h : op.check = .ok c) :
    Ensures (troubled b.limited b.Reports) (fun r _ => ∃ v, r = .ok v)
      (op.attempt b.system.service c) s ↔
      ¬ b.OperationRaises op c s := by
  cases b with
  | memory =>
    refine iff_of_true ?_ id
    show Ensures (troubled memory.system.clients fun _ => False) _ _ _
    rw [troubled_false, System.clients_eq rfl]
    exact Memory.ensures_answered h
  | keyValue options => exact iff_of_true (KeyValue.ensures_answered h) id
  | table options => exact Table.ensures_answered fun _ => Reports.answered_table
  | items options => exact Items.ensures_answered h fun _ => Reports.answered_items
  | documents options =>
    show Ensures (troubled (documents options).system.clients _) _ _ _ ↔ _
    rw [System.clients_eq rfl]
    exact Documents.ensures_answered h fun _ => Reports.answered_documents

end Backend

end Leasehold
