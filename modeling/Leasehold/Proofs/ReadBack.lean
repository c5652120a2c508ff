import Leasehold.Proofs.Backend
import Leasehold.Proofs.Execution.Documents
import Leasehold.Proofs.Execution.Items
import Leasehold.Proofs.Execution.KeyValue
import Leasehold.Proofs.Execution.Memory
import Leasehold.Proofs.Execution.Table
import Leasehold.Proofs.Tenure

/-!
# What was written is read back

Each store keeps a record in a form of its own: as it is, as a JSON text, as a row, as an item, as a
document. The record of an acquisition or a renewal that succeeded is read back in full, whatever
its texts and however large its numbers (`read_your_writes`): what has no such form is not written,
and then the operation does not succeed.

Nothing is assumed of what the store held before, nor of the client's calls while the operation
runs.
-/

namespace Leasehold
open Session

namespace Assoc
variable {κ α : Type} [DecidableEq κ]

theorem put_ne_nil (m : Assoc κ α) (k : κ) (a : α) : m.put k a ≠ [] := by
  intro h
  have hf := find?_put_self m k a
  rw [h] at hf
  cases hf

theorem putAll_ne_nil {m : Assoc κ α} (h : m ≠ []) (n : Assoc κ α) : m.putAll n ≠ [] := by
  induction n generalizing m with
  | nil => exact h
  | cons e n ih => exact ih (put_ne_nil m e.1 e.2)

end Assoc

namespace Operation
variable {op : Operation} {c : Claim}

theorem decide_snd_of_acquire (hk : op.kind = .acquire) (existing : Option Lock) :
    (op.decide existing).2 = none := by
  rw [← decide_snd (by rw [hk]; decide)]

end Operation

/-- The operation has answered its record, and a reading finds it. -/
structure System.Shows (S : System) (op : Operation) (c : Claim) (v : Verdict)
    (s : S.Store) : Prop where
  operation : v.1.operation = op.kind.action
  requested : op.kind = .acquire → v.2 = none
  found : Ensures {S.client} (fun r _ => r = .ok (some (v.2.getD op.lock)))
    (S.service.find c.realm c.name) s

def System.Shown (S : System) (op : Operation) (c : Claim) (r : Except Error Verdict)
    (s : S.Store) : Prop :=
  ∀ v, r = .ok v → v.1.isSuccess = true → S.Shows op c v s

namespace System
variable {S : System} {op : Operation} {c : Claim} {s : S.Store}

theorem Shown.of_unsuccessful {r : Except Error Verdict} (h : Unsuccessful r) :
    S.Shown op c r s := by
  intro v hv hs
  rw [h v hv] at hs
  cases hs

theorem Shown.of_failed : S.Shown op c (.ok (op.kind.failed, none)) s :=
  .of_unsuccessful (by rintro _ ⟨rfl⟩; cases op.kind <;> rfl)

theorem Shown.of_decide {existing : Option Lock} (hk : op.kind ≠ .release)
    (h : ∀ l, op.effect existing = .put l →
      Ensures {S.client} (fun r _ => r = .ok (some l)) (S.service.find c.realm c.name) s) :
    S.Shown op c (.ok (op.decide existing)) s := by
  rintro v ⟨rfl⟩ hs
  exact ⟨Operation.operation_decide existing, fun ha => Operation.decide_snd_of_acquire ha existing,
    h _ (Operation.effect_of_success hk hs)⟩

end System

variable {op : Operation} {c : Claim} {P : Fault → Prop}

/-! ### Records in memory -/

theorem Memory.ensures_shown {s : Store} (h : op.check = .ok c) (hk : op.kind ≠ .release) :
    Ensures (troubled {client} P) (system.Shown op c) (op.attempt service c) s := by
  refine (ensures_attempt h).mpr
    ⟨.of_decide hk fun l hl => ?_, fun _ _ => .of_unsuccessful (by rintro _ ⟨⟩)⟩
  rw [leaves_put hl]
  exact (ensures_found c.realm c.name).mono fun _ _ hr =>
    hr.trans (congrArg Except.ok (Assoc.find?_put_self ..))

/-! ### Texts in a key-value store -/

namespace KeyValue
variable {options : Options} {s : Store}

theorem ensures_shown (h : op.check = .ok c) (hk : op.kind ≠ .release) :
    Ensures (unreliable P) ((system options).Shown op c) (op.attempt (service options) c) s := by
  refine (ensures_through_attempt h).mono fun r t hr v hv hs => ?_
  obtain ⟨existing, rfl, hlaid⟩ := hr v hv hs
  suffices hshown : (system options).Shown op c (.ok (op.decide existing)) t from hshown _ rfl hs
  refine .of_decide hk fun l hl => ?_
  obtain ⟨text, lease, before, ht, -, rfl⟩ := hlaid l hl
  exact (ensures_found (Assoc.find?_put_self ..)).mono fun r _ hr => by
    rw [hr, ofRecordText_recordText (Operation.isRecord_of_put h hl) ht]; rfl

end KeyValue

/-! ### Rows of an SQL table -/

namespace Table
variable {options : Options} {s s' : Store}

theorem rows_of_upsert {lease expiry : Int} {clock : Clock} {row : Row}
    (h : s.execute (.upsert c lease expiry clock) = .ok (some row, s')) :
    s'.rows = s.rows.put (c.realm, c.name) (rowOf c lease expiry) := by
  simp only [Store.execute, bound_raw, ok_bind] at h
  split at h
  · cases h
    rfl
  · obtain ⟨expired, -, h⟩ := ok_of_bind h
    obtain ⟨held, -, h⟩ := ok_of_bind h
    split at h <;> cases h
    rfl

theorem rows_of_extend {delta : Int} {clock : Clock} {row : Row}
    (h : s.execute (.extend c delta clock) = .ok (some row, s')) :
    ∃ row', row = shown row' ∧ s'.rows = s.rows.put (c.realm, c.name) row' := by
  simp only [Store.execute, bound_raw, ok_bind] at h
  split at h
  · cases h
  · obtain ⟨lease, -, h⟩ := ok_of_bind h
    obtain ⟨expiry, -, h⟩ := ok_of_bind h
    obtain ⟨expired, -, h⟩ := ok_of_bind h
    obtain ⟨held, -, h⟩ := ok_of_bind h
    split at h <;> cases h
    exact ⟨_, rfl, rfl⟩

theorem shows_of_statement {row : Row} {v : Verdict} (h : op.check = .ok c)
    (hk : op.kind ≠ .release) (hx : s.execute (statement options op c) = .ok (some row, s'))
    (hv : verdict op (some row) = .ok v) :
    (system options).Shows op c v s' := by
  cases hkind : op.kind with
  | release => exact absurd hkind hk
  | acquire =>
    simp only [statement, hkind] at hx
    simp only [verdict, hkind] at hv
    cases hv
    have hrow := (holds_rowOf c op.delta (Decision.orZero op.lock.expiry)).shown.ofRow
    rw [Operation.acquire_request h hkind] at hrow
    refine ⟨hkind ▸ rfl, fun _ => rfl, ensures_row_found ?_ hrow⟩
    rw [rows_of_upsert hx]
    exact Assoc.find?_put_self ..
  | renew =>
    simp only [statement, hkind] at hx
    simp only [verdict, hkind] at hv
    cases hl : ofRow row with
    | error f => rw [hl] at hv; cases hv
    | ok l =>
      rw [hl] at hv
      cases hv
      obtain ⟨row, rfl, hrows⟩ := rows_of_extend hx
      refine ⟨hkind ▸ rfl, fun ha => by (rw [hkind] at ha; cases ha), ensures_row_found ?_ hl⟩
      rw [hrows]
      exact Assoc.find?_put_self ..

theorem ensures_shown (h : op.check = .ok c) (hk : op.kind ≠ .release) :
    Ensures (troubled {client} P) ((system options).Shown op c)
      (op.attempt (service options) c) s := by
  have hfailed (f : Fault) (s : Store) : (system options).Shown op c (concluded op (.error f)) s :=
    .of_unsuccessful ((unsuccessful_concluded _).mpr (by rintro _ ⟨⟩))
  rw [ensures_statement hk]
  refine ⟨?_, fun f _ => hfailed f s⟩
  cases hx : s.execute (statement options op c) with
  | error f => exact hfailed f s
  | ok p =>
    obtain ⟨row, s'⟩ := p
    show (system options).Shown op c (concluded op (verdict op row)) s'
    cases hv : verdict op row with
    | error f => exact hfailed f s'
    | ok v =>
      rintro _ ⟨rfl⟩ hs
      cases row with
      | some row => exact shows_of_statement h hk hx hv
      | none =>
        -- without a row there is a conflict
        have hconflict : verdict op none = .ok (op.kind.conflict, none) := by simp only [verdict]
        cases hconflict.symm.trans hv
        cases hkind : op.kind <;> rw [hkind] at hs <;> cases hs

end Table

/-! ### Items -/

namespace Items
variable {options : Options} {s s' : Store}

theorem applied_ne_nil {delta : Int} {w w' : Item}
    (h : Update.updated? (extension options delta) w = some w') :
    w' ≠ [] := by
  have hw : w ≠ [] := by
    rintro rfl
    rw [extension_nil] at h
    cases h
  obtain ⟨sums, -, rfl⟩ := Option.map_eq_some_iff.mp h
  exact Assoc.putAll_ne_nil hw _

theorem exists_of_reading {w : Item} {l : Option Lock} (hw : w ≠ [])
    (h : reading (some w) = .ok l) :
    ∃ m, l = some m := by
  have htruthy : (Value.map w).isTruthy = true := by
    cases w with
    | nil => exact absurd rfl hw
    | cons => rfl
  simp only [reading, ofItem, htruthy, if_true] at h
  cases hm : Lock.ofValue (.map w) with
  | error f => rw [hm] at h; cases h
  | ok m => rw [hm] at h; cases h; exact ⟨m, rfl⟩

theorem operation_verdict (op : Operation) (l : Option Lock) :
    (verdict op l).1.operation = op.kind.action := by
  unfold verdict
  cases op.kind <;> dsimp only
  · split <;> rfl
  · rfl
  · split <;> rfl

theorem shows_of_commits {w : Option Item} {l : Option Lock} (hsep : options.Separate)
    (h : op.check = .ok c) (hk : op.kind ≠ .release) (hw : commits options op c s = some (w, s'))
    (hl : reading w = .ok l) :
    (system options).Shows op c (verdict op l) s' := by
  cases hkind : op.kind with
  | release => exact absurd hkind hk
  | acquire =>
    have hitem := holds_itemOf hsep c op.delta (Decision.orZero op.lock.expiry)
    rw [Operation.acquire_request h hkind] at hitem
    simp only [commits, hkind, hitem.idOf, Option.bind_some, Option.ite_none_right_eq_some,
      Option.some.injEq,
      Prod.mk.injEq] at hw
    obtain ⟨-, -, rfl⟩ := hw
    have hfound := ensures_found hitem (Assoc.find?_put_self s (Lock.keyOf c.realm c.name) _)
    rw [Operation.acquire_request h hkind] at hfound
    refine ⟨operation_verdict op l, fun _ => by simp only [verdict, hkind], ?_⟩
    simp only [verdict, hkind]
    exact hfound
  | renew =>
    simp only [commits, hkind, Option.ite_none_right_eq_some, Option.map_eq_some_iff,
      Prod.mk.injEq] at hw
    obtain ⟨-, -, w, hx, rfl, rfl⟩ := hw
    obtain ⟨m, rfl⟩ := exists_of_reading (applied_ne_nil hx) hl
    refine ⟨operation_verdict op _, fun ha => by (rw [hkind] at ha; cases ha), ?_⟩
    simp only [verdict, hkind]
    exact ensures_item_found ((congrArg reading (Assoc.find?_put_self s c.key w)).trans hl)

theorem ensures_shown (hsep : options.Separate) (h : op.check = .ok c) (hk : op.kind ≠ .release) :
    Ensures (troubled {client} P) ((system options).Shown op c)
      (op.attempt (service options) c) s := by
  have hfailed (f : Fault) (s : Store) : (system options).Shown op c
      (settled (op.kind.conflict, none) (op.kind.failed, none) (.error (.fault f))) s := by
    have hu := (unsuccessful_concluded op (.error f)).mpr ⟨f, rfl⟩
    rw [concluded, if_neg hk] at hu
    exact .of_unsuccessful hu
  rw [ensures_write h hk]
  refine ⟨?_, fun f _ => hfailed f s⟩
  cases hw : commits options op c s with
  | none =>
    obtain ⟨code, -, he⟩ := client_write_of_none hw
    rw [readBack, he]
    exact hfailed _ s
  | some p =>
    obtain ⟨w, s'⟩ := p
    rw [readBack_of_some hw, client_write_of_some hw]
    cases hl : reading w with
    | error f => exact hfailed f s'
    | ok l =>
      show (system options).Shown op c (.ok (verdict op l)) s'
      rintro _ ⟨rfl⟩ -
      exact shows_of_commits hsep h hk hw hl

end Items

/-! ### Documents -/

namespace Documents
variable {options : Options} {s : Store}

theorem ensures_shown (hsep : options.Separate) (h : op.check = .ok c) (hk : op.kind ≠ .release) :
    Ensures (troubled {client} P) ((system options).Shown op c)
      (op.attempt (service options) c) s := by
  refine ensures_conclude h ?_ (fun f _ => .of_unsuccessful (unsuccessful_concluded op f))
    (fun f _ => ⟨.of_unsuccessful (unsuccessful_concluded op f), .of_failed⟩)
  intro v ws hx
  obtain ⟨existing, -, rfl, hw⟩ := conclude_eq_ok hx
  refine .of_decide hk fun l hl => ?_
  simp only [writes, hl] at hw
  cases hd : dataOf options l with
  | error f => rw [hd] at hw; cases hw
  | ok data =>
    rw [hd] at hw
    cases hw
    exact ensures_found (ofFields_dataOf hsep (Operation.isRecord_of_put h hl) hd)
      (Assoc.find?_put_self ..)

end Documents

namespace Backend

/-- The field of a sweeper, if any, is none that is stored anyway. -/
def Separate : Backend → Prop
  | items options => options.Separate
  | documents options => options.Separate
  | memory | keyValue _ | table _ => True

theorem ensures_shown {b : Backend} (hb : b.Separate) {s : b.system.Store} (h : op.check = .ok c)
    (hk : op.kind ≠ .release) :
    Ensures (troubled b.system.clients P) (b.system.Shown op c)
      (op.attempt b.system.service c) s := by
  cases b with
  | memory => rw [System.clients_eq rfl]; exact Memory.ensures_shown h hk
  | keyValue options => exact KeyValue.ensures_shown h hk
  | table options => rw [System.clients_eq rfl]; exact Table.ensures_shown h hk
  | items options => rw [System.clients_eq rfl]; exact Items.ensures_shown hb h hk
  | documents options => rw [System.clients_eq rfl]; exact Documents.ensures_shown hb h hk

end Backend

/-- After an acquisition that succeeded a reading finds the record that was requested, after a
renewal the one that was answered. -/
theorem read_your_writes (b : Backend) (hb : b.Separate) (s : b.system.Store) (op : Operation)
    (hk : op.kind ≠ .release) :
    Ensures (troubled b.system.clients fun _ => True)
      (fun r s' => ∀ a, r = .ok a → a.success = some true →
      (op.kind = .acquire → a.lock = op.lock) ∧
      Ensures {b.system.client} (fun r' _ => r' = .ok (some a.lock))
        (b.system.service.getLock op.record.realm op.record.name) s')
          (op.session b.system.service) s := by
  cases h : op.check with
  | error e =>
    rw [Operation.ensures_session_of_error _ h]
    rintro _ ⟨⟩
  | ok c =>
    rw [Operation.ensures_session _ h]
    refine (b.ensures_shown hb h hk).mono fun r s' hshown a ha hs => ?_
    cases r with
    | error e => cases ha
    | ok v =>
      cases ha
      rw [Operation.answer, Answer.success_ofOutcome, Option.some.injEq] at hs
      have hv := hshown v rfl hs
      have hlock : (op.answer v).lock = v.2.getD op.lock :=
        Answer.lock_ofOutcome _ hs (by rw [hv.operation]; revert hk; cases op.kind <;> decide)
      rw [Operation.getLock_of_check _ h, hlock]
      exact ⟨fun ha => by rw [hv.requested ha]; rfl, hv.found⟩

/-- A renewal by the server's clock, of a row whose numbers the store moves. -/
theorem read_your_writes_moved :
    let b : Backend := .table { useServerTime := true }
    let c : Claim := ⟨"jobs", "nightly", "Ad\u00e9", "one"⟩
    let held : Table.Store :=
      { rows := [(("jobs", "nightly"), Table.rowOf c 10 15)], serverNow := 12 }
    let op : Operation := ⟨.renew, c.record (some 20) none, 99⟩
    let renewed := (op.session b.system.service).run b.system.client held []
    b.Separate ∧ op.kind ≠ .release ∧
      renewed.result = .ok (Answer.succeeded (c.lock (some 30) (some 35)) .renewed) ∧
      Ensures {b.system.client} (fun r _ => r = .ok (some (c.lock (some 30) (some 35))))
        (b.system.service.getLock (some "jobs") (some "nightly")) renewed.store := by
  intro b c held op renewed
  have hsep : b.Separate := trivial
  have hk : op.kind ≠ .release := nofun
  have hresult : renewed.result = .ok (Answer.succeeded (c.lock (some 30) (some 35)) .renewed) := by
    rfl
  have hserved : b.system.client ∈ troubled b.system.clients fun _ => True := .inl (.inl rfl)
  exact ⟨hsep, hk, hresult, ((read_your_writes b hsep held op hk).run hserved [] _ hresult rfl).2⟩

end Leasehold
