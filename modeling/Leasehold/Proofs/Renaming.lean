import Leasehold.Proofs.Operation
import Leasehold.Proofs.Record

/-!
# Other instance ids

What becomes of records, requests and stored fields when every instance id `i` is another one, `r
i`. The rules of decision compare instance ids with each other and do nothing else with them, so
under an injective `r` they come to the same (`Operation.decide_rename`, `Operation.effect_rename`).
-/

namespace Leasehold

namespace Assoc
variable {κ α β : Type} [DecidableEq κ] (f : κ → α → β) (m : Assoc κ α) (k : κ)

/-- The map with other values under its keys. -/
def mapValues : Assoc κ β := m.map fun e => (e.1, f e.1 e.2)

theorem find?_mapValues : (m.mapValues f).find? k = (m.find? k).map (f k) := by
  induction m with
  | nil => rfl
  | cons e m ih =>
    simp only [mapValues, List.map_cons, find?] at ih ⊢
    split
    · rename_i h
      rw [h]
      rfl
    · exact ih

theorem put_mapValues (a : α) : (m.put k a).mapValues f = (m.mapValues f).put k (f k a) := by
  induction m with
  | nil => rfl
  | cons e m ih =>
    simp only [mapValues, put, List.map_cons] at ih ⊢
    split
    · rfl
    · exact congrArg _ ih

theorem erase_mapValues : (m.erase k).mapValues f = (m.mapValues f).erase k := by
  simp only [mapValues, erase, drop, List.filter_map]
  rfl

theorem putAll_mapValues (f : κ → α → α) (n : Assoc κ α) :
    (m.putAll n).mapValues f = (m.mapValues f).putAll (n.mapValues f) := by
  induction n generalizing m with
  | nil => rfl
  | cons e n ih => exact (ih (m.put e.1 e.2)).trans (by rw [put_mapValues]; rfl)

variable (g : α → α)

/-- The map with another value under one key. -/
def mapAt : Assoc κ α := m.mapValues fun j a => if j = k then g a else a

variable {m k g}

theorem find?_mapAt : (m.mapAt k g).find? k = (m.find? k).map g := by
  rw [mapAt, find?_mapValues]
  simp only [if_true]

theorem find?_mapAt_ne {j : κ} (h : j ≠ k) : (m.mapAt k g).find? j = m.find? j := by
  rw [mapAt, find?_mapValues]
  simp only [if_neg h, Option.map_id']

theorem put_mapAt_ne {j : κ} (h : j ≠ k) (a : α) :
    (m.put j a).mapAt k g = (m.mapAt k g).put j a := by
  rw [mapAt, put_mapValues, if_neg h]
  rfl

theorem mapAt_of_forall_ne (h : ∀ e ∈ m, e.1 ≠ k) : m.mapAt k g = m := by
  refine (List.map_congr_left fun e he => ?_).trans (List.map_id m)
  show (e.1, if e.1 = k then g e.2 else e.2) = id e
  rw [if_neg (h e he)]
  rfl

theorem putAll_mapAt {n : Assoc κ α} (h : ∀ e ∈ n, e.1 ≠ k) :
    (m.putAll n).mapAt k g = (m.mapAt k g).putAll n := by
  have hn : n.mapAt k g = n := mapAt_of_forall_ne h
  calc (m.putAll n).mapAt k g = (m.mapAt k g).putAll (n.mapAt k g) := putAll_mapValues _ _ _
    _ = (m.mapAt k g).putAll n := by rw [hn]

theorem drop_mapAt {p : κ → Bool} (h : p k = true) : (m.mapAt k g).drop p = m.drop p := by
  induction m with
  | nil => rfl
  | cons e m ih =>
    simp only [mapAt, mapValues, drop, List.map_cons, List.filter_cons] at ih ⊢
    rw [ih]
    by_cases he : e.1 = k
    · simp only [he, h, Bool.not_true, Bool.false_eq_true, if_false]
    · simp only [if_neg he]

end Assoc

/-! ### Records and requests -/

section Rename
variable (r : String → String)

/-- The value with a text renamed. -/
def Value.rename : Value → Value
  | .text i => .text (r i)
  | v => v

def Lock.rename (l : Lock) : Lock := { l with instanceId := l.instanceId.map (Value.rename r) }

def Record.rename (rec : Record) : Record := { rec with instanceId := rec.instanceId.map r }

def Claim.rename (c : Claim) : Claim := { c with instanceId := r c.instanceId }

def Verdict.rename (v : Verdict) : Verdict := (v.1, v.2.map (Lock.rename r))

def Answer.rename (a : Answer) : Answer := { a with lock := a.lock.rename r }

def Operation.rename (op : Operation) : Operation := { op with record := op.record.rename r }

def Operation.Effect.rename : Effect → Effect
  | .keep => .keep
  | .put l => .put (l.rename r)
  | .delete => .delete

@[simp] theorem Value.rename_id (v : Value) : v.rename id = v := by
  cases v <;> rfl

@[simp] theorem Lock.rename_id (l : Lock) : l.rename id = l := by
  rw [rename, funext Value.rename_id, Option.map_id']

@[simp] theorem Lock.map_rename_id (l : Option Lock) : l.map (rename id) = l := by
  rw [funext rename_id, Option.map_id']

@[simp] theorem Claim.rename_id (c : Claim) : c.rename id = c := rfl

@[simp] theorem Verdict.rename_id (v : Verdict) : v.rename id = v := by
  simp only [rename, Lock.map_rename_id]

@[simp] theorem Answer.rename_id (a : Answer) : a.rename id = a := by
  simp only [rename, Lock.rename_id]

@[simp] theorem Operation.rename_id (op : Operation) : op.rename id = op := by
  simp only [rename, Record.rename, Option.map_id, id]

variable {r}

theorem Record.lock_rename (rec : Record) : (rec.rename r).lock = rec.lock.rename r := by
  obtain ⟨realm, name, owner, _ | i, lease, expiry⟩ := rec <;> rfl

theorem Lock.IsRecord.rename {l : Lock} (h : l.IsRecord) (r : String → String) :
    (l.rename r).IsRecord := by
  obtain ⟨rec, rfl⟩ := h
  exact ⟨rec.rename r, rec.lock_rename⟩

@[simp] theorem Operation.lock_rename (op : Operation) : (op.rename r).lock = op.lock.rename r :=
  op.record.lock_rename

theorem Lock.identity_rename (v : Value) :
    identity (v.rename r) = (identity v).map (Value.rename r) := by
  cases v <;> rfl

@[simp] theorem Lock.isExpired_rename (l : Lock) (now : Int) :
    (l.rename r).isExpired now = l.isExpired now := rfl

theorem Answer.rename_ofOutcome (l : Lock) (o : Outcome) :
    (ofOutcome l o).rename r = ofOutcome (l.rename r) o := by
  simp only [ofOutcome]
  cases o.isHeld <;> cases o.isCleared <;> rfl

theorem Answer.rename_ofStored (realm name : Option String) (stored : Option Lock) (now : Int) :
    (ofStored realm name stored now).rename r = ofStored realm name stored now := by
  cases stored with
  | none => rfl
  | some l =>
    simp only [ofStored]
    cases l.isExpired now <;> rfl

/-! ### The rules of decision -/

section Rules
variable (hr : r.Injective)
include hr

theorem Value.same_rename (v w : Value) : (v.rename r).same (w.rename r) = v.same w := by
  cases v <;> cases w <;> simp [rename, same, number?, hr.eq_iff]

theorem Lock.isMatch_rename (l m : Lock) : (l.rename r).isMatch (m.rename r) = l.isMatch m := by
  have hagrees (a b : Option Value) : agrees (a.map (Value.rename r)) (b.map (Value.rename r)) =
    agrees a b := by
    cases a <;> cases b <;> simp [agrees, Value.same_rename hr]
  simp only [isMatch, rename, hagrees]

theorem Operation.decide_rename (op : Operation) (existing : Option Lock) :
    (op.rename r).decide (existing.map (Lock.rename r)) = (op.decide existing).rename r := by
  obtain ⟨kind, l, now⟩ := op
  cases existing with
  | none => cases kind <;> rfl
  | some m =>
    have hm := Lock.isMatch_rename hr l.lock m
    rw [← Record.lock_rename] at hm
    cases h : l.lock.isMatch m <;> rw [h] at hm <;> cases hx : m.isExpired now <;> cases kind <;>
      simp [Operation.rename, Operation.decide, Operation.lock, Decision.acquire, Decision.renew,
        Decision.release, h, hm,
        hx, Lock.isActive, Verdict.rename]
    rfl

theorem Operation.effect_rename (op : Operation) (existing : Option Lock) :
    (op.rename r).effect (existing.map (Lock.rename r)) = (op.effect existing).rename r := by
  rw [effect, effect, decide_rename hr]
  have hlock := op.lock_rename (r := r)
  have hkind : (op.rename r).kind = op.kind := rfl
  cases hk : op.kind <;> simp only [hkind, hk, hlock, Verdict.rename]
  · cases (op.decide existing).1.isSuccess <;> rfl
  · cases (op.decide existing).2 <;> rfl
  · by_cases ho : (op.decide existing).1 = .released
    · simp only [ho, if_true, Effect.rename]
    · simp only [ho, if_false, Effect.rename]

theorem Operation.owns_rename (op : Operation) (existing : Option Lock) :
    (op.rename r).owns (existing.map (Lock.rename r)) = op.owns existing := by
  cases existing with
  | none => rfl
  | some l => rw [owns, lock_rename]; exact Lock.isMatch_rename hr op.lock l

theorem Operation.permits_rename (op : Operation) (existing : Option Lock) :
    (op.rename r).permits (existing.map (Lock.rename r)) = op.permits existing := by
  rw [← isSuccess_decide, decide_rename hr, ← isSuccess_decide]
  rfl

end Rules

theorem Operation.written_rename (op : Operation) (existing : Option Lock) :
    (op.rename r).written Decision.extend (existing.map (Lock.rename r)) =
      (op.written Decision.extend existing).map (Lock.rename r) := by
  have hkind : (op.rename r).kind = op.kind := rfl
  have hdelta : (op.rename r).delta = op.delta := rfl
  cases hk : op.kind with
  | acquire => simp only [written, hkind, hk, lock_rename, Option.map_some]
  | renew =>
    simp only [written, renewed, hkind, hk, hdelta]
    cases existing <;> rfl
  | release => simp only [written, renewed, hkind, hk, Option.map_none]

end Rename

/-! ### Stored values -/

namespace Value
variable (r : String → String)

variable {r}

theorem rename_getD (v : Option Value) :
    (v.getD .null).rename r = (v.map (Value.rename r)).getD .null := by
  cases v <;> rfl

end Value

namespace Value.Fields
variable (r : String → String) (field : String) (fields : Value.Fields)

/-- The fields with the text in one of them renamed. -/
def rename : Value.Fields := Assoc.mapAt fields field (Value.rename r)

@[simp] theorem rename_id : rename id field fields = fields := by
  simp only [rename, Assoc.mapAt, Value.rename_id, ite_self, Assoc.mapValues, List.map_id']

@[simp] theorem map_rename_id (fields : Option Value.Fields) :
    fields.map (rename id field) = fields := by
  rw [funext (rename_id field), Option.map_id']

variable {r field fields}

theorem find?_rename :
    Assoc.find? (rename r field fields) field = (Assoc.find? fields field).map (Value.rename r) :=
  Assoc.find?_mapAt

theorem find?_rename_ne {k : String} (h : k ≠ field) :
    Assoc.find? (rename r field fields) k = Assoc.find? fields k :=
  Assoc.find?_mapAt_ne h

theorem put_rename_ne {k : String} (h : k ≠ field) (v : Value) :
    rename r field (Assoc.put fields k v) = Assoc.put (rename r field fields) k v :=
  Assoc.put_mapAt_ne h v

end Value.Fields

section Fields
variable {r : String → String}

theorem Lock.toFields_rename (l : Lock) :
    (l.rename r).toFields = l.toFields.rename r "instanceId" := by
  simp only [toFields, rename, Value.Fields.rename, Assoc.mapAt, Assoc.mapValues, List.map_cons,
    List.map_nil, Value.rename_getD]
  rfl

theorem Lock.ofFields_rename (fields : Value.Fields) :
    ofFields (fields.rename r "instanceId") = (ofFields fields).map (Lock.rename r) := by
  have hid : identity ((Assoc.find? (fields.rename r "instanceId") "instanceId").getD .null) =
      (identity ((Assoc.find? fields "instanceId").getD .null)).map (Value.rename r) := by
    rw [Value.Fields.find?_rename]
    cases Assoc.find? fields "instanceId" with
    | none => rfl
    | some v => exact identity_rename v
  have hne {k : String} (hk : k ≠ "instanceId") :=
    @Value.Fields.find?_rename_ne r "instanceId" fields k hk
  simp only [ofFields, demand, hne (by decide : "namespace" ≠ "instanceId"),
    hne (by decide : "lockName" ≠ "instanceId"),
    hne (by decide : "owner" ≠ "instanceId"), hne (by decide : "leaseDuration" ≠ "instanceId"),
    hne (by decide : "expiry" ≠ "instanceId"), hid, bind, Except.bind]
  cases Assoc.find? fields "namespace" with
  | none => rfl
  | some realm =>
    cases Assoc.find? fields "lockName" with
    | none => rfl
    | some name =>
      cases whole ((Assoc.find? fields "leaseDuration").getD .null) with
      | error f => rfl
      | ok lease => cases whole ((Assoc.find? fields "expiry").getD .null) <;> rfl

end Fields

end Leasehold
