import Leasehold.Lock.Claim

/-!
# Records

What a store holds may have anything for an identity, a `Record` has texts only. `Lock.ofFields`
looks at the six fields of a record and at nothing else (`ofFields_congr`), and it reads back what
`Lock.toFields` writes of a `Record` (`ofFields_toFields`), also with a field of another name put in
(`ofFields_put_toFields`). The key of a lock tells its namespace from its name when there is no
colon in the namespace (`keyOf_inj`).
-/

namespace Leasehold

/-- A record whose identities are texts, or open. -/
structure Record where
  realm : Option String
  name : Option String
  owner : Option String := none
  instanceId : Option String := none
  lease : Option Int := none
  expiry : Option Int := none
deriving DecidableEq, Repr

namespace Record

def lock (r : Record) : Lock :=
  { realm := r.realm.map .text, name := r.name.map .text, owner := r.owner.map .text,
    instanceId := r.instanceId.map .text, lease := r.lease, expiry := r.expiry }

@[simp] theorem lock_lease (r : Record) : r.lock.lease = r.lease := rfl

@[simp] theorem lock_expiry (r : Record) : r.lock.expiry = r.expiry := rfl

end Record

/-- The identities are texts, or open. -/
def Lock.IsRecord (l : Lock) : Prop := ∃ r : Record, r.lock = l

/-- The record of a claim. -/
def Claim.record (c : Claim) (lease expiry : Option Int) : Record :=
  ⟨c.realm, c.name, c.owner, c.instanceId, lease, expiry⟩

@[simp] theorem Claim.lock_record (c : Claim) (lease expiry : Option Int) :
    (c.record lease expiry).lock = c.lock lease expiry :=
  rfl

theorem Claim.isRecord_lock (c : Claim) (lease expiry : Option Int) :
    (c.lock lease expiry).IsRecord :=
  ⟨c.record lease expiry, rfl⟩

namespace Lock

/-- The fields of a record. -/
def fieldNames : List String :=
  ["namespace", "lockName", "owner", "instanceId", "leaseDuration", "expiry"]

theorem ofFields_congr {w w' : Value.Fields}
    (h : ∀ name ∈ fieldNames, Assoc.find? w' name = Assoc.find? w name) :
    ofFields w' = ofFields w := by
  simp only [fieldNames, List.forall_mem_cons] at h
  obtain ⟨h1, h2, h3, h4, h5, h6, -⟩ := h
  simp only [ofFields, demand, h1, h2, h3, h4, h5, h6]

theorem identity_ofText (s : Option String) :
    identity ((s.map Value.text).getD .null) = s.map .text := by
  cases s <;> rfl

theorem ofFields_toFields (r : Record) : ofFields r.lock.toFields = .ok r.lock := by
  have hr : demand r.lock.toFields "namespace" = .ok ((r.realm.map .text).getD .null) := rfl
  have hn : demand r.lock.toFields "lockName" = .ok ((r.name.map .text).getD .null) := rfl
  have ho : (Assoc.find? r.lock.toFields "owner").getD .null = (r.owner.map .text).getD .null := rfl
  have hi : (Assoc.find? r.lock.toFields "instanceId").getD .null =
    (r.instanceId.map .text).getD .null := rfl
  have hl : (Assoc.find? r.lock.toFields "leaseDuration").getD .null = .ofInt? r.lease := rfl
  have he : (Assoc.find? r.lock.toFields "expiry").getD .null = .ofInt? r.expiry := rfl
  simp only [ofFields, hr, hn, ho, hi, hl, he, whole_ofInt?, identity_ofText, bind, Except.bind,
    pure, Except.pure]
  rfl

/-- A field that is none of the record's does not disturb the reading. -/
theorem ofFields_put_toFields {name : String} (hn : name ∉ fieldNames) (r : Record) (v : Value) :
    ofFields (Assoc.put r.lock.toFields name v) = .ok r.lock := by
  rw [← ofFields_toFields r]
  refine ofFields_congr fun k hk => Assoc.find?_put_ne ?_ _ _
  rintro rfl
  exact hn hk

/-- The colon of a key is its first one. -/
theorem keyOf_inj {realm realm' name name' : String} (hr : ':' ∉ realm.toList)
    (hr' : ':' ∉ realm'.toList) (h : keyOf realm name = keyOf realm' name') :
    realm = realm' ∧ name = name' := by
  have hl := congrArg String.toList h
  simp only [keyOf, String.toList_append, List.append_assoc] at hl
  rcases List.append_eq_append_iff.mp hl with ⟨c, hc, hrest⟩ | ⟨c, hc, hrest⟩
  all_goals
    cases c with
    | nil =>
      rw [List.append_nil] at hc
      exact ⟨String.toList_inj.mp (by rw [hc]), String.toList_inj.mp
        (by simpa [eq_comm] using hrest)⟩
    | cons a c =>
      obtain rfl : ':' = a := by simpa [eq_comm] using congrArg (List.head? ·) hrest
      simp_all

/-- A key with a single colon can be taken apart in one way only. -/
theorem keyOf_inj_left {realm realm' name name' : String} (hr : ':' ∉ realm.toList)
    (hn : ':' ∉ name.toList) (h : keyOf realm name = keyOf realm' name') :
    realm = realm' ∧ name = name' := by
  refine keyOf_inj hr (fun hr' => ?_) h
  have hcount := congrArg (List.count ':' ∘ String.toList) h
  simp only [Function.comp, keyOf, String.toList_append, List.count_append,
    List.count_eq_zero_of_not_mem hr,
    List.count_eq_zero_of_not_mem hn] at hcount
  have hpos := List.count_pos_iff.mpr hr'
  omega

end Lock

end Leasehold
