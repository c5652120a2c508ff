import Leasehold.Proofs.Holding

/-!
# Conditional writes and the rules

Conditional items and SQL tables do not read a record before they decide: the condition of the
write, and what it hands back, stand for the rules of `Decision`. They come to the same as the rules
on the record that a reading shows (`conditional_write_decides`), also where a number has a
fraction. The store then compares the fraction and the rules the integer part, and to an integer
that makes no difference as long as nothing is negative (`Decimal.lt_ofInt_of_truncate`).
-/

namespace Leasehold
open Session

/-! ### Fractions -/

namespace Decimal
variable {m e n : Int}

theorem tens_pos (e : Int) : 0 < tens e :=
  Int.natCast_pos.mpr (Nat.pow_pos (by decide))

theorem align_ofInt (m e k : Int) :
    align m e k 0 = if 0 ≤ e then (m * tens e, k, 0) else (m, k * tens (-e), e) := by
  by_cases he : 0 ≤ e
  · rw [if_pos he, align, min_eq_right he, Int.sub_zero, Int.sub_self, tens_zero, Int.mul_one]
  · rw [if_neg he, align, min_eq_left (by omega), Int.sub_self, Int.zero_sub,
      tens_zero, Int.mul_one]

/-- Integers lie above a number that is not negative just when they lie above its integer part. -/
theorem lt_ofInt_of_truncate (hm : 0 ≤ m) (ht : truncate (.finite m e) = .ok n) (k : Int) :
    lt (.finite m e) (.ofInt k) = decide (n < k) := by
  have hlt : lt (.finite m e) (.ofInt k) = decide ((align m e k 0).1 < (align m e k 0).2.1) := rfl
  obtain rfl := Except.ok.inj ht
  rw [hlt, decide_eq_decide, align_ofInt]
  by_cases he : 0 ≤ e
  · rw [if_pos he, if_pos he]
  · rw [if_neg he, if_neg he, Int.tdiv_eq_ediv_of_nonneg hm]
    exact (Int.ediv_lt_iff_lt_mul (tens_pos (-e))).symm

theorem atLeast_eq (m e k : Int) :
    (lt (.ofInt k) (.finite m e) || same (.finite m e) (.ofInt k)) = !lt (.finite m e)
      (.ofInt k) := by
  have hlt : lt (.finite m e) (.ofInt k) = decide ((align m e k 0).1 < (align m e k 0).2.1) := rfl
  have hsame : same (.finite m e) (.ofInt k) = decide ((align m e k 0).1 = (align m e k 0).2.1) :=
    rfl
  have hswap : align k 0 m e = ((align m e k 0).2.1, (align m e k 0).1, (align m e k 0).2.2) := by
    simp only [align, min_comm 0 e]
  have hgt : lt (.ofInt k) (.finite m e) = decide ((align k 0 m e).1 < (align k 0 m e).2.1) := rfl
  rw [hswap] at hgt
  rw [hlt, hsame, hgt, Bool.eq_iff_iff]
  simp only [Bool.or_eq_true, decide_eq_true_eq, Bool.not_eq_true', decide_eq_false_iff_not]
  omega

end Decimal

namespace Items

/-- An integer, or a decimal that is not negative. -/
def IsNumber (v : Value) : Prop := (∃ n, v = .int n) ∨ ∃ m e, 0 ≤ m ∧ v = .decimal (.finite m e)

theorem IsNumber.hasIntegerPart {v : Value} (h : IsNumber v) : ∃ n, HasIntegerPart v n := by
  rcases h with ⟨n, rfl⟩ | ⟨m, e, hm, rfl⟩
  · exact ⟨n, IsInt.hasIntegerPart (.inl rfl)⟩
  · obtain ⟨n, hn⟩ : ∃ n, Decimal.truncate (.finite m e) = .ok n := ⟨_, rfl⟩
    have hbelow (k : Int) : isBelow (.decimal (.finite m e)) (.int k) = decide (n < k) :=
      Decimal.lt_ofInt_of_truncate hm hn k
    refine ⟨n, ⟨m, e, rfl⟩, ?_, hbelow, fun k => ?_⟩
    · simp only [Lock.whole, Value.toInt, hn]
    · rw [← hbelow]
      exact Decimal.atLeast_eq m e k

/-- What lies there for the lock, if anything, is a record of it with all fields. -/
def Kept (s : Store) (realm name : String) : Prop :=
  ∀ w, Assoc.find? s (Lock.keyOf realm name) = some w →
  ∃ c : Claim, c.realm = realm ∧ c.name = name ∧ IsItemOf w c ∧
    (∃ v, Assoc.find? w "leaseDuration" = some v ∧ IsNumber v) ∧
    ∃ v, Assoc.find? w "expiry" = some v ∧ IsNumber v

theorem Kept.storedAs {s : Store} {realm name : String} (h : Kept s realm name) :
    ∃ existing, StoredAs realm name (Assoc.find? s (Lock.keyOf realm name)) existing := by
  cases hf : Assoc.find? s (Lock.keyOf realm name) with
  | none => exact ⟨none, .nothing⟩
  | some w =>
    obtain ⟨c, hr, hn, hw, ⟨v, hv, hlease⟩, x, hx, hexpiry⟩ := h w hf
    obtain ⟨lease, hlease⟩ := hlease.hasIntegerPart
    obtain ⟨expiry, hexpiry⟩ := hexpiry.hasIntegerPart
    exact ⟨_, .item hr hn ⟨hw, ⟨v, hv, hlease⟩, x, hx, hexpiry⟩⟩

end Items

/-- What lies there for the lock, if anything, is a record of it with all columns. -/
def Table.Kept (s : Store) (realm name : String) : Prop :=
  ∀ row, Assoc.find? s.rows (realm, name) = some row →
  ∃ (c : Claim) (lease expiry : Int), c.realm = realm ∧ c.name = name ∧ Holds row c lease expiry

theorem Table.Kept.storedAs {s : Store} {realm name : String} (h : Kept s realm name) :
    ∃ existing, StoredAs realm name (Assoc.find? s.rows (realm, name)) existing := by
  cases hf : Assoc.find? s.rows (realm, name) with
  | none => exact ⟨none, .nothing⟩
  | some row =>
    obtain ⟨c, lease, expiry, hr, hn, hw⟩ := h row hf
    exact ⟨_, .row hr hn hw⟩

/-! ### Agreement -/

namespace Operation
variable {op : Operation} {existing : Option Lock}

/-- The answer is that of the rules for the record that is there: with their outcome for a release,
and for an acquisition where the store has `told` whether the lock was taken again, and otherwise in
its success. -/
def Agrees (op : Operation) (told : Prop) (existing : Option Lock) (a : Answer) : Prop :=
  match op.kind with
  | .acquire =>
    (a.success = some true ↔ (Decision.acquire existing op.lock op.now).isSuccess = true) ∧
      (told → a.outcome = some (Decision.acquire existing op.lock op.now))
  | .renew => a.success = some true ↔ (Decision.renew existing op.lock op.now).1 = .renewed
  | .release => a.outcome = some (Decision.release existing op.lock op.now)

theorem decide_renewed (hk : op.kind = .renew) :
    (Decision.renew existing op.lock op.now).1 = .renewed ↔ op.permits existing = true := by
  have hdecide : op.decide existing = Decision.renew existing op.lock op.now := by rw [decide, hk]
  have hrenewed : (Decision.renew existing op.lock op.now).1 = .renewed ↔
      (Decision.renew existing op.lock op.now).1.isSuccess = true := by
    unfold Decision.renew
    repeat' split
    all_goals simp [Outcome.isSuccess, Outcome.isHeld, Outcome.isCleared]
  rw [hrenewed, ← hdecide, isSuccess_decide]

theorem Suits.agrees {told : Prop} {v : Verdict} (h : op.Suits existing v)
    (hd : op.kind = .release ∨ op.kind = .acquire ∧ told → v = op.decide existing) :
    op.Agrees told existing (op.answer v) := by
  have hsuccess : (op.answer v).success = some true ↔ op.permits existing = true := by
    rw [answer, Answer.success_ofOutcome, h.success, Option.some.injEq]
  have houtcome : (op.answer v).outcome = some v.1 := Answer.outcome_ofOutcome _ _
  unfold Agrees
  split
  · rename_i hk
    rw [acquire_decision hk, isSuccess_decide]
    exact ⟨hsuccess, fun ht => by rw [houtcome, hd (.inr ⟨hk, ht⟩)]⟩
  · rename_i hk
    rw [hsuccess, decide_renewed hk]
  · rename_i hk
    rw [houtcome, hd (.inl hk), decide, hk]

end Operation

/-- When nobody interferes and no call fails, the operation agrees with the rules on the record that
a reading shows. -/
def System.Decides (S : System) (told : Prop) (op : Operation) (c : Claim) (s : S.Store)
    (context : Context) : Prop :=
  ∃ existing a, ((S.service.getLock (some c.realm) (some c.name)).run S.client s context).result =
    .ok existing ∧
    existing.isSome = (S.raw s (S.slot c.realm c.name)).isSome ∧
    ((op.session S.service).run S.client s context).result = .ok a ∧ op.Agrees told existing a

theorem System.decides {S : System} {told : Prop} {op : Operation} {c : Claim} {s : S.Store}
    {existing : Option Lock} (h : op.check = .ok c)
    (hsome : existing.isSome = (S.raw s (S.slot c.realm c.name)).isSome)
    (hfound : Ensures {S.client} (fun r _ => r = .ok existing) (S.service.find c.realm c.name) s)
    (hsuits : Ensures {S.client} (fun r _ => ∃ v, r = .ok v ∧ op.Suits existing v)
      (op.attempt S.service c) s) (hdecide : op.kind = .release ∨ op.kind = .acquire ∧ told →
      Ensures {S.client} (fun r _ => r = .ok (op.decide existing)) (op.attempt S.service c) s)
        (context : Context) :
    S.Decides told op c s context := by
  have hsession : Ensures {S.client} (fun r _ => ∃ a, r = .ok a ∧ op.Agrees told existing a)
    (op.session S.service) s := by
    rw [Operation.ensures_session S.service h]
    intro r s' hx
    obtain ⟨v, rfl, hv⟩ := hsuits r s' hx
    exact ⟨_, rfl, hv.agrees fun hd => Except.ok.inj (hdecide hd _ s' hx)⟩
  obtain ⟨a, ha, hagrees⟩ := hsession.run rfl context
  refine ⟨existing, a, ?_, hsome, ha, hagrees⟩
  rw [Operation.getLock_claim S.service h]
  exact hfound.run rfl context

/-- Conditional writes agree with the rules of `Decision`. An SQL table does not tell whether a lock
was taken again. -/
theorem conditional_write_decides {op : Operation} {c : Claim} (h : op.check = .ok c)
    (context : Context) :
    (∀ (options : Items.Options) (s : Items.Store), options.Separate → Items.Kept s c.realm c.name →
      (Backend.items options).system.Decides True op c s context) ∧
    ∀ (options : Table.Options) (s : Table.Store), options.useServerTime = false →
    Table.Kept s c.realm c.name →
      (Backend.table options).system.Decides False op c s context := by
  constructor
  · intro options s hsep hkept
    obtain ⟨existing, hl⟩ := hkept.storedAs
    refine System.decides h ?_ (Items.ensures_item_found hl.reading)
      (Items.ensures_suits hsep h hl) ?_ context
    · show existing.isSome = (Assoc.find? s (Lock.keyOf c.realm c.name)).isSome
      generalize Assoc.find? s (Lock.keyOf c.realm c.name) = old at hl
      cases hl <;> rfl
    · intro hk
      refine Items.ensures_decide hsep h ?_ hl
      rcases hk with hk | ⟨hk, -⟩ <;> rw [hk] <;> decide
  · intro options s hclock hkept
    obtain ⟨existing, hl⟩ := hkept.storedAs
    refine System.decides h ?_ (Table.ensures_reading_found hl.reading)
      (Table.ensures_suits hclock h hl) ?_ context
    · show existing.isSome = (Assoc.find? s.rows (c.realm, c.name)).isSome
      generalize Assoc.find? s.rows (c.realm, c.name) = old at hl
      cases hl <;> rfl
    · rintro (hk | ⟨-, ⟨⟩⟩)
      exact Table.ensures_released hclock h hl hk

/-- The store compares 15 with 15.5 and the rules compare it with 15. -/
theorem conditional_write_decides_fraction :
    let S := (Backend.items {}).system
    let half : Items.Item :=
      [("lockId", .text "jobs:nightly"), ("namespace", .text "jobs"), ("lockName", .text "nightly"),
      ("owner", .text "ada"), ("instanceId", .text "one"),
      ("leaseDuration", .decimal (.finite 10 0)),
      ("expiry", .decimal (.finite 155 (-1)))]
    let op : Operation :=
      ⟨.acquire, (Claim.mk "jobs" "nightly" "bob" "two").record (some 10) (some 25), 15⟩
    op.check = .ok ⟨"jobs", "nightly", "bob", "two"⟩ ∧
      Items.Kept [("jobs:nightly", half)] "jobs" "nightly" ∧
      ∃ existing a, ((S.service.getLock (some "jobs") (some "nightly")).run S.client
        [("jobs:nightly", half)] []).result =
          .ok (some existing) ∧ existing.expiry = some 15 ∧
        ((op.session S.service).run S.client [("jobs:nightly", half)] []).result = .ok a ∧
        a.outcome = some .acquireConflict := by
  intro S half op
  have hcheck : op.check = .ok ⟨"jobs", "nightly", "bob", "two"⟩ := rfl
  have hkept : Items.Kept [("jobs:nightly", half)] "jobs" "nightly" := by
    rintro w ⟨rfl⟩
    exact ⟨⟨"jobs", "nightly", "ada", "one"⟩, rfl, rfl, ⟨rfl, rfl, rfl, rfl, rfl⟩,
      ⟨_, rfl, .inr ⟨10, 0, by decide, rfl⟩⟩, _, rfl, .inr ⟨155, -1, by decide, rfl⟩⟩
  obtain ⟨existing, a, hget, -, ha, -, hdecide⟩ :=
    (conditional_write_decides hcheck []).1 {} [("jobs:nightly", half)]
    (by rintro _ ⟨⟩) hkept
  have hfound : ((S.service.getLock (some "jobs") (some "nightly")).run S.client
    [("jobs:nightly", half)] []).result =
      .ok (some ((Claim.mk "jobs" "nightly" "ada" "one").lock (some 10) (some 15))) := rfl
  obtain rfl := Except.ok.inj (hget.symm.trans hfound)
  exact ⟨hcheck, hkept, _, a, hfound, rfl, ha, hdecide trivial⟩

end Leasehold
