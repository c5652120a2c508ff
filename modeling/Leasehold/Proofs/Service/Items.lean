import Leasehold.Service.Items
import Leasehold.Proofs.Record
import Leasehold.Proofs.System

/-!
# The laws of locks as conditional items

Every write is conditional and decides at once. The conditions look at the holder and at the expiry
only, so they are the rules for items that lie under the key of their lock. A number that a renewal
has moved comes back as a decimal; it still is the same integer (`IsInt`). Only the outcome of a
refused release takes a second call; when the lock came back to the caller between the two, the
release is refused although it would be permitted.
-/

namespace Leasehold

theorem Decimal.same_ofInt (m n : Int) : Decimal.same (.ofInt m) (.ofInt n) = decide (m = n) := by
  simp [Decimal.ofInt, Decimal.same, Decimal.align, Decimal.tens_zero]

end Leasehold

namespace Leasehold.Items
open Session

/-- The sweeper's attribute is none of the record's, nor the id. -/
def Options.Separate (options : Options) : Prop :=
  ∀ name, options.ttlName? = some name → name ∉ "lockId" :: Lock.fieldNames

abbrev system (options : Options) : System where
  I := interface
  Store := Store
  client := client
  losses := ∅
  service := service options
  empty := []
  whole := false
  Slot := String
  slot := Lock.keyOf
  Raw := Item
  raw := Assoc.find?
  read := Lock.ofFields
  passes := fun _ _ => True
  writable := fun _ => True
  fits := fun _ => True
  extend := Lock.prolong

/-! ### Items of claims -/

/-- The value is the integer `n`. -/
def IsInt (v : Value) (n : Int) : Prop := v = .int n ∨ v = .decimal (.ofInt n)

theorem IsInt.decimal? {v : Value} {n : Int} (h : IsInt v n) : v.decimal? = some (.ofInt n) := by
  rcases h with rfl | rfl <;> rfl

/-- The value is a number with integer part `n`, and integers compare with it as with `n`. -/
structure HasIntegerPart (v : Value) (n : Int) : Prop where
  finite : ∃ m e, v.decimal? = some (.finite m e)
  whole : Lock.whole v = .ok (some n)
  below : ∀ m, isBelow v (.int m) = decide (n < m)
  atLeast : ∀ m, (isBelow (.int m) v || sameValue v (.int m)) = !decide (n < m)

theorem IsInt.hasIntegerPart {v : Value} {n : Int} (h : IsInt v n) : HasIntegerPart v n where
  finite := ⟨n, 0, h.decimal?⟩
  whole := by
    rcases h with rfl | rfl
    · rfl
    · simp only [Lock.whole, Value.toInt, Decimal.truncate_ofInt]
  below := fun m => by rcases h with rfl | rfl <;> exact Decimal.lt_ofInt n m
  atLeast := by
    intro m
    have habove : isBelow (.int m) v = decide (m < n) := by
      rcases h with rfl | rfl <;> exact Decimal.lt_ofInt m n
    have hsame : sameValue v (.int m) = decide (n = m) := by
      rcases h with rfl | rfl <;> exact Decimal.same_ofInt n m
    rw [habove, hsame, Bool.eq_iff_iff]
    simp only [Bool.or_eq_true, decide_eq_true_eq, Bool.not_eq_true', decide_eq_false_iff_not]
    omega

/-- The item is one of a claim. -/
structure IsItemOf (w : Item) (c : Claim) : Prop where
  id : Assoc.find? w "lockId" = some (.text c.key)
  realm : Assoc.find? w "namespace" = some (.text c.realm)
  name : Assoc.find? w "lockName" = some (.text c.name)
  owner : Assoc.find? w "owner" = some (.text c.owner)
  instanceId : Assoc.find? w "instanceId" = some (.text c.instanceId)

namespace IsItemOf
variable {w : Item} {c : Claim} {lease expiry : Int} {v x : Value}

theorem ofFields (h : IsItemOf w c) (hv : Assoc.find? w "leaseDuration" = some v)
    (hl : Lock.whole v = .ok (some lease)) (hx : Assoc.find? w "expiry" = some x)
    (he : Lock.whole x = .ok (some expiry)) :
    Lock.ofFields w = .ok (c.lock (some lease) (some expiry)) := by
  simp only [Lock.ofFields, Lock.demand, h.realm, h.name, h.owner, h.instanceId, hv, hx,
    Option.getD_some, hl, he, bind,
    Except.bind, pure, Except.pure]
  rfl

theorem ofItem {l : Lock} (h : IsItemOf w c) (hl : Lock.ofFields w = .ok l) :
    Items.ofItem (.map w) = .ok (some l) := by
  have hw : (Value.map w).isTruthy = true := by
    cases w with
    | nil => have hn := h.id; cases hn
    | cons => rfl
  simp only [Items.ofItem, hw, if_true, Lock.ofValue, hl]
  rfl

theorem put (h : IsItemOf w c) {name : String}
    (hn : name ∉ ["lockId", "namespace", "lockName", "owner", "instanceId"]) (v : Value) :
    IsItemOf (Assoc.put w name v) c := by
  have hne {k : String} (hk : k ∈ ["lockId", "namespace", "lockName", "owner", "instanceId"]) :
      Assoc.find? (Assoc.put w name v) k = Assoc.find? w k :=
    Assoc.find?_put_ne (by rintro rfl; exact hn hk) w v
  refine ⟨?_, ?_, ?_, ?_, ?_⟩ <;> rw [hne (by decide)]
  exacts [h.id, h.realm, h.name, h.owner, h.instanceId]

end IsItemOf

/-- The item holds a record of a claim with numbers that may have fractions. -/
structure HoldsNumbers (w : Item) (c : Claim) (lease expiry : Int) : Prop extends IsItemOf w c where
  lease : ∃ v, Assoc.find? w "leaseDuration" = some v ∧ HasIntegerPart v lease
  expiry : ∃ v, Assoc.find? w "expiry" = some v ∧ HasIntegerPart v expiry

namespace HoldsNumbers
variable {w : Item} {c : Claim} {lease expiry : Int}

theorem ofFields (h : HoldsNumbers w c lease expiry) :
    Lock.ofFields w = .ok (c.lock (some lease) (some expiry)) := by
  obtain ⟨v, hv, hvi⟩ := h.lease
  obtain ⟨x, hx, hxi⟩ := h.expiry
  exact h.toIsItemOf.ofFields hv hvi.whole hx hxi.whole

theorem ofItem (h : HoldsNumbers w c lease expiry) :
    Items.ofItem (.map w) = .ok (some (c.lock (some lease) (some expiry))) :=
  h.toIsItemOf.ofItem h.ofFields

end HoldsNumbers

/-- The item holds the record of a claim. -/
structure Holds (w : Item) (c : Claim) (lease expiry : Int) : Prop where
  id : Assoc.find? w "lockId" = some (.text c.key)
  realm : Assoc.find? w "namespace" = some (.text c.realm)
  name : Assoc.find? w "lockName" = some (.text c.name)
  owner : Assoc.find? w "owner" = some (.text c.owner)
  instanceId : Assoc.find? w "instanceId" = some (.text c.instanceId)
  lease : ∃ v, Assoc.find? w "leaseDuration" = some v ∧ IsInt v lease
  expiry : ∃ v, Assoc.find? w "expiry" = some v ∧ IsInt v expiry

namespace Holds
variable {w : Item} {c : Claim} {lease expiry : Int}

theorem holdsNumbers (h : Holds w c lease expiry) : HoldsNumbers w c lease expiry where
  id := h.id
  realm := h.realm
  name := h.name
  owner := h.owner
  instanceId := h.instanceId
  lease := h.lease.imp fun _ hv => hv.imp_right IsInt.hasIntegerPart
  expiry := h.expiry.imp fun _ hv => hv.imp_right IsInt.hasIntegerPart

theorem ofFields (h : Holds w c lease expiry) :
    Lock.ofFields w = .ok (c.lock (some lease) (some expiry)) :=
  h.holdsNumbers.ofFields

theorem ofItem (h : Holds w c lease expiry) :
    Items.ofItem (.map w) = .ok (some (c.lock (some lease) (some expiry))) :=
  h.holdsNumbers.ofItem

theorem idOf (h : Holds w c lease expiry) : idOf? w = some c.key := by
  simp only [idOf?, idName, h.id]
  rfl

theorem put (h : Holds w c lease expiry) {name : String} (hn : name ∉ "lockId" :: Lock.fieldNames)
    (v : Value) :
    Holds (Assoc.put w name v) c lease expiry := by
  have hne {k : String} (hk : k ∈ "lockId" :: Lock.fieldNames) :
      Assoc.find? (Assoc.put w name v) k = Assoc.find? w k :=
    Assoc.find?_put_ne (by rintro rfl; exact hn hk) w v
  refine ⟨?_, ?_, ?_, ?_, ?_, ?_, ?_⟩ <;> rw [hne (by decide)]
  exacts [h.id, h.realm, h.name, h.owner, h.instanceId, h.lease, h.expiry]

theorem put_lease (h : Holds w c lease expiry) {v : Value} {n : Int} (hv : IsInt v n) :
    Holds (Assoc.put w "leaseDuration" v) c n expiry := by
  refine ⟨?_, ?_, ?_, ?_, ?_, ⟨v, Assoc.find?_put_self .., hv⟩, ?_⟩ <;>
    rw [Assoc.find?_put_ne (by decide)]
  exacts [h.id, h.realm, h.name, h.owner, h.instanceId, h.expiry]

theorem put_expiry (h : Holds w c lease expiry) {v : Value} {n : Int} (hv : IsInt v n) :
    Holds (Assoc.put w "expiry" v) c lease n := by
  refine ⟨?_, ?_, ?_, ?_, ?_, ?_, ⟨v, Assoc.find?_put_self .., hv⟩⟩ <;>
    rw [Assoc.find?_put_ne (by decide)]
  exacts [h.id, h.realm, h.name, h.owner, h.instanceId, h.lease]

end Holds

theorem holds_itemOf {options : Options} (hsep : options.Separate) (c : Claim)
    (lease expiry : Int) :
    Holds (itemOf options (c.lock (some lease) (some expiry))) c lease expiry := by
  have hplain : Holds (("lockId", .text c.key) ::
      (c.lock (some lease) (some expiry)).toFields.filter fun e => !Context.isNull e.2) c
        lease expiry :=
    ⟨rfl, rfl, rfl, rfl, rfl, ⟨_, rfl, .inl rfl⟩, ⟨_, rfl, .inl rfl⟩⟩
  unfold itemOf
  split
  · rename_i name x hname hx
    exact hplain.put (hsep name hname) _
  · exact hplain

/-- The attribute of the sweeper is none that a renewal sets anyway, nor the id. -/
theorem isProper_extension (options : Options) (delta : Int) :
    (extension options delta).isProper = true ↔
    ∀ name, options.ttlName? = some name → name ∉ ["lockId", "leaseDuration", "expiry"] := by
  cases hname : options.ttlName? with
  | none => simp [extension, hname, Update.isProper, Update.resolve, Assoc.find?, idName]
  | some name =>
    simp [extension, hname, Update.isProper, Update.resolve, Assoc.find?, idName]
    grind

theorem Options.Separate.isProper {options : Options} (h : options.Separate) (delta : Int) :
    (extension options delta).isProper = true :=
  (isProper_extension options delta).mpr fun name hname hm =>
    h name hname (by revert hm; simp [Lock.fieldNames]; grind)

/-- The item after a renewal. -/
def moved (options : Options) (w : Item) (lease expiry : Value) : Item :=
  let w := (Assoc.put w "leaseDuration" lease).put "expiry" expiry
  match options.ttlName? with
  | some name => w.put name expiry
  | none => w

/-- Lease and expiry must be numbers. -/
theorem updated?_extension (options : Options) (w : Item) (delta : Int) :
    Update.updated? (extension options delta) w =
    ((Assoc.find? w "leaseDuration").bind Value.decimal?).bind fun lease =>
      ((Assoc.find? w "expiry").bind Value.decimal?).map fun expiry =>
        moved options w (.decimal (lease.add (.ofInt delta)))
          (.decimal (expiry.add (.ofInt delta))) := by
  cases hname : options.ttlName? <;>
    cases hl : (Assoc.find? w "leaseDuration").bind Value.decimal? <;>
    cases he : (Assoc.find? w "expiry").bind Value.decimal? <;>
    simp [extension, moved, hname, Update.updated?, Update.sums?, Update.resolve, Assoc.find?, hl,
      he, Assoc.putAll]

theorem updated?_extension_of_some (options : Options) {w : Item} {lease expiry : Decimal}
    (delta : Int) (hl : (Assoc.find? w "leaseDuration").bind Value.decimal? = some lease)
    (he : (Assoc.find? w "expiry").bind Value.decimal? = some expiry) :
    Update.updated? (extension options delta) w =
      some (moved options w (.decimal (lease.add (.ofInt delta)))
        (.decimal (expiry.add (.ofInt delta)))) := by
  rw [updated?_extension, hl, he]
  rfl

section Moved
variable {options : Options} (hsep : options.Separate) {w : Item} {c : Claim} {v x : Value}
include hsep

theorem find?_moved : Assoc.find? (moved options w v x) "leaseDuration" = some v ∧
    Assoc.find? (moved options w v x) "expiry" = some x := by
  have hw : Assoc.find? ((Assoc.put w "leaseDuration" v).put "expiry" x)
    "leaseDuration" = some v := by
    rw [Assoc.find?_put_ne (by decide), Assoc.find?_put_self]
  unfold moved
  split
  · rename_i name hname
    have hne {k : String} (hk : k ∈ "lockId" :: Lock.fieldNames) : name ≠ k := by
      rintro rfl
      exact hsep name hname hk
    rw [Assoc.find?_put_ne (hne (by decide)), Assoc.find?_put_ne (hne (by decide))]
    exact ⟨hw, Assoc.find?_put_self ..⟩
  · exact ⟨hw, Assoc.find?_put_self ..⟩

theorem IsItemOf.moved (h : IsItemOf w c) : IsItemOf (moved options w v x) c := by
  have hw : IsItemOf ((Assoc.put w "leaseDuration" v).put "expiry" x) c :=
    (h.put (by decide) v).put (by decide) x
  have hsub : ∀ k ∈ ["lockId", "namespace", "lockName", "owner", "instanceId"],
    k ∈ "lockId" :: Lock.fieldNames := by
    decide
  unfold Items.moved
  split
  · rename_i name hname
    exact hw.put (fun hn => hsep name hname (hsub name hn)) x
  · exact hw

end Moved

theorem holds_extension {options : Options} (hsep : options.Separate) {w : Item} {c : Claim}
    {lease expiry : Int} (h : Holds w c lease expiry) (delta : Int) :
    ∃ w', Update.updated? (extension options delta) w = some w' ∧
    Holds w' c (lease + delta) (expiry + delta) := by
  obtain ⟨v, hv, hvi⟩ := h.lease
  obtain ⟨x, hx, hxi⟩ := h.expiry
  refine ⟨_, updated?_extension_of_some options delta (by rw [hv]; exact hvi.decimal?)
    (by rw [hx]; exact hxi.decimal?), ?_⟩
  rw [Decimal.add_ofInt, Decimal.add_ofInt]
  have hmoved := (h.put_lease (v := .decimal (.ofInt (lease + delta))) (.inr rfl)).put_expiry
    (v := .decimal (.ofInt (expiry + delta))) (.inr rfl)
  unfold moved
  split
  · rename_i name hname
    exact hmoved.put (hsep name hname) _
  · exact hmoved

theorem extension_nil (options : Options) (delta : Int) :
    Update.updated? (extension options delta) [] = none := by
  exact updated?_extension options [] delta

/-- Every item holds the record of a claim under the claim's key. -/
def Good (s : Store) : Prop :=
  ∀ k w, Assoc.find? s k = some w → ∃ c lease expiry, Holds w c lease expiry ∧ c.key = k

theorem Good.cases (options : Options) {s : Store} (h : Good s) (k : String) :
    (Assoc.find? s k = none ∧ (system options).record s k = none) ∨
    ∃ w c lease expiry, Assoc.find? s k = some w ∧ Holds w c lease expiry ∧
      (system options).record s k = some (c.lock (some lease) (some expiry)) := by
  cases hw : Assoc.find? s k with
  | none => exact .inl ⟨rfl, by simp only [System.record, hw, Option.bind_none]⟩
  | some w =>
    obtain ⟨c, lease, expiry, hh, -⟩ := h k w hw
    exact .inr ⟨w, c, lease, expiry, rfl, hh, by
      simp only [System.record, hw, Option.bind_some, hh.ofFields, Except.toOption]⟩

theorem Good.put {s : Store} (h : Good s) {k : String} {w : Item} {c : Claim} {lease expiry : Int}
    (hw : Holds w c lease expiry) (hk : c.key = k) : Good (Assoc.put s k w) := by
  intro k' w' hf
  rw [Assoc.find?_put] at hf
  split at hf
  · rename_i hkk; cases hf; exact ⟨c, lease, expiry, hw, hk.trans hkk⟩
  · exact h k' w' hf

theorem Good.erase {s : Store} (h : Good s) (k : String) : Good (Assoc.erase s k) := by
  intro k' w hf
  by_cases hk : k' = k
  · subst hk; rw [Assoc.find?_erase_self] at hf; cases hf
  · rw [Assoc.find?_erase_ne hk] at hf; exact h k' w hf

/-! ### Conditions -/

section Conditions
variable {w : Item} {c c' : Claim} {lease expiry : Int}

theorem heldBy_holds (h : IsItemOf w c') :
    (heldBy c).holds w = (decide (c.owner = c'.owner) &&
      decide (c.instanceId = c'.instanceId)) := by
  simp only [heldBy, Condition.holds, compare, h.owner, h.instanceId, Claim.raw_owner,
    Claim.raw_instanceId,
    sameValue_text, Value.text.injEq, eq_comm]

theorem isFree_holds (h : HoldsNumbers w c' lease expiry) (now : Int) :
    (isFree c now).holds w =
      (decide (expiry < now) ||
        (decide (c.owner = c'.owner) && decide (c.instanceId = c'.instanceId))) := by
  obtain ⟨x, hx, hxi⟩ := h.expiry
  rw [← heldBy_holds h.toIsItemOf]
  simp only [isFree, Condition.holds, compare, h.id, hx, hxi.below, Option.isNone_some,
    Bool.false_or]

theorem isLive_holds (h : HoldsNumbers w c' lease expiry) (now : Int) :
    (isLive c now).holds w =
      (!decide (expiry < now) &&
        (decide (c.owner = c'.owner) && decide (c.instanceId = c'.instanceId))) := by
  obtain ⟨x, hx, hxi⟩ := h.expiry
  rw [← heldBy_holds h.toIsItemOf]
  simp only [isLive, Condition.holds, compare, h.id, hx, hxi.atLeast, Option.isSome_some,
    Bool.true_and]

end Conditions

/-! ### Calls -/

/-- Puts are of items of claims, updates are the service's own. -/
def May (options : Options) : Call → Prop
  | .put item _ => ∃ c lease expiry, Holds item c lease expiry
  | .update _ u _ => ∃ delta, u = extension options delta
  | _ => True

def terms (options : Options) (contention : Prop) : Terms interface Store Unit :=
  .plain client (May options) Good contention

theorem Good.client {options : Options} (hsep : options.Separate) {s : Store} (h : Good s)
    {call : Call} (hmay : May options call) : Good (client call s).2 := by
  cases call with
  | get id => exact h
  | put item condition =>
    obtain ⟨c, lease, expiry, hi⟩ := hmay
    simp only [Items.client, hi.idOf]
    split
    · exact h.put hi rfl
    · exact h
  | update id u condition =>
    obtain ⟨delta, rfl⟩ := hmay
    simp only [Items.client, hsep.isProper delta, if_true]
    split
    · split
      · rename_i w' hw'
        cases hf : Assoc.find? s id with
        | none =>
          rw [hf, Option.getD_none, extension_nil] at hw'
          cases hw'
        | some w =>
          obtain ⟨c, lease, expiry, hw, hk⟩ := h id w hf
          obtain ⟨w'', hx, hw''⟩ := holds_extension hsep hw delta
          rw [hf, Option.getD_some, hx] at hw'
          cases hw'
          exact h.put hw'' hk
      · exact h
    · exact h
  | delete id condition =>
    simp only [Items.client]
    split
    · exact h.erase id
    · exact h

section Obeys
variable {α : Type} {contention : Prop} {options : Options} {g : Unit} {s₀ s₁ s : Store}
    {op : Operation} {c : Claim}

theorem obeys_settle {Q : Except Error α → Unit → Store → Store → Prop} {operation : Action}
    {event : String} {conflict failed : α} {session : Session interface α}
    (h : session.Obeys (terms options contention) (fun r g s₀ s₁ => match r with
      | .ok a => Q (.ok a) g s₀ s₁
      | .error e => e = .fault (refusal conditionFailed) ∧ Q (.ok conflict) g s₀ s₁) g s₀ s₁) :
    (settle operation event c conflict failed session).Obeys
      (terms options contention) Q g s₀ s₁ := by
  rw [settle, obeys_rescue]
  refine h.mono fun r g s₀ s₁ hr => ?_
  cases r with
  | ok a => exact hr
  | error e => obtain ⟨rfl, hQ⟩ := hr; exact hQ

theorem part_response (name : String) (w : Item) : part (response name (some w)) name = .map w := by
  simp [part, response, Assoc.find?]

theorem obeys_ofItem {Q : Except Error (Option Lock) → Unit → Store → Store → Prop} {name : String}
    {w : Option Item} {l : Option Lock} (hw : match w with
      | none => l = none
      | some w =>
        ∃ c lease expiry, Holds w c lease expiry ∧ l = some (c.lock (some lease) (some expiry)))
    (h : Q (.ok l) g s₀ s₁) :
    (ofReading (ofItem (part (response name w) name))).Obeys
      (terms options contention) Q g s₀ s₁ := by
  cases w with
  | none =>
    subst hw
    exact h
  | some w =>
    obtain ⟨c, lease, expiry, hh, rfl⟩ := hw
    rw [part_response, hh.ofItem]
    exact h

theorem same_lock {c' : Claim} {lease expiry : Int}
    (hr : (system options).record s c.key = some (c'.lock (some lease) (some expiry)))
    (hk : (system options).Keyed s c.realm c.name) : c'.realm = c.realm ∧ c'.name = c.name := by
  obtain ⟨h1, h2⟩ := hk _ hr
  exact ⟨Value.text.inj (Option.some.inj h1), Value.text.inj (Option.some.inj h2)⟩

theorem settles {r : Except Error Verdict} {s' : Store}
    (hs : ∀ k, k ≠ c.key → Assoc.find? s' k = Assoc.find? s k)
    (h : (system options).Keyed s c.realm c.name → (system options).Ends contention op
      ((system options).record s c.key) ((system options).record s' c.key) r) :
    (system options).Settles contention op c r s s' where
  others := fun k hk => by simp only [System.record, hs k hk]
  ends := h

theorem settles_put {v : Verdict} {c' : Claim} {w : Item} {lease expiry : Int}
    (hw : Holds w c' lease expiry)
    (h : (system options).Keyed s c.realm c.name →
      op.Conforms Lock.prolong ((system options).record s c.key) v
      (some (c'.lock (some lease) (some expiry)))) :
    (system options).Settles contention op c (.ok v) s (Assoc.put s c.key w) := by
  refine settles (fun _ hk => Assoc.find?_put_ne (Ne.symm hk) s w) fun hkey =>
    .ruled ?_ fun _ _ _ => trivial
  simp only [System.record, Assoc.find?_put_self, Option.bind_some, hw.ofFields, Except.toOption]
  exact h hkey

theorem settles_erase {v : Verdict} (h : (system options).Keyed s c.realm c.name →
      op.Conforms Lock.prolong ((system options).record s c.key) v none) :
    (system options).Settles contention op c (.ok v) s (Assoc.erase s c.key) := by
  refine settles (fun _ hk => Assoc.find?_erase_ne hk s) fun hkey => .ruled ?_ fun _ _ _ => trivial
  simp only [System.record, Assoc.find?_erase_self, Option.bind_none]
  exact h hkey

theorem obeys_acquire (hsep : options.Separate) (h : op.check = .ok c) (hk : op.kind = .acquire)
    (s : Store) :
    (op.attempt (service options) c).Obeys (terms options contention)
      (fun r _ => (system options).Settles contention op c r) () s s := by
  have hitem := holds_itemOf hsep c op.delta (Decision.orZero op.lock.expiry)
  have hlock := Operation.acquire_request h hk
  simp only [Operation.attempt, hk, service, acquire, obeys_bind]
  refine obeys_settle ?_
  rw [bind_eq, obeys_bind]
  refine obeys_call_plain rfl fun s hg _ => ⟨⟨_, _, _, hitem⟩, ?_⟩
  dsimp only [client, Claim.lock_raw]
  simp only [hitem.idOf]
  rcases hg.cases options c.key with ⟨hf, hr⟩ | ⟨w, c', lease, expiry, hf, hw, hr⟩
  · have hc : (isFree c op.now).holds ((Assoc.find? s c.key).getD []) = true := by rw [hf]; rfl
    rw [if_pos hc, hf]
    have hp : op.permits ((system options).record s c.key) = true := by
      simp only [Operation.permits, hk, hr]; rfl
    refine settles_put hitem fun _ => ?_
    rw [hlock]
    exact Operation.conforms_taken hk hp rfl rfl
  · have hpermits (hkey : (system options).Keyed s c.realm c.name) :
        op.permits ((system options).record s c.key) = (isFree c op.now).holds w := by
      obtain ⟨hreal, hname⟩ := same_lock hr hkey
      simp only [Operation.permits, hk, hr, Operation.owns_lock h hreal hname, Claim.isGone_lock,
        isFree_holds hw.holdsNumbers]
    rw [hf, Option.getD_some]
    cases hc : (isFree c op.now).holds w with
    | true =>
      have taken {p : Prop} [Decidable p] : (system options).Settles contention op c
          (.ok (if p then .lockReplaced else .acquired, none)) s (Assoc.put s c.key
            (itemOf options (c.lock (some op.delta) (some (Decision.orZero op.lock.expiry))))) := by
        refine settles_put hitem fun hkey => ?_
        rw [hlock]
        split
        · exact Operation.conforms_taken hk ((hpermits hkey).trans hc) rfl rfl
        · exact Operation.conforms_taken hk ((hpermits hkey).trans hc) rfl rfl
      simp only [if_true]
      show ((ofReading (ofItem (part (response "Attributes" (some w)) "Attributes"))).bind _).Obeys
        _ _ _ _ _
      rw [obeys_bind]
      exact obeys_ofItem ⟨c', lease, expiry, hw, rfl⟩ taken
    | false =>
      refine ⟨rfl, settles (fun _ _ => rfl) fun hkey => .ruled ?_ fun _ _ _ => trivial⟩
      exact Operation.conforms_refused ((hpermits hkey).trans hc) (by rw [hk]; rfl) rfl

theorem obeys_renew (hsep : options.Separate) (h : op.check = .ok c) (hk : op.kind = .renew)
    (s : Store) :
    (op.attempt (service options) c).Obeys (terms options contention)
      (fun r _ => (system options).Settles contention op c r) () s s := by
  simp only [Operation.attempt, hk, service, renew]
  refine obeys_settle ?_
  rw [bind_eq, obeys_bind]
  refine obeys_call_plain rfl fun s hg _ => ⟨⟨_, rfl⟩, ?_⟩
  dsimp only [client, Claim.key_raw]
  simp only [hsep.isProper, if_true]
  rcases hg.cases options c.key with ⟨hf, hr⟩ | ⟨w, c', lease, expiry, hf, hw, hr⟩
  · have hc : ¬(isLive c op.now).holds ((Assoc.find? s c.key).getD []) = true := by
      rw [hf]; exact Bool.false_ne_true
    rw [if_neg hc]
    have hp : op.permits ((system options).record s c.key) = false := by
      simp only [Operation.permits, hk, hr]; rfl
    refine ⟨rfl, settles (fun _ _ => rfl) fun _ => .ruled ?_ fun _ _ _ => trivial⟩
    exact Operation.conforms_refused hp (by rw [hk]; rfl) rfl
  · have hpermits (hkey : (system options).Keyed s c.realm c.name) :
        op.permits ((system options).record s c.key) = (isLive c op.now).holds w := by
      obtain ⟨hreal, hname⟩ := same_lock hr hkey
      simp only [Operation.permits, hk, hr, Operation.owns_lock h hreal hname, Claim.isGone_lock,
        isLive_holds hw.holdsNumbers]
    rw [hf, Option.getD_some]
    cases hc : (isLive c op.now).holds w with
    | true =>
      obtain ⟨w', hx, hw'⟩ := holds_extension hsep hw op.delta
      simp only [if_true, hx]
      show ((ofReading (ofItem (part (response "Attributes" (some w')) "Attributes"))).bind _).Obeys
        _ _ _ _ _
      rw [obeys_bind]
      refine obeys_ofItem ⟨c', _, _, hw', rfl⟩ ?_
      refine settles_put hw' fun hkey => ?_
      have hn : op.renewed Lock.prolong ((system options).record s c.key) =
          some (c'.lock (some (lease + op.delta)) (some (expiry + op.delta))) := by
        rw [Operation.renewed, hk, hr]; rfl
      rw [← hn]
      exact Operation.conforms_renewed hk ((hpermits hkey).trans hc)
    | false =>
      refine ⟨rfl, settles (fun _ _ => rfl) fun hkey => .ruled ?_ fun _ _ _ => trivial⟩
      exact Operation.conforms_refused ((hpermits hkey).trans hc) (by rw [hk]; rfl) rfl

theorem obeys_getItem {Q : Except Error (Option Lock) → Unit → Store → Store → Prop} {k : String}
    (hs : s₁ = s₀) (h : ∀ s, Good s → (¬contention → s = s₁) →
      Q (.ok ((system options).record s k)) g s s) :
    (getItem k).Obeys (terms options contention) Q g s₀ s₁ := by
  rw [getItem, bind_eq, obeys_bind]
  refine obeys_call_plain hs fun s hg hc => ⟨trivial, ?_⟩
  refine obeys_ofItem ?_ (h s hg hc)
  rcases hg.cases options k with ⟨hf, hr⟩ | ⟨w, c', lease, expiry, hf, hw, hr⟩
  · rw [hf]; exact hr
  · rw [hf]; exact ⟨c', lease, expiry, hw, hr⟩

theorem obeys_release (h : op.check = .ok c) (hk : op.kind = .release) (s : Store) :
    (op.attempt (service options) c).Obeys (terms options contention)
      (fun r _ => (system options).Settles contention op c r) () s s := by
  simp only [Operation.attempt, hk, service, release, obeys_bind]
  rw [guarded, Service.guarded, obeys_rescue]
  refine obeys_call_plain rfl fun s hg _ => ⟨trivial, ?_⟩
  dsimp only [client, Claim.key_raw]
  rcases hg.cases options c.key with ⟨hf, hr⟩ | ⟨w, c', lease, expiry, hf, hw, hr⟩
  · have hc : ¬(heldBy c).holds ((Assoc.find? s c.key).getD []) = true := by
      rw [hf]; exact Bool.false_ne_true
    rw [if_neg hc]
    show ((getItem c.key).bind _).Obeys _ _ _ _ _
    rw [obeys_bind]
    refine obeys_getItem rfl fun s' hg' hs => ?_
    refine settles (fun _ _ => rfl) fun _ => .classified hk fun hn => ?_
    rw [hs hn, hr]
    rfl
  · have howns (hkey : (system options).Keyed s c.realm c.name) :
        op.owns ((system options).record s c.key) = (heldBy c).holds w := by
      obtain ⟨hreal, hname⟩ := same_lock hr hkey
      rw [hr, Operation.owns_lock h hreal hname, heldBy_holds hw.holdsNumbers.toIsItemOf]
    rw [hf, Option.getD_some]
    cases hc : (heldBy c).holds w with
    | true =>
      have freed {o : Outcome} (ho : o.operation = .release) (hs : o.isSuccess = true) :
          (system options).Settles contention op c (.ok (o, none)) s (Assoc.erase s c.key) := by
        refine settles_erase fun hkey => Operation.conforms_freed hk ?_ ho hs (.inl rfl)
        simp only [Operation.permits, hk, howns hkey, hc, Bool.or_true]
      have hv : releaseOutcome (part (response "Attributes" (some w)) "Attributes") op.now =
          .ok (if (c'.lock (some lease) (some expiry)).isExpired
            op.now then .releasedExpired else .released) := by
        simp only [releaseOutcome, part_response, hw.ofItem]
        rfl
      simp only [if_true, hv]
      split
      · exact freed rfl rfl
      · exact freed rfl rfl
    | false =>
      simp only [Bool.false_eq_true, if_false]
      show ((getItem c.key).bind _).Obeys _ _ _ _ _
      rw [obeys_bind]
      refine obeys_getItem rfl fun s' hg' hs => ?_
      refine settles (fun _ _ => rfl) fun hkey => .classified hk fun hn => ?_
      rw [hs hn] at hkey ⊢
      exact (howns hkey).trans hc

theorem obeys_find (realm name : String) (s : Store) :
    (find realm name).Obeys (terms options contention)
      (fun r _ s s' => r = .ok ((system options).record s (Lock.keyOf realm name)) ∧
      (system options).record s' = (system options).record s) () s s := by
  rw [find, guarded, Service.guarded, obeys_rescue]
  exact obeys_getItem rfl fun _ _ _ => ⟨rfl, rfl⟩

end Obeys

theorem good_sweep {options : Options} {t : Int} {s s' : Store} (h : Good s)
    (hs : (system options).Sweep t s s') :
    Good s' :=
  fun _ _ hw => hs.all h hw

def laws {options : Options} (hsep : options.Separate) : (system options).Laws where
  Token := Unit
  terms := terms options
  good := Good
  good_eq := fun _ => rfl
  seen := fun _ _ => trivial
  sound := fun _ => Terms.plain_sound fun hg hmay => hg.client hsep hmay
  fair := fun _ => Terms.plain_fair fun hg hmay => hg.client hsep hmay
  extend := fun _ _ _ => ⟨_, _, rfl⟩
  extend_live := fun _ _ => rfl
  client_mem := fun _ => rfl
  losses_mem := nofun
  passes_refl := fun _ => trivial
  slot_inj := Lock.keyOf_inj
  writable_of_fits := fun _ _ _ => trivial
  good_empty := nofun
  record_empty := fun _ => rfl
  record_of_silent := fun h => congrArg (system options).record h
  good_sweep := good_sweep
  admits_sweep := fun _ _ _ _ hs => Terms.plain_admits fun hg => good_sweep hg hs
  attempt := by
    intro contention op c h s
    cases hk : op.kind with
    | acquire => exact obeys_acquire hsep h hk s
    | renew => exact obeys_renew hsep h hk s
    | release => exact obeys_release h hk s
  find := fun _ realm name s => obeys_find realm name s

end Leasehold.Items
