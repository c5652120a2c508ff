import Leasehold.Proofs.Execution.Items
import Leasehold.Proofs.Twin

/-!
# Two runs on conditional items

Writes that come out alike make operations that run alike; releases also have to read alike, in case
they are refused.
-/

namespace Leasehold.Items
open Session
variable {Γ : Context → Context → Prop} {T : Store → Store → Prop} {s s' : Store}
  {options options' : Options} {op op' : Operation} {c c' : Claim} {r : String → String}

theorem twin_settle {α : Type} {R : α → α → Store → Store → Prop} {operation : Action}
    {event : String} {conflict failed : α} {session session' : Session interface α}
    (hrealm : c'.realm = c.realm) (hname : c'.name = c.name)
    (h : Twin Γ T client R session session' s s') (hconflict : ∀ t t', R conflict conflict t t')
    (hfailed : ∀ t t', R failed failed t t') :
    Twin Γ T client R (settle operation event c conflict failed session)
      (settle operation event c' conflict failed session') s s' := by
  rw [settle, settle]
  simp only [Claim.raw_realm, Claim.raw_name, hrealm, hname]
  refine twin_rescue h fun e t t' hT _ => ?_
  cases isConditionFailure e
  · exact twin_note (twin_done hT (hfailed t t'))
  · exact twin_note (twin_done hT (hconflict t t'))

theorem twin_getItem {R : Option Lock → Option Lock → Prop} {key key' : String} (hT : T s s')
    (h : Alike R (reading (Assoc.find? s key)) (reading (Assoc.find? s' key'))) :
    Twin Γ T client (fun l l' _ _ => R l l') (getItem key) (getItem key') s s' := by
  refine twin_ask (I := interface) (.get key) (.get key') hT hT (.ok ?_)
  show Twin Γ T client _ (ofReading (ofItem (part (response "Item" (Assoc.find? s key)) "Item")))
    (ofReading (ofItem (part (response "Item" (Assoc.find? s' key')) "Item"))) s s'
  rw [ofItem_part, ofItem_part]
  exact twin_ofReading hT h

theorem client_delete_error {key : String} {condition : Condition} {f : Fault}
    (h : (client (.delete key condition) s).1 = .error f) :
    (client (.delete key condition) s).2 = s := by
  simp only [client] at h ⊢
  split
  · rename_i hc
    rw [if_pos hc] at h
    cases h
  · rfl

theorem twin_attempt (h : op.Twins op' c c') (hT : T s s')
    (hserved : T (client (write options op c) s).2 (client (write options' op' c') s').2)
    (hx : Alike (fun w w' => Alike (fun v v' => v' = v.rename r)
      ((ofItem (part w "Attributes")).map (verdict op))
        ((ofItem (part w' "Attributes")).map (verdict op')))
      (client (write options op c) s).1 (client (write options' op' c') s').1)
    (hlook : op.kind = .release → Alike
      (fun l l' => Decision.afterRefusedRelease l' op'.now = Decision.afterRefusedRelease l op.now)
      (reading (Assoc.find? s c.key)) (reading (Assoc.find? s' c'.key))) :
    Twin Γ T client (RenamesVerdict r) (op.attempt (service options) c)
      (op'.attempt (service options') c') s s' := by
  by_cases hk : op.kind = .release
  · obtain ⟨kind, l, now⟩ := op
    obtain ⟨kind', l', now'⟩ := op'
    obtain rfl : kind' = kind := h.kind
    obtain rfl : kind' = .release := hk
    have hclassify : Twin Γ T client (fun o o' _ _ => o' = o)
        ((getItem c.key).bind fun existing => done (Decision.afterRefusedRelease existing now))
        ((getItem c'.key).bind fun existing => done (Decision.afterRefusedRelease existing now')) s
          s' :=
      twin_bind (twin_getItem hT (hlook rfl)) fun _ _ _ _ hT ho => twin_done hT ho
    have hrelease : Twin Γ T client (fun o o' _ _ => o' = o) (release c now)
      (release c' now') s s' := by
      rw [release, release]
      simp only [Claim.raw_realm, Claim.raw_name, Claim.key_raw, h.realm, h.name]
      refine Service.twin_guarded (twin_call ?_ fun f => ?_) fun _ _ _ => rfl
      · change T (client (.delete c.key (heldBy c)) s).2
          (client (.delete c'.key (heldBy c')) s').2 at hserved
        change Alike _ (client (.delete c.key (heldBy c)) s).1
          (client (.delete c'.key (heldBy c')) s').1 at hx
        revert hx
        cases hp : (client (.delete c.key (heldBy c)) s).1 <;>
          cases hp' : (client (.delete c'.key (heldBy c')) s').1 <;> rintro ⟨⟩
        · rename_i f
          rw [client_delete_error hp, client_delete_error hp']
          dsimp only
          split
          · exact hclassify
          · exact twin_fail hT
        · rename_i w w' hv
          refine twin_ofReading hserved ?_
          have hfst (v : Value) (l : Record) (now : Int) :
              releaseOutcome v now = ((ofItem v).map (verdict ⟨.release, l, now⟩)).map
                Prod.fst := by
            rw [releaseOutcome_eq]
            cases ofItem v <;> rfl
          rw [hfst _ l, hfst _ l']
          exact hv.map fun _ _ hv => by rw [hv]; rfl
      · dsimp only
        split
        · exact hclassify
        · exact twin_fail hT
    exact twin_bind hrelease fun o o' _ _ hT ho => twin_done hT (by rw [ho]; rfl)
  · rw [attempt_eq h.check hk, attempt_eq h.check' (h.kind ▸ hk), h.kind]
    refine twin_settle h.realm h.name (twin_ask _ _ hT hserved (hx.mono fun w w' hw => ?_))
      (fun _ _ => rfl) fun _ _ => rfl
    rw [ofReading_map, ofReading_map]
    exact twin_ofReading hserved hw

/-! ### Other instance ids -/

/-- The item with its instance id renamed. -/
abbrev Item.rename (r : String → String) (item : Item) :
    Item := Value.Fields.rename r "instanceId" item

section Items
variable {item : Item}

theorem sameValue_rename (hr : r.Injective) (v : Value) (i : String) :
    sameValue (v.rename r) (.text (r i)) = sameValue v (.text i) := by
  rw [sameValue_text, sameValue_text]
  cases v <;> simp [Value.rename, hr.eq_iff]

theorem compare_rename_ne {field : String} (h : field ≠ "instanceId") (test : Value → Bool) :
    compare (Item.rename r item) field test = compare item field test := by
  rw [compare, compare, Item.rename, Value.Fields.find?_rename_ne h]

theorem heldBy_rename (hr : r.Injective) (c : Claim) :
    (heldBy (c.rename r)).holds (Item.rename r item) = (heldBy c).holds item := by
  have hid : compare (Item.rename r item) "instanceId" (sameValue · (.text (r c.instanceId))) =
      compare item "instanceId" (sameValue · (.text c.instanceId)) := by
    simp only [compare, Item.rename, Value.Fields.find?_rename]
    cases hf : Assoc.find? item "instanceId" with
    | none => rfl
    | some v =>
      exact sameValue_rename hr v c.instanceId
  simp only [heldBy, Condition.holds, compare_rename_ne (by decide : "owner" ≠ "instanceId")]
  exact congrArg _ hid

theorem isFree_rename (hr : r.Injective) (c : Claim) (now : Int) :
    (isFree (c.rename r) now).holds (Item.rename r item) = (isFree c now).holds item := by
  simp only [isFree, Condition.holds, compare_rename_ne (by decide : "expiry" ≠ "instanceId"),
    heldBy_rename hr,
    Item.rename, Value.Fields.find?_rename_ne (by decide : "lockId" ≠ "instanceId")]

theorem isLive_rename (hr : r.Injective) (c : Claim) (now : Int) :
    (isLive (c.rename r) now).holds (Item.rename r item) = (isLive c now).holds item := by
  simp only [isLive, Condition.holds, compare_rename_ne (by decide : "expiry" ≠ "instanceId"),
    heldBy_rename hr,
    Item.rename, Value.Fields.find?_rename_ne (by decide : "lockId" ≠ "instanceId")]

theorem reading_rename {w : Option Item} :
    reading (w.map (Item.rename r)) = (reading w).map (Option.map (Lock.rename r)) := by
  cases w with
  | none => rfl
  | some item =>
    have htruthy : (Value.map (Item.rename r item)).isTruthy = (Value.map item).isTruthy := by
      cases item <;> rfl
    simp only [reading, Option.map_some, ofItem, Lock.ofValue, htruthy, Item.rename,
      Lock.ofFields_rename]
    split
    · cases Lock.ofFields item <;> rfl
    · rfl

section Separate
variable (hsep : options.Separate)
include hsep

theorem ne_of_ttl {name : String} (h : options.ttlName? = some name) : name ≠ "instanceId" := by
  rintro rfl
  exact absurd (hsep _ h) (by decide)

theorem itemOf_rename (l : Lock) :
    itemOf options (l.rename r) = Item.rename r (itemOf options l) := by
  have hnull (k : String) (v : Value) :
      Context.isNull (if k = "instanceId" then v.rename r else v) = Context.isNull v := by
    split
    · cases v <;> rfl
    · rfl
  have hplain : ("lockId", Value.text (l.rename r).key) :: (l.rename r).toFields.filter
    (fun e => !Context.isNull e.2) =
      Item.rename r (("lockId", .text l.key) :: l.toFields.filter
        fun e => !Context.isNull e.2) := by
    rw [Lock.toFields_rename]
    simp only [Item.rename, Value.Fields.rename, Assoc.mapAt, Assoc.mapValues, List.map_cons,
      List.filter_map, Function.comp_def, hnull]
    rfl
  have hexpiry : (l.rename r).expiry = l.expiry := rfl
  simp only [itemOf, hplain, hexpiry]
  cases hname : options.ttlName? with
  | none => rfl
  | some name =>
    cases l.expiry with
    | none => rfl
    | some expiry => exact (Value.Fields.put_rename_ne (ne_of_ttl hsep hname) _).symm

end Separate

theorem moved_rename (hsep : options.Separate) (lease expiry : Value) :
    moved options (Item.rename r item) lease expiry = Item.rename r
      (moved options item lease expiry) := by
  have hput : Assoc.put (Assoc.put (Item.rename r item) "leaseDuration" lease) "expiry" expiry =
      Item.rename r (Assoc.put (Assoc.put item "leaseDuration" lease) "expiry" expiry) := by
    rw [Item.rename, Item.rename, Value.Fields.put_rename_ne (by decide : "expiry" ≠ "instanceId"),
      Value.Fields.put_rename_ne (by decide : "leaseDuration" ≠ "instanceId")]
  unfold moved
  rw [hput]
  split
  · rename_i name hname
    exact (Value.Fields.put_rename_ne (ne_of_ttl hsep hname) expiry).symm
  · rfl

theorem apply_rename (hsep : options.Separate) (delta : Int) :
    Update.updated? (extension options delta) (Item.rename r item) =
      (Update.updated? (extension options delta) item).map (Item.rename r) := by
  rw [updated?_extension, updated?_extension, Item.rename,
    Value.Fields.find?_rename_ne (by decide : "leaseDuration" ≠ "instanceId"),
    Value.Fields.find?_rename_ne (by decide : "expiry" ≠ "instanceId")]
  cases (Assoc.find? item "leaseDuration").bind Value.decimal? with
  | none => rfl
  | some lease =>
    cases (Assoc.find? item "expiry").bind Value.decimal? with
    | none => rfl
    | some expiry => exact congrArg some (moved_rename hsep _ _)

end Items

section Renamed

/-- The items of a lock in two tables, and what may become of them. -/
structure Pair (r : String → String) (T : Store → Store → Prop) (s s' : Store)
    (key : String) : Prop where
  left : T s s'
  found : Assoc.find? s' key = (Assoc.find? s key).map (Item.rename r)
  put : ∀ item, T (Assoc.put s key item) (Assoc.put s' key (Item.rename r item))
  erase : T (Assoc.erase s key) (Assoc.erase s' key)

/-- What is handed back by two calls that leave these tables. -/
def Replies (r : String → String) (T : Store → Store → Prop)
    (p p' : Except Fault Value.Fields × Store) : Prop :=
  T p.2 p'.2 ∧ Alike (fun w w' => ∃ item : Option Item, w = response "Attributes" item ∧
    w' = response "Attributes" (item.map (Item.rename r))) p.1 p'.1

variable {key : String}

theorem Pair.getD (h : Pair r T s s' key) :
    (Assoc.find? s' key).getD [] = Item.rename r ((Assoc.find? s key).getD []) := by
  rw [h.found]
  cases Assoc.find? s key <;> rfl

theorem Pair.old (h : Pair r T s s' key) {t t' : Store} (hT : T t t') :
    Replies r T (.ok (response "Attributes" (Assoc.find? s key)), t)
      (.ok (response "Attributes" (Assoc.find? s' key)), t') :=
  ⟨hT, .ok ⟨Assoc.find? s key, rfl, by rw [h.found]⟩⟩

theorem client_rename (hr : r.Injective) (hsep : options.Separate) (hc : op.check = .ok c)
    (h : Pair r T s s' c.key) :
    Replies r T (client (write options op c) s)
      (client (write options (op.rename r) (c.rename r)) s') := by
  have hold := h.getD
  have hkey : op.lock.key = c.key := by rw [op.lock_of_check hc, Claim.key_lock]
  obtain ⟨kind, l, now⟩ := op
  cases kind with
  | acquire =>
    have httl : options.ttlName? ≠ some "lockId" := fun h => hsep _ h (.head _)
    have hid : idOf? (itemOf options l.lock) = some c.key :=
      (idOf_itemOf_lock httl _).trans (congrArg some hkey)
    have hid' : idOf? (itemOf options (l.lock.rename r)) = some c.key :=
      (idOf_itemOf_lock httl _).trans (congrArg some hkey)
    show Replies r T (client (.put (itemOf options l.lock) (isFree c now)) s)
      (client (.put (itemOf options (l.rename r).lock) (isFree (c.rename r) now)) s')
    rw [Record.lock_rename]
    simp only [client, hid, hid', hold, isFree_rename hr]
    split
    · rw [itemOf_rename hsep]
      exact h.old (h.put _)
    · exact ⟨h.left, .error _⟩
  | renew =>
    have happly :=
      @apply_rename options r ((Assoc.find? s c.key).getD []) hsep
        (Operation.delta ⟨.renew, l, now⟩)
    show Replies r T (client (.update c.key (extension options _) (isLive c now)) s)
      (client (.update c.key (extension options (Operation.delta ⟨.renew, l, now⟩))
        (isLive (c.rename r) now)) s')
    simp only [client, hold, hsep.isProper, if_true, isLive_rename hr, happly]
    split
    · cases hitem : Update.updated? (extension options (Operation.delta ⟨.renew, l, now⟩))
          ((Assoc.find? s c.key).getD []) with
      | none => exact ⟨h.left, .error _⟩
      | some item => exact ⟨h.put item, .ok ⟨some item, rfl, rfl⟩⟩
    · exact ⟨h.left, .error _⟩
  | release =>
    show Replies r T (client (.delete c.key (heldBy c)) s)
      (client (.delete c.key (heldBy (c.rename r))) s')
    simp only [client, hold, heldBy_rename hr]
    split
    · exact h.old h.erase
    · exact ⟨h.left, .error _⟩

theorem verdict_rename (hr : r.Injective) (op : Operation) (l : Option Lock) :
    verdict (op.rename r) (l.map (Lock.rename r)) = (verdict op l).rename r := by
  have hkind : (op.rename r).kind = op.kind := rfl
  cases hk : op.kind <;> simp only [verdict, hkind, hk]
  · rw [Operation.owns_rename hr]
    rfl
  · rfl
  · cases l <;> rfl

theorem twin_renamed (hr : r.Injective) (hsep : options.Separate)
    (h : op.Twins (op.rename r) c (c.rename r)) (hpair : Pair r T s s' c.key) :
    Twin Γ T client (RenamesVerdict r) (op.attempt (service options) c)
      ((op.rename r).attempt (service options) (c.rename r))
      s s' := by
  obtain ⟨hT, hreply⟩ := client_rename hr hsep h.check hpair
  refine twin_attempt h hpair.left hT (hreply.mono ?_) fun _ => ?_
  · rintro _ _ ⟨item, rfl, rfl⟩
    rw [ofItem_part, ofItem_part, reading_rename]
    cases reading item with
    | error f => exact .error f
    | ok l => exact .ok (verdict_rename hr op l)
  · show Alike _ _ (reading (Assoc.find? s' c.key))
    rw [hpair.found, reading_rename]
    refine (Alike.map_right _ _).mono ?_
    rintro l _ rfl
    cases l <;> rfl

end Renamed

theorem twin_find {R : Option Lock → Option Lock → Prop} {realm name : String} (hT : T s s')
    (hnone : R none none)
    (h : Alike R (reading (Assoc.find? s (Lock.keyOf realm name)))
      (reading (Assoc.find? s' (Lock.keyOf realm name)))) :
    Twin Γ T client (fun l l' _ _ => R l l') (find realm name) (find realm name) s s' :=
  Service.twin_guarded (twin_getItem hT h) fun _ _ _ => hnone

end Leasehold.Items
