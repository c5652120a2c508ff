import Leasehold.Proofs.Execution.Documents
import Leasehold.Proofs.Twin

/-!
# Two runs on documents

Transactions that conclude alike from the documents that they read run alike, however often their
commits are aborted.
-/

namespace Leasehold.Documents
open Session
variable {Γ : Context → Context → Prop} {T : Store → Store → Prop} {s s' : Store}
  {options options' : Options} {op op' : Operation} {c c' : Claim} {r : String → String}

theorem twin_transaction {α β : Type} {R : α → β → Prop} {body : Session interface (α × List Write)}
    {body' : Session interface (β × List Write)} (hT : T s s')
    (hbody : Twin Γ T client (fun p p' t t' => (t = s ∧ t' = s') ∧ R p.1 p'.1 ∧
      T (p.2.foldl Write.apply s) (p'.2.foldl Write.apply s')) body body' s s') :
    Twin Γ T client (fun a b _ _ => R a b) (transaction body) (transaction body') s s' := by
  have hgiveUp {α β : Type} {R : α → β → Store → Store → Prop} (e : Error) {t t' : Store}
    (hT : T t t') :
      Twin Γ T client R (giveUp e) (giveUp e) t t' := twin_call (twin_fail hT) fun _ => twin_fail hT
  have hattempt (left : Nat) (again : Bool) :
      Twin Γ T client (fun a b _ _ => R a b) (attempt body left again)
        (attempt body' left again) s s' := by
    induction left generalizing again with
    | zero => exact hgiveUp _ hT
    | succ left ih =>
      have hopened : Twin Γ T client _ ((ask (I := interface) (.begin again)).bind fun _ => body)
          ((ask (I := interface) (.begin again)).bind fun _ => body') s s' :=
        twin_ask (I := interface) (.begin again) (.begin again) hT hT (.ok hbody)
      refine twin_bind (twin_rescue hopened fun e _ _ hT _ => hgiveUp e hT) ?_
      rintro ⟨a, ws⟩ ⟨b, ws'⟩ _ _ - ⟨⟨rfl, rfl⟩, hab, hws⟩
      refine twin_call (twin_done hws hab) fun f => ?_
      dsimp only
      -- a commit that was aborted has changed nothing
      split
      · exact ih true
      · exact hgiveUp _ hT
  exact hattempt maxAttempts false

theorem twin_attempt (h : op.Twins op' c c') (hT : T s s')
    (hx : Alike (fun p p' => p'.1 = p.1.rename r ∧ T (p.2.foldl Write.apply s)
      (p'.2.foldl Write.apply s'))
        (conclude options op c (Assoc.find? s (pathOf options c.realm c.name)))
          (conclude options' op' c' (Assoc.find? s' (pathOf options' c'.realm c'.name)))) :
    Twin Γ T client (RenamesVerdict r) (op.attempt (service options) c)
      (op'.attempt (service options') c') s s' := by
  rw [attempt_eq options h.check, attempt_eq options' h.check', operate, operate, h.kind]
  simp only [Claim.raw_realm, Claim.raw_name, h.realm, h.name]
  refine Service.twin_guarded (twin_transaction hT ?_) fun _ _ _ => rfl
  refine twin_ask (I := interface) (.get (pathOf options c.realm c.name) true)
    (.get (pathOf options' c'.realm c'.name) true) hT hT (.ok (twin_read hT ?_))
  exact hx.mono fun p p' hp => twin_done hT ⟨⟨rfl, rfl⟩, hp⟩

theorem reading_rename {data : Option Value.Fields} :
    reading (data.map (Value.Fields.rename r "instanceId")) = (reading data).map
      (Option.map (Lock.rename r)) := by
  cases data with
  | none => rfl
  | some fields =>
    simp only [reading, Option.map_some, Lock.ofFields_rename]
    cases Lock.ofFields fields <;> rfl

section Separate
variable (hsep : options.Separate)
include hsep

theorem ne_of_ttl {name : String} (h : options.ttlName? = some name) : name ≠ "instanceId" := by
  rintro rfl
  exact absurd (hsep _ h) (by decide)

theorem dataOf_rename (l : Lock) :
    dataOf options (l.rename r) = (dataOf options l).map (Value.Fields.rename r "instanceId") := by
  have hexpiry : (l.rename r).expiry = l.expiry := rfl
  simp only [dataOf, hexpiry, Lock.toFields_rename]
  cases hname : options.ttlName? with
  | none => rfl
  | some name =>
    cases l.expiry with
    | none => rfl
    | some expiry =>
      dsimp only
      cases Instant.ofEpoch expiry with
      | error f => rfl
      | ok t => exact congrArg Except.ok (Value.Fields.put_rename_ne (ne_of_ttl hsep hname) t).symm

end Separate

/-- Under other instance ids an operation comes to the same. -/
theorem twin_renamed (hr : r.Injective) (hsep : options.Separate)
    (h : op.Twins (op.rename r) c (c.rename r)) (hT : T s s')
    (hf : Assoc.find? s' (pathOf options c.realm c.name) =
      (Assoc.find? s (pathOf options c.realm c.name)).map (Value.Fields.rename r "instanceId"))
    (hput : ∀ l data, dataOf options l = .ok data →
      T (Assoc.put s (pathOf options c.realm c.name) data)
      (Assoc.put s' (pathOf options c.realm c.name) (data.rename r "instanceId")))
    (herase : T (Assoc.erase s (pathOf options c.realm c.name))
      (Assoc.erase s' (pathOf options c.realm c.name))) :
    Twin Γ T client (RenamesVerdict r) (op.attempt (service options) c)
      ((op.rename r).attempt (service options) (c.rename r))
      s s' := by
  refine twin_attempt h hT ?_
  show Alike _ _ (conclude options (op.rename r) (c.rename r)
    (Assoc.find? s' (pathOf options c.realm c.name)))
  rw [hf, conclude, conclude, reading_rename]
  refine (Alike.map_right _ _).bind ?_
  rintro existing _ rfl
  have hwrites : Alike (fun ws ws' => T (ws.foldl Write.apply s) (ws'.foldl Write.apply s'))
    (writes options op c existing)
      (writes options (op.rename r) (c.rename r) (existing.map (Lock.rename r))) := by
    rw [writes, writes, Operation.effect_rename hr]
    cases op.effect existing with
    | keep => exact .ok hT
    | put l =>
      simp only [Operation.Effect.rename, dataOf_rename hsep]
      cases hd : dataOf options l with
      | error f => exact .error f
      | ok data => exact .ok (hput l data hd)
    | delete => exact .ok herase
  exact hwrites.map fun ws ws' hws => ⟨Operation.decide_rename hr op existing, hws⟩

theorem twin_find {R : Option Lock → Option Lock → Prop} {realm name : String} (hT : T s s')
    (hnone : R none none) (h : Alike R (reading (Assoc.find? s (pathOf options realm name)))
      (reading (Assoc.find? s' (pathOf options' realm name)))) :
    Twin Γ T client (fun l l' _ _ => R l l') (find options realm name)
      (find options' realm name) s s' := by
  rw [find, find, read_eq, read_eq]
  refine Service.twin_guarded ?_ fun _ _ _ => hnone
  exact twin_ask (I := interface) (.get (pathOf options realm name) false)
    (.get (pathOf options' realm name) false) hT hT
    (.ok (twin_ofReading hT h))

end Leasehold.Documents
