import Leasehold.Proofs.Execution
import Leasehold.Proofs.Renaming
import Leasehold.Proofs.Request
import Leasehold.Proofs.Session.Twin

/-!
# Two runs of a request

Two requests that differ in the instance id at most, on two stores, come out alike when their
attempts do, or their readings (`twin_operate`, `twin_get`). What the manager and the service put
around these does not look at the store, and at the instance id only to bind its digest to the log
context.
-/

namespace Leasehold
open Session Manager

/-! ### Operations -/

/-- Two operations of one kind on the same lock, both with all that they need. -/
structure Operation.Twins (op op' : Operation) (c c' : Claim) : Prop where
  check : op.check = .ok c
  check' : op'.check = .ok c'
  kind : op'.kind = op.kind
  realm : c'.realm = c.realm
  name : c'.name = c.name

theorem Operation.Twins.refl {op : Operation} {c : Claim} (h : op.check = .ok c) :
    op.Twins op c c :=
  ⟨h, h, rfl, rfl, rfl⟩

theorem Operation.Twins.renamed {op : Operation} {c : Claim} (h : op.check = .ok c) :
    op.Twins (op.rename id) c (c.rename id) := by
  rw [Operation.rename_id, Claim.rename_id]
  exact .refl h

section Twin
variable {I : Interface} {σ α β : Type} {Γ : Context → Context → Prop} {T : σ → σ → Prop}
  {client : Client I σ} {s s' : σ} {r : String → String}

theorem Service.twin_guarded {R : α → β → σ → σ → Prop} {session : Session I α}
    {session' : Session I β} {answers : Error → Bool} {event : String} {realm name : Value}
    {failed : α} {failed' : β} (h : Twin Γ T client R session session' s s')
    (hfailed : ∀ t t', T t t' → R failed failed' t t') :
    Twin Γ T client R (guarded answers event realm name failed session)
      (guarded answers event realm name failed' session') s s' :=
  twin_rescue h fun _ t t' hT _ => twin_note (twin_done hT (hfailed t t' hT))

/-- The second verdict is the first with other instance ids. -/
abbrev RenamesVerdict (r : String → String) : Verdict → Verdict → σ → σ → Prop :=
  fun v v' _ _ => v' = v.rename r

/-- What the log context is put through once a request has been bound. -/
structure Lasting (Γ : Context → Context → Prop) : Prop where
  record : ∀ {c c'} (o : Outcome), Γ c c' → Γ (c.record o) (c'.record o)
  bind : ∀ {c c'} (backend : String) (ms : Int) (label : String) (expiry : Option Int), Γ c c' →
    Γ (c.bind (resultFields backend ms label expiry))
      (c'.bind (resultFields backend ms label expiry))

theorem lasting_eq : Lasting Eq := ⟨fun _ h => by rw [h], fun _ _ _ _ h => by rw [h]⟩

theorem Operation.twin_session (hΓ : Lasting Γ) {service service' : Service I}
    (hname : service'.name = service.name) {op : Operation} {c c' : Claim}
    (h : op.Twins (op.rename r) c c')
    (ha : Twin Γ T client (RenamesVerdict r) (op.attempt service c)
      ((op.rename r).attempt service' c') s s') :
    Twin Γ T client (fun a a' _ _ => a' = a.rename r) (op.session service)
      ((op.rename r).session service') s s' := by
  rw [op.session_of_check service h.check, (op.rename r).session_of_check service' h.check']
  refine twin_bind ha ?_
  rintro ⟨o, l⟩ _ t t' hT rfl
  have hshown : (l.map (Lock.rename r)).getD (op.rename r).lock = (l.getD op.lock).rename r := by
    cases l with
    | none => exact op.lock_rename
    | some l => rfl
  have hentry (l : Lock) : service'.decisionEntry (l.rename r) = service.decisionEntry l := by
    simp only [Service.decisionEntry, hname]
    rfl
  refine twin_amend (fun _ _ => hΓ.record o) ?_
  dsimp only [Verdict.rename]
  rw [hshown, hentry, ← Answer.rename_ofOutcome]
  exact twin_note (twin_done hT rfl)

end Twin

/-! ### Requests -/

namespace Manager
variable {I : Interface} {σ : Type} {Γ : Context → Context → Prop} {T : σ → σ → Prop}
  {client : Client I σ} {s s' : σ} {r : String → String}

/-- The second reading shows what the first does. -/
def Shows (realm name : String) (l l' : Option Lock) : Prop :=
  l'.isSome = l.isSome ∧ ∀ now, Answer.ofStored (some realm) (some name) l' now = Answer.ofStored
    (some realm) (some name) l now

theorem shows_rename (realm name : String) (l : Option Lock) :
    Shows realm name l (l.map (Lock.rename r)) := by
  refine ⟨Option.isSome_map .., fun now => ?_⟩
  cases l with
  | none => rfl
  | some l =>
    simp only [Answer.ofStored, Option.map_some, Lock.isExpired_rename]
    rfl

variable (t : Timing) (service : Service I) (realm name : Identifier)

theorem twin_get (hΓ : Lasting Γ) {script : Script} {c c' : Context}
    (hc : Γ (bindRequest .get realm name none none none c)
      (bindRequest .get realm name none none none c'))
    (h : Twin Γ T client (fun l l' _ _ => Shows realm name l l') (service.find realm name)
      (service.find realm name) s s') :
    Matched Γ T (fun a a' _ _ => a' = a.rename r)
      ((Ask.session service t (.get realm name)).run (scripted client) (s, script) c)
        ((Ask.session service t (.get realm name)).run (scripted client) (s', script) c') := by
  rw [session_get]
  refine (twin_bind h fun l l' t₁ t₂ hT hl => ?_ : Twin Γ T client _ _ _ s s') script _ _ hc
  refine twin_read hT (.refl fun ms _ => twin_read hT (.refl fun now _ => ?_))
  rw [hl.1]
  refine twin_amend (fun _ _ => hΓ.bind _ _ _ _) (twin_note (twin_done hT ?_))
  rw [Answer.rename_ofStored, hl.2]

theorem twin_get_same (hΓ : Lasting Γ) {script : Script} {c c' : Context}
    (hc : Γ (bindRequest .get realm name none none none c)
      (bindRequest .get realm name none none none c'))
    (h : Twin Γ T client (fun l l' _ _ => Shows realm name l l') (service.find realm name)
      (service.find realm name) s s') :
    Matched Γ T (fun a a' _ _ => a' = a)
      ((Ask.session service t (.get realm name)).run (scripted client) (s, script) c)
      ((Ask.session service t (.get realm name)).run (scripted client) (s', script) c') := by
  have hm : Matched Γ T (fun a a' _ _ => a' = a.rename id)
      ((Ask.session service t (.get realm name)).run (scripted client) (s, script) c)
      ((Ask.session service t (.get realm name)).run (scripted client) (s', script) c') :=
    twin_get t service realm name hΓ hc h
  simpa only [Answer.rename_id] using hm

variable {caller caller' : Caller} {lease : Term} {kind : Operation.Kind}

theorem shownExpiry_rename (kind : Operation.Kind) (expiry : Int) (a : Answer) :
    shownExpiry kind expiry (a.rename r) = shownExpiry kind expiry a := by
  cases kind <;> rfl

theorem claim_rename (howner : caller'.owner = caller.owner)
    (hid : caller'.instanceId.1 = r caller.instanceId) :
    caller'.claim realm name = (caller.claim realm name).rename r := by
  simp only [Caller.claim, Claim.rename, Caller.name, howner, hid]

theorem operation_rename (howner : caller'.owner = caller.owner)
    (hid : caller'.instanceId.1 = r caller.instanceId) (now : Int) :
    operation kind (caller'.claim realm name) lease now =
      (operation kind (caller.claim realm name) lease now).rename r := by
  rw [claim_rename realm name howner hid]
  cases kind <;> rfl

theorem twins_operation (howner : caller'.owner = caller.owner)
    (hid : caller'.instanceId.1 = r caller.instanceId) (now : Int) :
    (operation kind (caller.claim realm name) lease now).Twins
      ((operation kind (caller.claim realm name) lease now).rename r) (caller.claim realm name)
      ((caller.claim realm name).rename r) := by
  refine ⟨check_claim kind realm name caller lease now, ?_, rfl, rfl, rfl⟩
  rw [← operation_rename realm name howner hid, ← claim_rename realm name howner hid]
  exact check_claim kind realm name caller' lease now

theorem twin_operate (hΓ : Lasting Γ) (hT : T s s') (howner : caller'.owner = caller.owner)
    (hid : caller'.instanceId.1 = r caller.instanceId) {script : Script} {c c' : Context}
    (hc : Γ
      (bindRequest kind.action realm name (some caller.name) (some caller.instanceId.1)
        (if kind = .release then none else some lease.1) c)
      (bindRequest kind.action realm name (some caller'.name) (some caller'.instanceId.1)
        (if kind = .release then none else some lease.1) c'))
    (h : ∀ now, t.now = .ok now → Twin Γ T client (RenamesVerdict r)
      ((operation kind (caller.claim realm name) lease now).attempt service
        (caller.claim realm name))
      (((operation kind (caller.claim realm name) lease now).rename r).attempt service
        ((caller.claim realm name).rename r)) s s') :
    Matched Γ T (fun a a' _ _ => a' = a.rename r)
      ((Ask.session service t (.operate kind realm name caller lease)).run (scripted client)
        (s, script) c)
      ((Ask.session service t (.operate kind realm name caller' lease)).run (scripted client)
        (s', script) c') := by
  rw [session_operate_timed, session_operate_timed]
  refine (twin_read hT (.refl fun now ht => ?_) : Twin Γ T client _ _ _ s s') script _ _ hc
  rw [operation_rename realm name howner hid]
  refine twin_bind (Operation.twin_session hΓ rfl (twins_operation realm name howner hid now)
    (h now ht)) ?_
  rintro a _ t₁ t₂ hT rfl
  refine twin_read hT (.refl fun ms _ => ?_)
  rw [shownExpiry_rename]
  exact twin_amend (fun _ _ => hΓ.bind _ _ _ _) (twin_note (twin_done hT rfl))

variable (lease) in
theorem twin_operate_same (hΓ : Lasting Γ) (hT : T s s') {script : Script} {c c' : Context}
    (hc : ∀ f : Context → Context, Γ (f c) (f c'))
    (h : ∀ now, t.now = .ok now → Twin Γ T client (RenamesVerdict id)
      ((operation kind (caller.claim realm name) lease now).attempt service
        (caller.claim realm name))
      ((operation kind (caller.claim realm name) lease now).attempt service
        (caller.claim realm name)) s s') :
    Matched Γ T (fun a a' _ _ => a' = a)
      ((Ask.session service t (.operate kind realm name caller lease)).run (scripted client)
        (s, script) c)
      ((Ask.session service t (.operate kind realm name caller lease)).run (scripted client)
        (s', script) c') := by
  have hm : Matched Γ T (fun a a' _ _ => a' = a.rename id)
      ((Ask.session service t (.operate kind realm name caller lease)).run (scripted client)
        (s, script) c)
      ((Ask.session service t (.operate kind realm name caller lease)).run (scripted client)
        (s', script) c') :=
    twin_operate t service realm name hΓ hT rfl rfl (hc _) fun now ht => by
      rw [Operation.rename_id, Claim.rename_id]
      exact h now ht
  simpa only [Answer.rename_id] using hm

end Manager

end Leasehold
