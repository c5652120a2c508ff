import Leasehold.Proofs.Execution
import Leasehold.Proofs.Service.Items

/-!
# Conditional items in trouble

What an operation does on any table, whatever its items look like. The write is conditional and
hands back an item (`commits`): the old one of an acquisition or a release, the new one of a
renewal. It is read only after the write, so what cannot be read has been written already.
-/

namespace Leasehold.Items
open Session

/-- The record of an item that came back, if any. -/
def reading (w : Option Item) : Except Fault (Option Lock) :=
  match w with
  | none => .ok none
  | some w => ofItem (.map w)

theorem ofItem_part (name : String) (w : Option Item) :
    ofItem (part (response name w) name) = reading w := by
  cases w with
  | none => rfl
  | some w => rw [part_response]; rfl

section Commit
variable (options : Options) (op : Operation) (c : Claim) (s : Store)

/-- The write of an operation. -/
def write : Call :=
  match op.kind with
  | .acquire => .put (itemOf options op.lock) (isFree c op.now)
  | .renew => .update c.key (extension options op.delta) (isLive c op.now)
  | .release => .delete c.key (heldBy c)

/-- The item that the write hands back and the table that it leaves, unless it is refused. -/
def commits : Option (Option Item × Store) :=
  match op.kind with
  | .acquire =>
    let item := itemOf options op.lock
    (idOf? item).bind fun id =>
      let old := Assoc.find? s id
      if (isFree c op.now).holds (old.getD []) then some (old, Assoc.put s id item) else none
  | .renew =>
    let u := extension options op.delta
    let old := (Assoc.find? s c.key).getD []
    if u.isProper then
      if (isLive c op.now).holds old then (u.updated? old).map fun w =>
        (some w, Assoc.put s c.key w) else none
    else none
  | .release =>
    let old := Assoc.find? s c.key
    if (heldBy c).holds (old.getD []) then some (old, Assoc.erase s c.key) else none

variable {options op c s}

theorem client_write_of_some {w : Option Item} {s' : Store}
    (h : commits options op c s = some (w, s')) :
    client (write options op c) s = (.ok (response "Attributes" w), s') := by
  obtain ⟨kind, l, now⟩ := op
  cases kind with
  | acquire =>
    simp only [commits, Option.bind_eq_some_iff, Option.ite_none_right_eq_some, Option.some.injEq,
      Prod.mk.injEq] at h
    obtain ⟨id, hid, hc, rfl, rfl⟩ := h
    simp only [write, client, hid, hc, if_true]
  | renew =>
    simp only [commits, Option.ite_none_right_eq_some, Option.map_eq_some_iff, Prod.mk.injEq] at h
    obtain ⟨hu, hc, w, hw, rfl, rfl⟩ := h
    simp only [write, client, hu, hc, hw, if_true]
  | release =>
    simp only [commits, Option.ite_none_right_eq_some, Option.some.injEq, Prod.mk.injEq] at h
    obtain ⟨hc, rfl, rfl⟩ := h
    exact if_pos hc

/-- A write is refused when its condition fails, also one of an item that has no id and an update
that cannot be made. -/
theorem client_write_of_none (h : commits options op c s = none) : ∃ code,
    (op.kind ≠ .renew → (op.kind = .acquire → (idOf? (itemOf options op.lock)).isSome) →
      code = conditionFailed) ∧
      client (write options op c) s = (.error (refusal code), s) := by
  obtain ⟨kind, l, now⟩ := op
  cases kind with
  | acquire =>
    cases hid : idOf? (itemOf options (Operation.lock ⟨.acquire, l, now⟩)) with
    | none =>
      refine ⟨validationFailed, fun _ hn => absurd (hn rfl) Bool.false_ne_true, ?_⟩
      simp only [write, client, hid]
    | some id =>
      simp only [commits, hid, Option.bind_some, ite_eq_right_iff, reduceCtorEq, imp_false] at h
      exact ⟨conditionFailed, fun _ _ => rfl, by simp only [write, client, hid, if_neg h]⟩
  | renew =>
    by_cases hu : (extension options (Operation.delta ⟨.renew, l, now⟩)).isProper = true
    · simp only [commits, hu, if_true, ite_eq_right_iff, Option.map_eq_none_iff] at h
      by_cases hc : (isLive c now).holds ((Assoc.find? s c.key).getD []) = true
      · exact ⟨validationFailed,
          fun hk => absurd rfl hk, by simp only [write, client, hu, hc, h hc, if_true]⟩
      · exact ⟨conditionFailed,
          fun _ _ => rfl, by simp only [write, client, hu, if_true, if_neg hc]⟩
    · exact ⟨validationFailed, fun hk => absurd rfl hk, by simp only [write, client, if_neg hu]⟩
  | release =>
    simp only [commits, ite_eq_right_iff, reduceCtorEq, imp_false] at h
    exact ⟨conditionFailed, fun _ _ => rfl, if_neg h⟩

end Commit

/-! ### Attempts -/

section Attempt
variable {α : Type} {options : Options} {op : Operation} {c : Claim} {s : Store} {P : Fault → Prop}
  {cl : Client interface Store}

/-- A result in which a failed condition is answered with `conflict`, other faults with `failed`. -/
def settled (conflict failed : α) : Except Error α → Except Error α
  | .ok a => .ok a
  | .error e =>
    if Service.answersFor answered
      e then .ok (if isConditionFailure e then conflict else failed) else .error e

theorem ensures_settle {clients : Set (Client interface Store)} {operation : Action}
    {event : String} {conflict failed : α} {session : Session interface α}
    {Q : Except Error α → Store → Prop} :
    Ensures clients Q (settle operation event c conflict failed session) s ↔
      Ensures clients (fun r t => Q (settled conflict failed r) t) session s := by
  rw [settle, ensures_rescue]
  refine iff_of_eq (congrArg (Ensures clients · session s) (funext fun r => funext fun t => ?_))
  cases r with
  | ok a => rfl
  | error e =>
    cases hc : isConditionFailure e <;> cases ha : Service.answersFor answered e <;>
      simp only [settled, hc, ha, Service.report, ensures_note, ensures_done, if_true, if_false,
        Bool.false_eq_true]

/-- The verdict on a write that went through, from the record of the item that came back. -/
def verdict (op : Operation) (l : Option Lock) : Verdict :=
  match op.kind with
  | .acquire => (if op.owns l then .lockReplaced else .acquired, none)
  | .renew => (.renewed, l)
  | .release => (if l.any (·.isExpired op.now) then .releasedExpired else .released, none)

theorem isSuccess_verdict (op : Operation) (l : Option Lock) :
    (verdict op l).1.isSuccess = true := by
  unfold verdict
  cases op.kind <;> dsimp only
  · split <;> rfl
  · rfl
  · split <;> rfl

theorem releaseOutcome_eq (v : Value) (now : Int) :
    releaseOutcome v now = (ofItem v).map fun l =>
      if l.any (·.isExpired now) then .releasedExpired else .released := by
  rw [releaseOutcome]
  cases ofItem v with
  | error f => rfl
  | ok l => cases l <;> rfl

theorem settle_map {β : Type} (f : α → β) {c : RawClaim} {operation : Action} {event : String}
    {conflict failed : α} (session : Session interface α) :
    (settle operation event c conflict failed session).bind (fun a => done (f a)) =
      settle operation event c (f conflict) (f failed) (session.bind fun a => done (f a)) := by
  rw [settle, rescue_map]
  refine congrArg (rescue _ · _) (funext fun e => ?_)
  split <;> rfl

/-- An acquisition or a renewal makes one call and reads what comes back. -/
theorem attempt_eq (h : op.check = .ok c) (hk : op.kind ≠ .release) :
    op.attempt (service options) c =
    settle op.kind.action op.kind.event c (op.kind.conflict, none) (op.kind.failed, none)
      ((ask (I := interface) (write options op c)).bind fun response =>
        (ofReading (ofItem (part response "Attributes"))).bind fun l => done (verdict op l)) := by
  cases hkind : op.kind with
  | acquire =>
    obtain ⟨kind, r, now⟩ := op
    cases hkind
    have hl : RawClaim.lock c (some (Operation.delta ⟨.acquire, r, now⟩))
      (some (Decision.orZero r.lock.expiry)) = r.lock :=
      Operation.acquire_request h rfl
    simp only [Operation.attempt, Operation.lock, service, acquire, settle_map, bind_eq,
      Session.bind_assoc]
    rw [hl]
    refine congrArg _ (congrArg (Session.bind _)
      (funext fun response => congrArg (Session.bind _) (funext fun m => ?_)))
    cases m <;> rfl
  | renew =>
    obtain ⟨kind, l, now⟩ := op
    cases hkind
    rfl
  | release => exact absurd hkind hk

variable {Q : Except Error Verdict → Store → Prop}

variable (options op c s) in
/-- What an operation reads in the reply to its write. -/
def readBack (cl : Client interface Store) : Except Fault (Option Lock) :=
  (cl (write options op c) s).1.bind fun response => ofItem (part response "Attributes")

theorem ensures_write (h : op.check = .ok c) (hk : op.kind ≠ .release) :
    Ensures (troubled {cl} P) Q (op.attempt (service options) c) s ↔
      Q (settled (op.kind.conflict, none) (op.kind.failed, none)
        (((readBack options op c s cl).map (verdict op)).mapError
        .fault)) (cl (write options op c) s).2 ∧
      ∀ f, P f → Q (settled (op.kind.conflict, none) (op.kind.failed, none) (.error (.fault f)))
        s := by
  rw [attempt_eq h hk, ensures_settle, ensures_ask_reading, readBack]
  cases (cl (write options op c) s).1 <;> rfl

/-- A client that takes readings and releases as `client` does. -/
structure Plain (cl : Client interface Store) : Prop where
  get : ∀ key s, cl (.get key) s = client (.get key) s
  delete : ∀ (c : Claim) s, cl (.delete c.key (heldBy c)) s = client (.delete c.key (heldBy c)) s

theorem plain_client : Plain client := ⟨fun _ _ => rfl, fun _ _ => rfl⟩

theorem plain_limitedClient : Plain limitedClient := ⟨fun _ _ => rfl, fun _ _ => rfl⟩

theorem ensures_getItem {Q : Except Error (Option Lock) → Store → Prop} {key : String}
    (hcl : Plain cl) :
    Ensures (troubled {cl} P) Q (getItem key) s ↔
      Q ((reading (Assoc.find? s key)).mapError .fault) s ∧ ∀ f, P f → Q (.error (.fault f)) s := by
  have hget : getItem key = (ask (I := interface) (.get key)).bind fun response =>
      (ofReading (ofItem (part response "Item"))).bind fun l => done (id l) := by
    simp only [getItem, bind_eq, id, bind_done]
  rw [hget, ensures_ask_reading, hcl.get]
  refine and_congr_left fun _ => ?_
  show Q (((ofItem (part (response "Item" (Assoc.find? s key)) "Item")).map id).mapError .fault) s ↔
    _
  rw [ofItem_part]
  cases reading (Assoc.find? s key) <;> rfl

theorem ensures_find {Q : Except Error (Option Lock) → Store → Prop} {realm name : String}
    (hcl : Plain cl) :
    Ensures (troubled {cl} P) Q (find realm name) s ↔
      Q (recovered (Service.answersFor answered) none
        ((reading (Assoc.find? s (Lock.keyOf realm name))).mapError .fault)) s ∧
      ∀ f, P f → Q (recovered (Service.answersFor answered) none (.error (.fault f))) s := by
  rw [find, guarded, Service.ensures_guarded, ensures_getItem hcl]

/-- What a reading ensures that only tells apart why a release was refused. -/
def Classifies (op : Operation) (c : Claim) (P : Fault → Prop)
    (Q : Except Error Verdict → Store → Prop) (s : Store) : Prop :=
  Q (recovered (Service.answersFor answered) (.releaseError, none)
    (((reading (Assoc.find? s c.key)).map fun existing =>
    (Decision.afterRefusedRelease existing op.now, none)).mapError .fault)) s ∧
  ∀ f, P f → Q (recovered (Service.answersFor answered) (.releaseError, none) (.error (.fault f))) s

theorem ensures_release (hcl : Plain cl) (hk : op.kind = .release) :
    Ensures (troubled {cl} P) Q (op.attempt (service options) c) s ↔
      (match commits options op c s with
        | some (w, s') => Q (recovered (Service.answersFor answered) (.releaseError, none)
            (((reading w).map (verdict op)).mapError .fault)) s'
        | none => Classifies op c P Q s) ∧
      ∀ f, P f → if isConditionFailure (.fault f) then Classifies op c P Q s
        else Q (recovered (Service.answersFor answered) (.releaseError, none) (.error (.fault f)))
          s := by
  obtain ⟨kind, l, now⟩ := op
  cases hk
  have hclassify : Ensures (troubled {cl} P)
      (fun r t =>
        Q (recovered (Service.answersFor answered) (.releaseError, none) (r.map fun o => (o, none)))
          t)
      ((getItem c.key).bind fun existing => done (Decision.afterRefusedRelease existing now)) s ↔
        Classifies ⟨.release, l, now⟩ c P Q s := by
    rw [ensures_map, ensures_getItem hcl]
    refine and_congr_left fun _ => ?_
    cases reading (Assoc.find? s c.key) <;> rfl
  simp only [Operation.attempt, service, release, Claim.key_raw, ensures_map, guarded,
    Service.ensures_guarded,
    recovered_map, ensures_call_troubled, hcl.delete]
  refine and_congr ?_ (forall_congr' fun f => imp_congr_right fun _ => ?_)
  · cases hw : commits options ⟨.release, l, now⟩ c s with
    | none =>
      obtain ⟨code, hcode, he⟩ := client_write_of_none hw
      obtain rfl := hcode (by rintro ⟨⟩) (by rintro ⟨⟩)
      rw [show client (.delete c.key (heldBy c)) s = _ from he]
      exact hclassify
    | some p =>
      obtain ⟨w, s'⟩ := p
      rw [show client (.delete c.key (heldBy c)) s = _ from client_write_of_some hw]
      simp only [ensures_ofReading, releaseOutcome_eq, ofItem_part]
      cases reading w <;> rfl
  · split
    · exact hclassify
    · exact ensures_fail

end Attempt

/-! ### Failures and the table -/

section Failures
variable {options : Options} {op : Operation} {c : Claim} {s : Store} {P : Fault → Prop}
  {Q : Except Error Verdict → Store → Prop}

/-- The result of an operation whose write went through, from the reading of what came back. -/
def concluded (op : Operation) (l : Except Fault (Option Lock)) : Except Error Verdict :=
  (if op.kind = .release then recovered (Service.answersFor answered) (op.kind.failed, none)
    else settled (op.kind.conflict, none) (op.kind.failed, none))
      ((l.map (verdict op)).mapError .fault)

theorem unsuccessful_concluded (op : Operation) (l : Except Fault (Option Lock)) :
    Unsuccessful (concluded op l) ↔ ∃ f, l = .error f := by
  cases l with
  | ok l =>
    have hok : concluded op (.ok l) = .ok (verdict op l) := by
      unfold concluded
      split <;> rfl
    simp only [hok, Unsuccessful, Except.ok.injEq, forall_eq', isSuccess_verdict, reduceCtorEq,
      exists_false,
      Bool.true_eq_false]
  | error f =>
    refine iff_of_true (fun v hv => ?_) ⟨f, rfl⟩
    simp only [concluded, Except.map, Except.mapError] at hv
    split at hv <;> simp only [recovered, settled] at hv <;> split at hv <;> cases hv
    · cases op.kind <;> rfl
    · cases isConditionFailure (.fault f) <;> cases op.kind <;> rfl

theorem readBack_of_some {w : Option Item} {s' : Store}
    (hw : commits options op c s = some (w, s')) :
    readBack options op c s client = reading w := by
  rw [readBack, client_write_of_some hw]
  exact ofItem_part _ w

/-- Where results do not matter on the table as it was, all depends on the write that goes
through. -/
theorem ensures_commits (h : op.check = .ok c) (hs : ∀ r, Q r s) :
    Ensures (troubled {client} P) Q (op.attempt (service options) c) s ↔
      ∀ w s', commits options op c s = some (w, s') → Q (concluded op (reading w)) s' := by
  have trivially (r : Except Error Verdict) : Q r s ↔ True := iff_true_intro (hs r)
  by_cases hk : op.kind = .release
  · rw [ensures_release plain_client hk]
    simp only [Classifies, trivially, implies_true, and_self, if_true, ite_self, and_true,
      concluded, hk]
    cases commits options op c s with
    | none => exact iff_of_true trivial (by rintro _ _ ⟨⟩)
    | some p =>
      refine ⟨?_, fun hQ => hQ p.1 p.2 rfl⟩
      rintro hQ w s' ⟨rfl⟩
      exact hQ
  · rw [ensures_write h hk]
    simp only [trivially, implies_true, and_true, concluded, if_neg hk]
    cases hw : commits options op c s with
    | none =>
      obtain ⟨code, -, he⟩ := client_write_of_none hw
      rw [he]
      exact iff_of_true (hs _) (by rintro _ _ ⟨⟩)
    | some p =>
      obtain ⟨w, s'⟩ := p
      rw [readBack_of_some hw, client_write_of_some hw]
      simp only [Option.some.injEq, Prod.mk.injEq, and_imp, forall_eq', forall_apply_eq_imp_iff]

/-- The result of a release, by the reply to its deletion. -/
theorem ensures_released_kept (hcl : Plain cl) (hk : op.kind = .release) (hs : ∀ r, Q r s) :
    Ensures (troubled {cl} P) Q (op.attempt (service options) c) s ↔
      Q (concluded op (readBack options op c s cl)) (cl (write options op c) s).2 := by
  have trivially (r : Except Error Verdict) : Q r s ↔ True := iff_true_intro (hs r)
  have hwrite : write options op c = .delete c.key (heldBy c) := by rw [write, hk]
  rw [ensures_release hcl hk]
  simp only [Classifies, trivially, implies_true, and_self, ite_self, and_true]
  rw [readBack, hwrite, hcl.delete, ← hwrite]
  cases hw : commits options op c s with
  | none =>
    obtain ⟨code, -, he⟩ := client_write_of_none hw
    rw [he]
    exact iff_of_true trivial (hs _)
  | some p =>
    obtain ⟨w, s'⟩ := p
    rw [client_write_of_some hw]
    simp only [Except.bind, ofItem_part, concluded, hk, if_true]
    rfl

end Failures

section FailsAfterWrite
variable (options : Options) (op : Operation) (c : Claim) (s : Store)

/-- The write changes the table, but what it hands back cannot be read. -/
def FailsAfterWrite : Prop :=
  (limitedClient (write options op c) s).2 ≠ s ∧
    ∃ f, readBack options op c s limitedClient = .error f

variable {options op c s}

theorem ensures_kept (h : op.check = .ok c) : Ensures (troubled {limitedClient} fun _ => True)
    (fun r s' => Unsuccessful r → s' = s) (op.attempt (service options) c) s ↔
    ¬ FailsAfterWrite options op c s := by
  have hwritten : Ensures (troubled {limitedClient} fun _ => True)
    (fun r s' => Unsuccessful r → s' = s)
      (op.attempt (service options) c) s ↔
        (Unsuccessful (concluded op (readBack options op c s limitedClient)) →
          (limitedClient (write options op c) s).2 = s) := by
    by_cases hk : op.kind = .release
    · exact ensures_released_kept plain_limitedClient hk fun _ _ => rfl
    · rw [ensures_write h hk, concluded, if_neg hk]
      exact and_iff_left fun _ _ _ => rfl
  rw [hwritten, unsuccessful_concluded, FailsAfterWrite, not_and_or, not_not, or_comm,
    ← imp_iff_not_or]

end FailsAfterWrite

/-! ### Faults that are not answered for -/

section Raises
variable (options : Options) (op : Operation) (c : Claim) (s : Store)

/-- The write is not sent or what it hands back cannot be read, for a reason that is not answered
for, or so what lies under the key when the lock is to be released. -/
def Raises : Prop :=
  Escapes answered (readBack options op c s limitedClient) ∨
    op.kind = .release ∧ Escapes answered (reading (Assoc.find? s c.key))

variable {options op c s}

theorem commits_release {w : Option Item} {s' : Store} (hk : op.kind = .release)
    (hw : commits options op c s = some (w, s')) :
    w = Assoc.find? s c.key := by
  simp only [commits, hk, Option.ite_none_right_eq_some, Option.some.injEq, Prod.mk.injEq] at hw
  exact hw.2.1.symm

theorem exists_settled {α : Type} {conflict failed : α} {l : Except Fault α} :
    (∃ a, settled conflict failed (l.mapError .fault) = .ok a) ↔ ¬ Escapes answered l := by
  cases l with
  | ok a => exact iff_of_true ⟨a, rfl⟩ not_escapes_ok
  | error f =>
    simp only [Except.mapError, settled, answersFor_fault, decide_eq_true_eq,
      escapes_error, not_not]
    by_cases hf : f.kind ∈ answered
    · simp only [hf, if_true, iff_true]; exact ⟨_, rfl⟩
    · simp only [hf, if_false, iff_false]; rintro ⟨_, ⟨⟩⟩

theorem readBack_release (hk : op.kind = .release) :
    Escapes answered (readBack options op c s limitedClient) →
    Escapes answered (reading (Assoc.find? s c.key)) := by
  have hwrite : write options op c = .delete c.key (heldBy c) := by rw [write, hk]
  rw [readBack, hwrite, plain_limitedClient.delete, ← hwrite]
  cases hw : commits options op c s with
  | none =>
    obtain ⟨code, -, he⟩ := client_write_of_none hw
    rw [he]
    exact fun h => absurd (.head _) (escapes_error.mp h)
  | some p =>
    obtain ⟨w, s'⟩ := p
    rw [client_write_of_some hw, ← commits_release hk hw]
    simp only [Except.bind, ofItem_part, imp_self]

theorem raises_iff_of_release (hk : op.kind = .release) :
    Raises options op c s ↔ Escapes answered (reading (Assoc.find? s c.key)) :=
  ⟨fun h => h.elim (readBack_release hk) And.right, fun he => .inr ⟨hk, he⟩⟩

/-- A release that deletes nothing, or whose call fails, reads the item too. -/
theorem ensures_released {P : Fault → Prop} (hP : ∀ f, P f → f.kind ∈ answered)
    (hk : op.kind = .release) :
    Ensures (troubled {limitedClient} P) (fun r _ => ∃ v, r = .ok v)
      (op.attempt (service options) c) s ↔
      ¬ Escapes answered (reading (Assoc.find? s c.key)) := by
  have hfault {α : Type} (failed : α) {f : Fault} (hf : P f) :
      ∃ a, recovered (Service.answersFor answered) failed (.error (.fault f)) = .ok a :=
        ⟨_, recovered_fault (hP f hf)⟩
  have hclassifies : Classifies op c P (fun r _ => ∃ v, r = .ok v) s ↔
      ¬ Escapes answered (reading (Assoc.find? s c.key)) := by
    rw [Classifies, exists_recovered, escapes_map]
    exact and_iff_left fun f hf => hfault _ hf
  rw [ensures_release plain_limitedClient hk, hclassifies]
  have hcall : ¬ Escapes answered (reading (Assoc.find? s c.key)) → ∀ f, P f →
      if isConditionFailure (.fault f) then ¬ Escapes answered (reading (Assoc.find? s c.key))
      else ∃ v, recovered (Service.answersFor answered) (Outcome.releaseError, (none : Option Lock))
        (.error (.fault f)) =
        .ok v := by
    intro he f hf
    split
    · exact he
    · exact hfault _ hf
  cases hw : commits options op c s with
  | none => exact and_iff_left_of_imp hcall
  | some p =>
    rw [← commits_release hk hw] at hcall ⊢
    simp only [exists_recovered, escapes_map]
    exact and_iff_left_of_imp hcall

/-- An operation is answered, whatever errors the client reports, unless it raises by itself. -/
theorem ensures_answered (h : op.check = .ok c) {P : Fault → Prop}
    (hP : ∀ f, P f → f.kind ∈ answered) :
    Ensures (troubled {limitedClient} P) (fun r _ => ∃ v, r = .ok v)
      (op.attempt (service options) c) s ↔
      ¬ Raises options op c s := by
  by_cases hk : op.kind = .release
  · rw [raises_iff_of_release hk]
    exact ensures_released hP hk
  · have hsettled {f : Fault} (hf : f.kind ∈ answered) :
        ∃ v : Verdict, settled (op.kind.conflict, none) (op.kind.failed, none)
          (.error (.fault f)) = .ok v :=
      (exists_settled (l := .error f)).mpr (by simpa using hf)
    rw [ensures_write h hk, and_iff_left fun f hf => hsettled (hP f hf), exists_settled,
      escapes_map, Raises,
      or_iff_left fun hr => hk hr.1]

/-! What is not sent is not answered for. -/

mutual

theorem not_answered_of_unsendable {f : Fault} :
    (v : Value) → unsendable? v = some f → f.kind ∉ answered
  | .list xs, h => not_answered_of_unsendableItem xs h
  | .map fields, h => not_answered_of_unsendableField fields h
  | .int _, h | .decimal (.finite _ _), h => by
    simp only [unsendable?, Option.ite_none_left_eq_some, Option.some.injEq] at h
    rw [← h.2, rounded, Fault.kind]
    decide
  | .decimal (.infinite _), h | .decimal .nan, h | .float _, h | .instant _, h => by
    rw [← Option.some.inj h, Fault.kind]
    decide
  | .null, h | .bool _, h | .text _, h | .bytes _, h => by cases h

theorem not_answered_of_unsendableItem {f : Fault} :
    (xs : List Value) → unsendableItem? xs = some f → f.kind ∉ answered
  | [], h => by cases h
  | x :: xs, h => (Option.or_eq_some_iff.mp h).elim (not_answered_of_unsendable x) fun h =>
    not_answered_of_unsendableItem xs h.2

theorem not_answered_of_unsendableField {f : Fault} : (fields : List (String × Value)) →
    unsendableField? fields = some f → f.kind ∉ answered
  | [], h => by cases h
  | (_, v) :: fields, h => (Option.or_eq_some_iff.mp h).elim (not_answered_of_unsendable v) fun h =>
    not_answered_of_unsendableField fields h.2

end

theorem raises_of_digits {n : Int} (hn : numberDigits < digitCount n)
    (hv : .int n ∈ (write options op c).values) :
    Raises options op c s := by
  have hfound : ((write options op c).values.findSome? unsendable?).isSome := by
    refine List.findSome?_isSome_iff.mpr ⟨_, hv, ?_⟩
    rw [unsendable?, if_neg (by omega)]
    rfl
  obtain ⟨f, hf⟩ := Option.isSome_iff_exists.mp hfound
  obtain ⟨v, -, hv⟩ := List.exists_of_findSome?_eq_some hf
  refine .inl ⟨f, ?_, not_answered_of_unsendable v hv⟩
  simp only [readBack, limitedClient, hf, Except.bind]

end Raises

/-! ### Records of claims

A record is found as it is, and operations on its lock go by what it says. -/

section Held
variable {options : Options} {op : Operation} {c c' : Claim} {s : Store} {w : Item}
    {lease expiry : Int}

/-- The item of an acquisition goes where the lock is looked up, whatever else the sweeper is
told. -/
theorem idOf_itemOf_lock (httl : options.ttlName? ≠ some "lockId") (l : Lock) :
    idOf? (itemOf options l) = some l.key := by
  have hid : Assoc.find? (itemOf options l) "lockId" = some (.text l.key) := by
    rw [itemOf]
    split
    · rename_i name expiry hname _
      rw [Assoc.find?_put_ne (by rintro rfl; exact httl hname)]
      rfl
    · rfl
  rw [idOf?, idName, hid]
  rfl

/-- An item that the store takes goes there also when the sweeper is told to look at the id. -/
theorem idOf_itemOf_of_some {l : Lock} {id : String} (h : idOf? (itemOf options l) = some id) :
    id = l.key := by
  by_cases httl : options.ttlName? = some "lockId"
  · rw [itemOf, httl] at h
    cases he : l.expiry with
    | none =>
      rw [he] at h
      exact (Option.some.inj h).symm
    | some expiry =>
      rw [he] at h
      simp only [idOf?, idName, Assoc.find?_put_self, Option.bind_some, Value.text?,
        reduceCtorEq] at h
  · exact Option.some.inj (h.symm.trans (idOf_itemOf_lock httl l))

theorem idOf_itemOf (hsep : options.Separate) (h : op.check = .ok c) :
    idOf? (itemOf options op.lock) = some c.key := by
  have httl : options.ttlName? ≠ some "lockId" := fun h => hsep _ h (.head _)
  rw [idOf_itemOf_lock httl, op.lock_of_check h, Claim.key_lock]

/-- What lies there for a lock, and what it reads as: nothing, or an item with all fields. -/
inductive StoredAs (realm name : String) : Option Item → Option Lock → Prop
  | nothing : StoredAs realm name none none
  | item {w : Item} {c : Claim} {lease expiry : Int} (hr : c.realm = realm) (hn : c.name = name)
    (hw : HoldsNumbers w c lease expiry) : StoredAs realm name (some w)
      (some (c.lock (some lease) (some expiry)))

section StoredAs
variable {old : Option Item} {existing : Option Lock} (hl : StoredAs c.realm c.name old existing)
    (h : op.check = .ok c)
include hl

theorem StoredAs.reading : reading old = .ok existing := by
  cases hl with
  | nothing => rfl
  | item hr hn hw => exact hw.ofItem

include h

theorem StoredAs.held : (heldBy c).holds (old.getD []) = op.owns existing := by
  cases hl with
  | nothing => rfl
  | item hr hn hw => rw [Option.getD_some, heldBy_holds hw.toIsItemOf, Operation.owns_lock h hr hn]

theorem StoredAs.free : (isFree c op.now).holds (old.getD []) =
    (Lock.isGone existing op.now || op.owns existing) := by
  cases hl with
  | nothing => rfl
  | item hr hn hw =>
    rw [Option.getD_some, isFree_holds hw, Operation.owns_lock h hr hn, Claim.isGone_lock]

theorem StoredAs.live : (isLive c op.now).holds (old.getD []) =
    (!Lock.isGone existing op.now && op.owns existing) := by
  cases hl with
  | nothing => rfl
  | item hr hn hw =>
    rw [Option.getD_some, isLive_holds hw, Operation.owns_lock h hr hn, Claim.isGone_lock]

end StoredAs

theorem HoldsNumbers.extended (hsep : options.Separate) (hw : HoldsNumbers w c lease expiry)
    (delta : Int) :
    ∃ w' l, Update.updated? (extension options delta) w = some w' ∧
    reading (some w') = .ok (some l) := by
  obtain ⟨v, hv, hvi⟩ := hw.lease
  obtain ⟨x, hx, hxi⟩ := hw.expiry
  obtain ⟨m, e, hm⟩ := hvi.finite
  obtain ⟨n, f, hn⟩ := hxi.finite
  obtain ⟨hl, he⟩ := find?_moved hsep (w := w) (v := .decimal (.add (.finite m e) (.ofInt delta)))
    (x := .decimal (.add (.finite n f) (.ofInt delta)))
  have hfields := (hw.toIsItemOf.moved hsep).ofFields hl rfl he rfl
  exact ⟨_, _, updated?_extension_of_some options delta (by rw [hv]; exact hm)
    (by rw [hx]; exact hn),
    (hw.toIsItemOf.moved hsep).ofItem hfields⟩

section Commits
variable {existing : Option Lock} (hl : StoredAs c.realm c.name (Assoc.find? s c.key) existing)
    (h : op.check = .ok c)
include hl h

theorem StoredAs.commits_acquire (hsep : options.Separate) (hk : op.kind = .acquire) :
    commits options op c s =
    if op.permits existing then some (Assoc.find? s c.key,
      Assoc.put s c.key (itemOf options op.lock)) else none := by
  simp only [commits, hk, idOf_itemOf hsep h, hl.free h, Operation.permits, Option.bind_some]

theorem StoredAs.commits_release (hk : op.kind = .release) : commits options op c s =
    if op.owns existing then some (Assoc.find? s c.key, Assoc.erase s c.key) else none := by
  simp only [commits, hk, hl.held h]

/-- A renewal hands back a record. -/
theorem StoredAs.commits_renew (hsep : options.Separate) (hk : op.kind = .renew) :
    if op.permits existing then ∃ w' l, commits options op c s =
      some (some w', Assoc.put s c.key w') ∧
      Items.reading (some w') = .ok (some l)
    else commits options op c s = none := by
  have hperm : op.permits existing = (isLive c op.now).holds ((Assoc.find? s c.key).getD []) := by
    rw [hl.live h]
    simp only [Operation.permits, hk]
  simp only [commits, hk, hsep.isProper, if_true, ← hperm]
  cases hp : op.permits existing with
  | false => rfl
  | true =>
    generalize Assoc.find? s c.key = old at hl
    cases hl with
    | nothing => rw [Operation.permits, hk] at hp; cases hp
    | item hr hn hw =>
      obtain ⟨w', l, hx, hread⟩ := hw.extended hsep op.delta
      exact ⟨w', l, by rw [Option.getD_some, hx]; rfl, hread⟩

end Commits

theorem ensures_item_found {realm name : String} {l : Option Lock}
    (hl : reading (Assoc.find? s (Lock.keyOf realm name)) = .ok l) :
    Ensures {client} (fun r _ => r = .ok l) (find realm name) s := by
  refine Ensures.of_subset (subset_troubled {client} fun _ => False) ?_
  rw [ensures_find plain_client, hl]
  exact ⟨rfl, nofun⟩

theorem ensures_found {realm name : String} (hw : Holds w c lease expiry)
    (hf : Assoc.find? s (Lock.keyOf realm name) = some w) :
    Ensures {client} (fun r _ => r = .ok (some (c.lock (some lease) (some expiry))))
      (find realm name) s :=
  ensures_item_found (by rw [hf, reading, hw.ofItem])

/-- An acquisition or a release comes to what the rules make of the record that lies there. -/
theorem ensures_decide {existing : Option Lock} (hsep : options.Separate) (h : op.check = .ok c)
    (hk : op.kind ≠ .renew) (hl : StoredAs c.realm c.name (Assoc.find? s c.key) existing) :
    Ensures {client} (fun r _ => r = .ok (op.decide existing))
      (op.attempt (service options) c) s := by
  refine Ensures.of_subset (subset_troubled {client} fun _ => False) ?_
  cases hkind : op.kind with
  | acquire =>
    rw [ensures_write h (by rw [hkind]; decide)]
    refine ⟨?_, fun _ => False.elim⟩
    have hc := hl.commits_acquire h hsep hkind
    cases hp : op.permits existing with
    | true =>
      rw [hp, if_pos rfl] at hc
      rw [readBack_of_some hc, hl.reading, Operation.decide_taken hkind hp]
      simp only [Except.map, verdict, hkind]
      rfl
    | false =>
      rw [hp, if_neg Bool.false_ne_true] at hc
      obtain ⟨code, hcode, he⟩ := client_write_of_none hc
      obtain rfl := hcode hk fun _ => by rw [idOf_itemOf hsep h]; rfl
      rw [readBack, he, Operation.decide_not_taken hkind hp, hkind]
      rfl
  | release =>
    rw [ensures_release plain_client hkind, hl.commits_release h hkind]
    refine ⟨?_, fun _ => False.elim⟩
    cases ho : op.owns existing with
    | true =>
      simp only [if_true, hl.reading, Except.map, verdict, hkind, Operation.decide_freed hkind ho]
      rfl
    | false =>
      simp only [Bool.false_eq_true, if_false, Classifies, hl.reading,
        Operation.decide_not_freed hkind ho]
      exact ⟨rfl, fun _ => False.elim⟩
  | renew => exact absurd hkind hk

theorem ensures_suits {existing : Option Lock} (hsep : options.Separate) (h : op.check = .ok c)
    (hl : StoredAs c.realm c.name (Assoc.find? s c.key) existing) :
    Ensures {client} (fun r _ => ∃ v, r = .ok v ∧ op.Suits existing v)
      (op.attempt (service options) c) s := by
  by_cases hk : op.kind = .renew
  · refine Ensures.of_subset (subset_troubled {client} fun _ => False) ?_
    rw [ensures_write h (by rw [hk]; decide)]
    refine ⟨?_, fun _ => False.elim⟩
    have hc := hl.commits_renew h hsep hk
    cases hp : op.permits existing with
    | true =>
      rw [hp, if_pos rfl] at hc
      obtain ⟨w', l, hc, hr⟩ := hc
      rw [readBack_of_some hc, hr]
      exact ⟨_, rfl, .of_permitted hp (isSuccess_verdict op _)⟩
    | false =>
      rw [hp, if_neg Bool.false_ne_true] at hc
      obtain ⟨code, -, he⟩ := client_write_of_none hc
      rw [readBack, he]
      -- a renewal may also be refused because the new expiry cannot be computed, which is no
      -- conflict
      refine ⟨if isConditionFailure
        (.fault (refusal code)) then (op.kind.conflict, none) else (op.kind.failed, none),
        rfl, absurd hk, ?_⟩
      rw [hp, hk]
      split <;> rfl
  · exact (ensures_decide hsep h hk hl).mono fun r _ hr => ⟨_, hr, Operation.suits_decide existing⟩

end Held

end Leasehold.Items
