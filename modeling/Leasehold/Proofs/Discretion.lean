import Leasehold.Proofs.Holding
import Leasehold.Proofs.Serving

/-!
# What a refused caller learns

A lock that is held by someone else is refused, and by whom it is held does not show: on two stores
that hold it for different others a request comes to the same, whichever calls fail, and neither
store changes (`refusal_discreet`). A reading shows owner and expiry and nothing else of the record.
-/

namespace Leasehold
open Session Manager

/-! ### Refusals -/

/-- The rules' answer to an operation on a live lock of someone else. -/
def Operation.Kind.refusal : Operation.Kind → Outcome
  | .acquire => .acquireConflict
  | .renew => .renewMismatch
  | .release => .releaseConflict

namespace Operation
variable {op : Operation} {l : Lock}

theorem permits_refused (hx : l.isExpired op.now = false) (ho : op.owns (some l) = false) :
    op.permits (some l) = false := by
  have hg : Lock.isGone (some l) op.now = false := hx
  cases hk : op.kind <;>
    simp only [permits, hk, hg, ho, Bool.not_false, Bool.and_false, Bool.or_false]

theorem decide_refused (hx : l.isExpired op.now = false) (ho : op.owns (some l) = false) :
    op.decide (some l) = (op.kind.refusal, none) := by
  have hm : op.lock.isMatch l = false := ho
  cases hk : op.kind <;>
    simp only [decide, hk, Decision.acquire, Decision.renew, Decision.release, hm, hx,
      Lock.isActive, Kind.refusal,
      Bool.not_false, Bool.false_eq_true, if_true, if_false]

theorem afterRefusedRelease_refused (hx : l.isExpired op.now = false) :
    Decision.afterRefusedRelease (some l) op.now = .releaseConflict := by
  simp only [Decision.afterRefusedRelease, hx, Bool.false_eq_true, if_false]

end Operation

section Refused
variable {Γ : Context → Context → Prop} {op : Operation} {c h h' : Claim}
    {lease lease' expiry expiry' : Int}

/-- A claim to a lock that another claim holds until `expiry`, when the operation is made. -/
structure Operation.Refused (op : Operation) (c h : Claim) (expiry : Int) : Prop where
  check : op.check = .ok c
  realm : h.realm = c.realm
  name : h.name = c.name
  active : ¬ expiry < op.now
  other : ¬ (c.owner = h.owner ∧ c.instanceId = h.instanceId)

namespace Operation.Refused
variable (hr : op.Refused c h expiry)
include hr

theorem live (lease : Option Int) : (h.lock lease (some expiry)).isExpired op.now = false :=
  decide_eq_false hr.active

theorem disowned (lease : Option Int) : op.owns (some (h.lock lease (some expiry))) = false := by
  rw [owns_lock hr.check hr.realm hr.name, ← Bool.decide_and]
  exact decide_eq_false hr.other

theorem key : h.key = c.key := by rw [Claim.key, Claim.key, hr.realm, hr.name]

theorem decide_eq (lease : Option Int) :
    op.decide (some (h.lock lease (some expiry))) = (op.kind.refusal, none) :=
  decide_refused (hr.live lease) (hr.disowned lease)

theorem permits_eq (lease : Option Int) : op.permits (some (h.lock lease (some expiry))) = false :=
  permits_refused (hr.live lease) (hr.disowned lease)

theorem effect_eq (lease : Option Int) : op.effect (some (h.lock lease (some expiry))) = .keep := by
  refine effect_of_failure ?_
  rw [isSuccess_decide]
  exact hr.permits_eq lease

end Operation.Refused

/-- A statement on a row that is live by its clock as well. -/
theorem Table.execute_refused {options : Options} {s : Store} {row : Row}
    (hr : op.Refused c h expiry) (hf : Assoc.find? s.rows (c.realm, c.name) = some row)
    (hw : Holds row h lease expiry) (hx : ¬ expiry < (options.clock op.now).time s) :
    s.execute (statement options op c) = .ok (none, s) ∧
      s.execute (.selectExpired c.realm c.name (options.clock op.now)) =
        .ok (some [("expired", .bool false)], s) := by
  have hexpired : isExpired row ((options.clock op.now).time s) = .ok (some false) := by
    rw [hw.isExpired, decide_eq_false hx]
  have hheld : isHeldBy row c = .ok (some false) := by
    rw [hw.isHeldBy, ← Bool.decide_and, decide_eq_false hr.other]
  constructor
  · cases hk : op.kind <;>
      simp only [statement, hk, Store.execute, bound_raw, ok_bind, hf, hexpired, hheld,
        cell_of_find? hw.lease,
        cell_of_find? hw.expiry, plus] <;>
      rfl
  · simp only [Store.execute, boundText, ok_bind, hf, hexpired]
    rfl

/-- What the store answers to a write that must not go through: it looks at the call before it looks
at the item. -/
def Items.Call.refusalCode : Call → String
  | .put item _ => if (idOf? item).isSome then conditionFailed else validationFailed
  | .update _ u _ => if u.isProper then conditionFailed else validationFailed
  | _ => conditionFailed

theorem Items.client_refused (options : Options) {s : Store} {w : Item}
    (hr : op.Refused c h expiry) (hf : Assoc.find? s c.key = some w) (hw : Holds w h lease expiry) :
    client (write options op c) s = (.error (refusal (write options op c).refusalCode), s) := by
  have hother : (decide (c.owner = h.owner) && decide (c.instanceId = h.instanceId)) = false := by
    rw [← Bool.decide_and]
    exact decide_eq_false hr.other
  have refused {condition : Condition} (h : condition.holds w = false) :
      ¬ condition.holds ((Assoc.find? s c.key).getD []) = true := by
    rw [hf, Option.getD_some, h]
    exact Bool.false_ne_true
  have hkey : op.lock.key = c.key := by rw [op.lock_of_check hr.check, Claim.key_lock]
  obtain ⟨kind, l, now⟩ := op
  cases kind with
  | acquire =>
    have hfree : (isFree c now).holds w = false := by
      rw [isFree_holds hw.holdsNumbers, hother, Bool.or_false]
      exact decide_eq_false hr.active
    cases hid : idOf? (itemOf options l.lock) with
    | none =>
      simp only [write, Operation.lock, client, Call.refusalCode, hid, Option.isSome_none,
        Bool.false_eq_true, if_false]
    | some id =>
      obtain rfl : id = c.key := (idOf_itemOf_of_some hid).trans hkey
      simp only [write, Operation.lock, client, Call.refusalCode, hid, Option.isSome_some, if_true,
        if_neg (refused hfree)]
  | renew =>
    have hlive : (isLive c now).holds w = false := by
      rw [isLive_holds hw.holdsNumbers, hother, Bool.and_false]
    simp only [write, client, Call.refusalCode, if_neg (refused hlive)]
    split <;> rfl
  | release => exact if_neg (refused ((heldBy_holds hw.holdsNumbers.toIsItemOf).trans hother))

theorem KeyValue.Holds.legible {text : String} (hh : Holds text (h.lock (some lease) (some expiry)))
    (hl : (Number.isTooLong lease || Number.isTooLong expiry) = false) :
    ofRecordText text = .ok (h.lock (some lease) (some expiry)) := by
  rcases hh with hh | rfl
  · exact hh
  · refine ofRecordText_of_short (h.isRecord_lock _ _) ?_
    simp only [Claim.lock, Option.any_some]
    exact hl

variable (hr : op.Refused c h expiry) (hr' : op.Refused c h' expiry')
include hr hr'

theorem Memory.twin_refused {T : Store → Store → Prop} {s s' : Store} (hT : T s s')
    (hf : Assoc.find? s c.key = some (h.lock (some lease) (some expiry)))
    (hf' : Assoc.find? s' c.key = some (h'.lock (some lease') (some expiry'))) :
    Twin Γ T client (RenamesVerdict id) (op.attempt service c) (op.attempt service c) s s' := by
  refine twin_attempt (.refl hr.check) hT ?_ ?_
  · rw [hf, hf', hr.decide_eq, hr'.decide_eq]
    rfl
  · rw [leaves_refused, leaves_refused]
    · exact hT
    · rw [hf', Operation.isSuccess_decide, hr'.permits_eq]
    · rw [hf, Operation.isSuccess_decide, hr.permits_eq]

theorem KeyValue.twin_refused {T : Store → Store → Prop} {options : Options} {s s' : Store}
    {e e' : Entry} (hT : T s s') (hf : s.entries.find? (keyOf options c.realm c.name) = some e)
    (hl : ofRecordText e.value = .ok (h.lock (some lease) (some expiry)))
    (hf' : s'.entries.find? (keyOf options c.realm c.name) = some e')
    (hl' : ofRecordText e'.value = .ok (h'.lock (some lease') (some expiry'))) :
    Twin Γ T client (RenamesVerdict id) (op.attempt (service options) c)
      (op.attempt (service options) c) s s' := by
  refine twin_attempt (.refl hr.check) hT ?_
  rw [looked_of_find hf hl, looked_of_find hf' hl']
  refine .ok ⟨?_, .keep (hr.effect_eq _) (hr'.effect_eq _)⟩
  rw [hr.decide_eq, hr'.decide_eq]
  rfl

theorem Documents.twin_refused {T : Store → Store → Prop} {options : Options} {s s' : Store}
    {data data' : Value.Fields} (hT : T s s')
    (hf : Assoc.find? s (pathOf options c.realm c.name) = some data)
    (hl : Lock.ofFields data = .ok (h.lock (some lease) (some expiry)))
    (hf' : Assoc.find? s' (pathOf options c.realm c.name) = some data')
    (hl' : Lock.ofFields data' = .ok (h'.lock (some lease') (some expiry'))) :
    Twin Γ T client (RenamesVerdict id) (op.attempt (service options) c)
      (op.attempt (service options) c) s s' := by
  refine twin_attempt (.refl hr.check) hT ?_
  simp only [hf, hf', conclude, reading, hl, hl', Except.map, Except.bind, writes, hr.effect_eq,
    hr'.effect_eq, hr.decide_eq,
    hr'.decide_eq]
  exact .ok ⟨rfl, hT⟩

theorem Table.twin_refused {T : Store → Store → Prop} {options : Options} {s s' : Store}
    {row row' : Row} (hT : T s s') (hf : Assoc.find? s.rows (c.realm, c.name) = some row)
    (hw : Holds row h lease expiry) (hx : ¬ expiry < (options.clock op.now).time s)
    (hf' : Assoc.find? s'.rows (c.realm, c.name) = some row') (hw' : Holds row' h' lease' expiry')
    (hx' : ¬ expiry' < (options.clock op.now).time s') :
    Twin Γ T client (RenamesVerdict id) (op.attempt (service options) c)
      (op.attempt (service options) c) s s' := by
  obtain ⟨hstatement, hlook⟩ := execute_refused hr hf hw hx
  obtain ⟨hstatement', hlook'⟩ := execute_refused hr' hf' hw' hx'
  refine twin_attempt (.refl hr.check) hT ?_ fun _ => ?_
  · rw [hstatement, hstatement']
    exact .ok ⟨hT, rfl, .refl fun v _ => (Verdict.rename_id v).symm⟩
  · rw [hlook, hlook']
    exact .ok (.refl fun v _ => (Verdict.rename_id v).symm)

theorem Items.twin_refused {T : Store → Store → Prop} {options : Options} {s s' : Store}
    {w w' : Item} (hT : T s s') (hf : Assoc.find? s c.key = some w) (hw : Holds w h lease expiry)
    (hf' : Assoc.find? s' c.key = some w') (hw' : Holds w' h' lease' expiry') :
    Twin Γ T client (RenamesVerdict id) (op.attempt (service options) c)
      (op.attempt (service options) c) s s' := by
  have hwrite := client_refused options hr hf hw
  have hwrite' := client_refused options hr' hf' hw'
  refine twin_attempt (.refl hr.check) hT ?_ ?_ fun _ => ?_
  · rw [hwrite, hwrite']
    exact hT
  · rw [hwrite, hwrite']
    exact .error _
  · rw [hf, hf']
    simp only [reading, hw.ofItem, hw'.ofItem]
    refine .ok ?_
    rw [Operation.afterRefusedRelease_refused (hr.live _), Operation.afterRefusedRelease_refused
      (hr'.live _)]

end Refused

/-! ### Two stores -/

/-- Who holds a lock, for how long, and until when. -/
structure Hold where
  owner : String
  instanceId : String
  lease : Int
  expiry : Int
deriving DecidableEq, Repr

namespace Hold

def claim (h : Hold) (realm name : Identifier) : Claim := ⟨realm, name, h.owner, h.instanceId⟩

def lock (h : Hold) (realm name : Identifier) :
    Lock := (h.claim realm name).lock (some h.lease) (some h.expiry)

end Hold

/-- What a request shows to its caller and in the log. -/
def Session.Run.seen {σ α : Type} (r : Run σ α) : Except Error α × Context × List Log.Entry :=
  (r.result, r.context, r.log)

theorem Session.Matched.seen {σ : Type} {T : σ → σ → Prop} {r r' : Run (σ × Script) Answer}
    (h : Matched Eq T (fun a a' _ _ => a' = a) r r') : r'.seen = r.seen := by
  rw [Run.seen, Run.seen, h.result.eq, h.context, h.log]

namespace Backend

/-- A key-value store keeps records as text, in which a number of too many digits cannot be read. -/
def Legible : Backend → Hold → Prop
  | keyValue _, h => (Number.isTooLong h.lease || Number.isTooLong h.expiry) = false
  | _, _ => True

/-- The store knows of the lock that it is held, by its own clock if it goes by that. -/
def KnowsHeld : (b : Backend) → b.system.Store → Hold → Prop
  | table options, s, h => options.useServerTime = true → ¬ h.expiry < s.serverNow
  | _, _, _ => True

/-- The lock is held by someone else. -/
structure HeldByOther (b : Backend) (s : b.system.Store) (h : Hold) (caller : Caller)
    (now : Int) : Prop where
  active : ¬ h.expiry < now
  other : (h.owner, h.instanceId) ≠ caller.holder
  known : b.KnowsHeld s h

variable {b : Backend} {Γ : Context → Context → Prop} {T : b.system.Store → b.system.Store → Prop}
  {s s' : b.system.Store} {realm name : Identifier} {h h' : Hold} {caller : Caller}
  {term : Term} {now : Int}

variable (term) in
theorem twin_withheld (hT : T s s') (hs : b.Holds s (h.claim realm name) h.lease h.expiry)
    (hl : b.Legible h) (hw : b.HeldByOther s h caller now)
    (hs' : b.Holds s' (h'.claim realm name) h'.lease h'.expiry) (hl' : b.Legible h')
    (hw' : b.HeldByOther s' h' caller now) (kind : Operation.Kind) :
    Twin Γ T b.system.client (RenamesVerdict id)
      ((operation kind (caller.claim realm name) term now).attempt b.system.service
        (caller.claim realm name))
      ((operation kind (caller.claim realm name) term now).attempt b.system.service
        (caller.claim realm name)) s s' := by
  have refused {h : Hold} {s : b.system.Store} (hw : b.HeldByOther s h caller now) :
      (operation kind (caller.claim realm name) term now).Refused (caller.claim realm name)
        (h.claim realm name)
        h.expiry := by
    refine ⟨check_claim kind realm name caller term now, rfl, rfl, hw.active, fun ho => hw.other ?_⟩
    exact Prod.ext ho.1.symm ho.2.symm
  cases b with
  | memory => exact Memory.twin_refused (refused hw) (refused hw') hT hs hs'
  | keyValue options =>
    obtain ⟨e, hf, -, he⟩ := hs
    obtain ⟨e', hf', -, he'⟩ := hs'
    exact KeyValue.twin_refused (refused hw) (refused hw') hT hf (he.legible hl) hf'
      (he'.legible hl')
  | table options =>
    obtain ⟨row, hf, hr⟩ := hs
    obtain ⟨row', hf', hr'⟩ := hs'
    have hclock {h : Hold} {s : Table.Store} (hw : (table options).HeldByOther s h caller now) :
        ¬ h.expiry < (options.clock now).time s := by
      rw [Table.Options.clock]
      split
      · rename_i hserver
        exact hw.known hserver
      · exact hw.active
    exact Table.twin_refused (refused hw) (refused hw') hT hf hr (hclock hw) hf' hr' (hclock hw')
  | items options =>
    obtain ⟨w, hf, hi⟩ := hs
    obtain ⟨w', hf', hi'⟩ := hs'
    exact Items.twin_refused (refused hw) (refused hw') hT hf hi hf' hi'
  | documents options =>
    obtain ⟨data, hf, hd⟩ := hs
    obtain ⟨data', hf', hd'⟩ := hs'
    exact Documents.twin_refused (refused hw) (refused hw') hT hf hd hf' hd'

theorem shows_hold (ho : h'.owner = h.owner) (he : h'.expiry = h.expiry) :
    Shows realm name (some (h.lock realm name)) (some (h'.lock realm name)) := by
  refine ⟨rfl, fun now => ?_⟩
  simp only [Answer.ofStored, Hold.lock, Hold.claim, Claim.lock, Lock.isExpired,
    Lock.redacted, ho, he]
  rfl

theorem Holds.reading (hs : b.Holds s (h.claim realm name) h.lease h.expiry) (hl : b.Legible h) :
    b.reading s realm name = .ok (some (h.lock realm name)) := by
  cases b with
  | memory => exact congrArg Except.ok hs
  | keyValue options =>
    obtain ⟨e, hf, -, ht⟩ := hs
    exact congrArg (Except.map Prod.fst) (KeyValue.looked_of_find hf (ht.legible hl))
  | table options =>
    obtain ⟨row, hf, hr⟩ := hs
    exact (congrArg Table.reading hf).trans (Table.reading_some hr.shown.ofRow)
  | items options =>
    obtain ⟨w, hf, hi⟩ := hs
    exact (congrArg Items.reading hf).trans hi.ofItem
  | documents options =>
    obtain ⟨data, hf, hd⟩ := hs
    exact (congrArg Documents.reading hf).trans (congrArg (Except.map some) hd)

theorem twin_shown (hT : T s s') (hs : b.Holds s (h.claim realm name) h.lease h.expiry)
    (hl : b.Legible h) (hs' : b.Holds s' (h'.claim realm name) h'.lease h'.expiry)
    (hl' : b.Legible h') (ho : h'.owner = h.owner) (he : h'.expiry = h.expiry) :
    Twin Γ T b.system.client (fun l l' _ _ => Shows realm name l l')
      (b.system.service.find realm name) (b.system.service.find realm name) s s' := by
  refine twin_find hT ⟨rfl, fun _ => rfl⟩ ?_
  rw [hs.reading hl, hs'.reading hl']
  exact .ok (shows_hold ho he)

variable (b) in
/-- A refused caller sees the same, and leaves the store as it was, whoever holds the lock. A reader
sees the same for holds of the same owner and expiry. -/
theorem refusal_discreet {s₁ s₂ : b.system.Store} {realm name : Identifier} {h₁ h₂ : Hold}
    (hs₁ : b.Holds s₁ (h₁.claim realm name) h₁.lease h₁.expiry) (hl₁ : b.Legible h₁)
    (hs₂ : b.Holds s₂ (h₂.claim realm name) h₂.lease h₂.expiry) (hl₂ : b.Legible h₂) (t : Timing)
    (script : Script) (context : Context) :
    let run (ask : Ask) (s : b.system.Store) :=
      (ask.session b.system.service t).run (scripted b.system.client) (s, script) context
    (∀ (kind : Operation.Kind) (caller : Caller) (term : Term) (now : Int), t.now = .ok now →
      b.HeldByOther s₁ h₁ caller now → b.HeldByOther s₂ h₂ caller now →
      let ask := Ask.operate kind realm name caller term
      (run ask s₂).seen = (run ask s₁).seen ∧ (run ask s₁).store.1 = s₁ ∧
      (run ask s₂).store.1 = s₂) ∧
    (h₂.owner = h₁.owner → h₂.expiry = h₁.expiry →
      (run (.get realm name) s₂).seen = (run (.get realm name) s₁).seen) := by
  intro run
  constructor
  · intro kind caller term now ht hw₁ hw₂
    have hm : Matched Eq (fun u u' => u = s₁ ∧ u' = s₂) (fun a a' _ _ => a' = a)
        (run (.operate kind realm name caller term) s₁)
          (run (.operate kind realm name caller term) s₂) := by
      refine twin_operate_same t b.system.service realm name term lasting_eq ⟨rfl, rfl⟩
        (fun _ => rfl) fun now' ht' => ?_
      obtain rfl : now = now' := Except.ok.inj (ht.symm.trans ht')
      exact twin_withheld term ⟨rfl, rfl⟩ hs₁ hl₁ hw₁ hs₂ hl₂ hw₂ kind
    exact ⟨hm.seen, hm.store⟩
  · intro ho he
    have hm : Matched Eq (fun _ _ => True) (fun a a' _ _ => a' = a) (run (.get realm name) s₁)
        (run (.get realm name) s₂) :=
      twin_get_same t b.system.service realm name lasting_eq rfl
        (twin_shown trivial hs₁ hl₁ hs₂ hl₂ ho he)
    exact hm.seen

/-- By the clock of the server, another session of the same owner and somebody else refuse alike,
and a call that fails fails alike. -/
theorem refusal_discreet_siblings :
    let b := Backend.table { useServerTime := true }
    let jobs : Identifier := ⟨"jobs", by decide⟩
    let nightly : Identifier := ⟨"nightly", by decide⟩
    let ada : Caller := ⟨some "ada", ⟨"one", by decide⟩⟩
    let ten : Term := ⟨10, by decide⟩
    let sibling : Hold := ⟨"ada", "two", 10, 15⟩
    let bob : Hold := ⟨"bob", "two", 60, 70⟩
    let store (h : Hold) : b.system.Store :=
      { rows := [((jobs.1, nightly.1), Table.rowOf (h.claim jobs nightly) h.lease h.expiry)],
        serverNow := 14 }
    let run (s : b.system.Store) :=
      ((Ask.operate .release jobs nightly ada ten).session b.system.service (still 12)).run
      (scripted b.system.client) (s, [none, some (.reported .timeout none "timeout")]) []
    b.HeldByOther (store sibling) sibling ada 12 ∧ b.HeldByOther (store bob) bob ada 12 ∧
      (run (store bob)).seen = (run (store sibling)).seen ∧ (run (store sibling)).store.1 =
        store sibling ∧
      (run (store bob)).store.1 = store bob := by
  intro b jobs nightly ada ten sibling bob store run
  have held (h : Hold) : b.Holds (store h) (h.claim jobs nightly) h.lease h.expiry :=
    ⟨_, rfl, rfl, rfl, rfl, rfl, rfl, rfl⟩
  have hs : b.HeldByOther (store sibling) sibling ada 12 :=
    ⟨by decide, by decide, fun _ => by decide⟩
  have hb : b.HeldByOther (store bob) bob ada 12 := ⟨by decide, by decide, fun _ => by decide⟩
  exact ⟨hs, hb, (refusal_discreet b (held sibling) trivial (held bob) trivial (still 12)
    [none, some (.reported .timeout none "timeout")] []).1
    .release ada ten 12 rfl hs hb⟩

/-! ### Stores that do not know -/

/-- The store without what lies under a lock. -/
def without : (b : Backend) → b.system.Store → (realm name : String) → b.system.Store
  | memory, s, realm, name => Assoc.erase s (Lock.keyOf realm name)
  | keyValue options, s, realm, name =>
    { s with entries := Assoc.erase s.entries (KeyValue.keyOf options realm name) }
  | table _, s, realm, name => { s with rows := Assoc.erase s.rows (realm, name) }
  | items _, s, realm, name => Assoc.erase s (Lock.keyOf realm name)
  | documents options, s, realm, name => Assoc.erase s (Documents.pathOf options realm name)

/-- Two stores that are the same but for the holder of a lock refuse alike, and are left as they
were. -/
def Discreet (b : Backend) : Prop :=
  ∀ (s₁ s₂ : b.system.Store) (realm name : Identifier) (h₁ h₂ : Hold)
    (kind : Operation.Kind) (caller : Caller) (term : Term) (now : Int),
    b.without s₁ realm name = b.without s₂ realm name →
    b.Holds s₁ (h₁.claim realm name) h₁.lease h₁.expiry →
    b.Holds s₂ (h₂.claim realm name) h₂.lease h₂.expiry →
    ¬ h₁.expiry < now → ¬ h₂.expiry < now → (h₁.owner, h₁.instanceId) ≠ caller.holder →
    (h₂.owner, h₂.instanceId) ≠ caller.holder →
    let run (s : b.system.Store) :=
      ((Ask.operate kind realm name caller term).session b.system.service (still now)).run
      b.system.client s []
    (run s₂).seen = (run s₁).seen ∧ (run s₁).store = s₁ ∧ (run s₂).store = s₂

section Overlong
variable (realm name : Identifier)

/-- A store with the text of one record, which may be too long to be read. -/
def textOf (h : Hold) : KeyValue.Store :=
  { revision := 1
    entries :=
      [(KeyValue.keyOf {} realm name,
        ⟨Json.render (.map (h.lock realm name).toFields), 1, 1, none⟩)] }

theorem find?_textOf (h : Hold) :
    (textOf realm name h).entries.find? (KeyValue.keyOf {} realm name) =
    some ⟨Json.render (.map (h.lock realm name).toFields), 1, 1, none⟩ := if_pos rfl

theorem holds_textOf (h : Hold) :
    (keyValue {}).Holds (textOf realm name h) (h.claim realm name) h.lease h.expiry :=
  ⟨_, find?_textOf realm name h, Nat.one_ne_zero, .inr rfl⟩

theorem without_textOf (h h' : Hold) :
    (keyValue {}).without (textOf realm name h) realm name = (keyValue {}).without
      (textOf realm name h') realm name := by
  simp only [without, textOf, Assoc.erase, Assoc.drop, List.filter_cons, decide_true, Bool.not_true,
    Bool.false_eq_true,
    if_false]
  rfl

/-- A record that cannot be read makes an operation fail where a conflict would be due. -/
theorem not_discreet_of_isTooLong (realm name : Identifier) {holder caller : Caller}
    (ho : caller.holder ≠ holder.holder) (term : Term) (lease expiry : Int) {long : Int}
    (hshort : (Number.isTooLong lease || Number.isTooLong expiry) = false)
    (hlong : Number.isTooLong long = true) : ¬ Discreet (.keyValue {}) := by
  intro h
  let short : Hold := ⟨holder.name, holder.instanceId, lease, expiry⟩
  let overlong : Hold := ⟨holder.name, holder.instanceId, long, expiry⟩
  have hseen :=
    (h _ _ realm name short overlong .acquire caller term expiry (without_textOf realm name _ _)
    (holds_textOf realm name _) (holds_textOf realm name _) (lt_irrefl _)
      (lt_irrefl _) ho.symm ho.symm).1
  have hgoes : (KeyValue.system {}).GoesBy (textOf realm name short)
    (holder.claim realm name) lease expiry := by
    refine KeyValue.goesBy (find?_textOf realm name short) Nat.one_ne_zero ?_
    exact KeyValue.Holds.legible (.inr rfl) hshort
  have hfails : (KeyValue.system {}).Failing (textOf realm name overlong) realm name := by
    refine KeyValue.failing (c := overlong.claim realm name)
      (find?_textOf realm name overlong) Nat.one_ne_zero
      (KeyValue.ofRecordText_of_long ((overlong.claim realm name).isRecord_lock _ _) ?_)
    simp only [overlong, Hold.lock, Claim.lock, Option.any_some, hlong, Bool.true_or]
  have hconflict : (KeyValue.system {}).Replies (textOf realm name short)
    (.operate .acquire realm name caller term)
      (still expiry) [] (fun a => a.outcome = some .acquireConflict) :=
    (hgoes.conflicts_iff rfl rfl (by decide) ho).mpr (lt_irrefl _)
  obtain ⟨a, ha, ho⟩ := hconflict
  have hreplies : (KeyValue.system {}).Replies (textOf realm name overlong)
    (.operate .acquire realm name caller term)
      (still expiry) [] (fun a => a.outcome = some .acquireConflict) :=
        ⟨a, (congrArg Prod.fst hseen).trans ha, ho⟩
  refine hfails.not_replies rfl rfl (fun l => ?_) hreplies
  rw [Answer.outcome_ofOutcome]
  decide

end Overlong

/-- A server whose clock is ahead gives the lock away; and what cannot be read is no conflict but an
error. -/
theorem not_refusal_discreet_unknown :
    ¬ Discreet (.table { useServerTime := true }) ∧ ¬ Discreet (.keyValue {}) := by
  let jobs : Identifier := ⟨"jobs", by decide⟩
  let nightly : Identifier := ⟨"nightly", by decide⟩
  let ada : Caller := ⟨some "ada", ⟨"one", by decide⟩⟩
  let bob : Caller := ⟨some "bob", ⟨"two", by decide⟩⟩
  let ten : Term := ⟨10, by decide⟩
  let early : Hold := ⟨"bob", "two", 10, 15⟩
  let late : Hold := ⟨"bob", "two", 10, 30⟩
  refine ⟨fun h => ?_, ?_⟩
  · let store (h : Hold) : Table.Store :=
      { rows := [((jobs.1, nightly.1), Table.rowOf (h.claim jobs nightly) h.lease h.expiry)],
        serverNow := 20 }
    have held (h : Hold) : (table { useServerTime := true }).Holds (store h)
      (h.claim jobs nightly) h.lease h.expiry :=
      ⟨_, rfl, rfl, rfl, rfl, rfl, rfl, rfl⟩
    have hseen :=
      (h (store early) (store late) jobs nightly early late .acquire ada ten 5 rfl (held _) (held _)
      (by decide) (by decide) (by decide) (by decide)).1
    have houtcome := congrArg (fun p => p.1.toOption.bind Answer.outcome) hseen
    revert houtcome
    decide
  · have ho : ada.holder ≠ bob.holder := by decide
    have hshort : (Number.isTooLong 10 || Number.isTooLong 15) = false := by decide +kernel
    exact not_discreet_of_isTooLong jobs nightly ho ten 10 15 hshort
      KeyValue.isTooLong_lastTick_succ

end Backend

end Leasehold
