import Leasehold.Proofs.Twin.Documents
import Leasehold.Proofs.Twin.Items

/-!
# What the sweeper's field changes

Two services on the same kind of store, of which only one keeps a field for the sweeper, are given
the same tasks (`Service.runs`), each on its own store. What the two stores hold then agrees on all
that the services read: on the fields of a record, of an item also on its id. So the runs come out
alike when the sweeper's field is none of these. A document keeps the expiry as a point in time, so
with documents it also takes that every expiry that is granted without the field is one
(`sweeper_makes_no_difference`). The names are not checked, and those that are left out do make a
difference.
-/

namespace Leasehold

/-! ### Maps that agree -/

namespace Assoc
variable {κ α β : Type} [DecidableEq κ]

/-- The same is found under these keys. -/
def SameOn (keys : List κ) (m m' : Assoc κ α) : Prop := ∀ k ∈ keys, m'.find? k = m.find? k

namespace SameOn
variable {keys : List κ} {m m' : Assoc κ α}

theorem refl (keys : List κ) (m : Assoc κ α) : SameOn keys m m := fun _ _ => rfl

theorem put (h : SameOn keys m m') (k : κ) (a : α) : SameOn keys (m.put k a) (m'.put k a) := by
  intro j hj
  rw [find?_put, find?_put, h j hj]

/-- Under a key that matters only what is there already may be put. -/
theorem stamp (h : SameOn keys m m') {k : κ} {a : α} (hk : k ∈ keys → m.find? k = some a) :
    SameOn keys m (m'.put k a) := by
  intro j hj
  rw [find?_put]
  split
  · rename_i hkj
    subst hkj
    exact (hk hj).symm
  · exact h j hj

end SameOn

/-- The same keys, with related values under them. -/
def Pointwise (R : α → β → Prop) (m : Assoc κ α) (m' : Assoc κ β) : Prop :=
  ∀ k, Option.Rel R (m.find? k) (m'.find? k)

namespace Pointwise
variable {R : α → β → Prop} {m : Assoc κ α} {m' : Assoc κ β}

theorem nil : Pointwise R ([] : Assoc κ α) [] := fun _ => .none

theorem put (h : Pointwise R m m') (k : κ) {a : α} {b : β} (hab : R a b) :
    Pointwise R (m.put k a) (m'.put k b) := by
  intro j
  rw [find?_put, find?_put]
  split
  · exact .some hab
  · exact h j

theorem erase (h : Pointwise R m m') (k : κ) : Pointwise R (m.erase k) (m'.erase k) := by
  intro j
  by_cases hj : j = k
  · subst hj
    rw [find?_erase_self, find?_erase_self]
    exact .none
  · rw [find?_erase_ne hj, find?_erase_ne hj]
    exact h j

end Pointwise

end Assoc

/-! ### Tasks -/

open Session

section Tasks
variable {I : Interface} {σ : Type}

/-- What comes of a task: the record that was looked up, or an answer. -/
abbrev Task.Result := Except Error (Option Lock ⊕ Answer)

/-- The runs of tasks in turn, each on the store and in the log context that the one before has
left. -/
def Service.runs (service : Service I) (client : Client I σ) : List Task → σ → Context →
    List (Run σ (Option Lock ⊕ Answer))
  | [], _, _ => []
  | task :: tasks, s, c =>
    let run := (task.session service).run client s c
    run :: service.runs client tasks run.store run.context

/-- What can be seen of a run from outside of the store. -/
def Session.Run.shown {α : Type} (r : Run σ α) : Except Error α × Context × List Log.Entry :=
  (r.result, r.context, r.log)

variable {T : σ → σ → Prop} {client : Client I σ} {service service' : Service I} {s s' : σ}

variable (service service') in
theorem Task.twin (hname : service'.name = service.name) {task : Task} (hT : T s s')
    (hfind : ∀ realm name,
      Twin Eq T client (fun l l' _ _ => l' = l) (service.find realm name)
        (service'.find realm name) s s')
    (hattempt : ∀ op c, task = .operate op → op.check = .ok c →
      Twin Eq T client (RenamesVerdict id) (op.attempt service c) (op.attempt service' c) s s') :
    Twin Eq T client (fun a a' _ _ => a' = a) (task.session service)
      (task.session service') s s' := by
  cases task with
  | find realm name =>
    refine twin_bind (R := fun l l' _ _ => l' = l) ?_ fun l l' _ _ hT hl =>
      twin_done hT (congrArg Sum.inl hl)
    rw [Service.getLock, Service.getLock]
    cases RawClaim.checkKey (realm.map .text) (name.map .text) with
    | error e => exact twin_fail hT
    | ok p => exact hfind _ _
  | operate op =>
    refine twin_bind (R := fun a a' _ _ => a' = a) ?_ fun a a' _ _ hT ha =>
      twin_done hT (congrArg Sum.inr ha)
    cases h : op.check with
    | error e =>
      rw [op.session_of_error service h, op.session_of_error service' h]
      exact twin_fail hT
    | ok c =>
      have htwin := Operation.twin_session (r := id) lasting_eq hname (.renamed h)
        (by rw [Operation.rename_id, Claim.rename_id]; exact hattempt op c rfl h)
      simpa only [Operation.rename_id, Answer.rename_id] using htwin

theorem Service.shown_runs {P : Task.Result → Prop}
    (hstep : ∀ (task : Task) s s' c, T s s' → P ((task.session service).run client s c).result →
      Twin Eq T client (fun a a' _ _ => a' = a) (task.session service) (task.session service') s s')
    {tasks : List Task} (hT : T s s') {c : Context}
    (hP : ∀ r ∈ service.runs client tasks s c, P r.result) :
    (service'.runs client tasks s' c).map Run.shown =
      (service.runs client tasks s c).map Run.shown := by
  induction tasks generalizing s s' c with
  | nil => rfl
  | cons task tasks ih =>
    obtain ⟨hfirst, hrest⟩ := List.forall_mem_cons.mp hP
    obtain ⟨hlog, hcontext, hstore, hresult⟩ := (hstep task s s' c hT hfirst [] c c rfl).plain
    have hshown : ((task.session service').run client s' c).shown =
      ((task.session service).run client s c).shown := by
      rw [Run.shown, Run.shown, hlog, hcontext, hresult.eq]
    show _ :: _ = _ :: _
    rw [hshown]
    refine congrArg _ ?_
    rw [← hcontext]
    exact ih hstore hrest

end Tasks

/-! ### Conditional items -/

namespace Items
variable {options : Options} {op : Operation} {c : Claim} {s s' : Store}

/-- The service without an attribute for the sweeper. -/
def Options.bare (_ : Options) : Options := {}

theorem Options.separate_bare (options : Options) : options.bare.Separate := nofun

/-- Two items that agree on all that the service reads. -/
structure SameRecord (w w' : Item) : Prop where
  same : Assoc.SameOn ("lockId" :: Lock.fieldNames) w w'
  id : (Assoc.find? w "lockId").isSome

section SameRecord
variable {w w' : Option Item}

theorem same_getD (h : Option.Rel SameRecord w w') :
    Assoc.SameOn ("lockId" :: Lock.fieldNames) (w.getD []) (w'.getD []) := by
  cases h with
  | none => exact .refl _ _
  | some h => exact h.same

theorem reading_sameRecord (h : Option.Rel SameRecord w w') : reading w' = reading w := by
  cases h with
  | none => rfl
  | @some w w' h =>
    have hid' : (Assoc.find? w' "lockId").isSome := by rw [h.same _ (.head _)]; exact h.id
    have htruthy {w : Item} (hw : (Assoc.find? w "lockId").isSome) :
      (Value.map w).isTruthy = true := by
      cases w with
      | nil => cases hw
      | cons => rfl
    have hfields : Lock.ofFields w' = Lock.ofFields w := Lock.ofFields_congr fun k hk =>
      h.same k (.tail _ hk)
    simp only [reading, ofItem, htruthy h.id, htruthy hid', if_true, Lock.ofValue, hfields]

end SameRecord

section Conditions
variable {w w' : Item} (h : Assoc.SameOn ("lockId" :: Lock.fieldNames) w w')
include h

theorem heldBy_same : (heldBy c).holds w' = (heldBy c).holds w := by
  simp only [heldBy, Condition.holds, compare, h "owner" (by decide), h "instanceId" (by decide)]

theorem isFree_same (now : Int) : (isFree c now).holds w' = (isFree c now).holds w := by
  simp only [isFree, Condition.holds, compare, heldBy_same h, h "lockId" (by decide),
    h "expiry" (by decide)]

theorem isLive_same (now : Int) : (isLive c now).holds w' = (isLive c now).holds w := by
  simp only [isLive, Condition.holds, compare, heldBy_same h, h "lockId" (by decide),
    h "expiry" (by decide)]

end Conditions

/-- What two stores reply that are left with items that agree. -/
def Replied (p p' : Except Fault Value.Fields × Store) : Prop :=
  Assoc.Pointwise SameRecord p.2 p'.2 ∧
    Alike (fun w w' => ofItem (part w' "Attributes") = ofItem (part w "Attributes")) p.1 p'.1

section Separate
variable (hsep : options.Separate)
include hsep

theorem sameRecord_itemOf (h : op.check = .ok c) (hk : op.kind = .acquire) :
    SameRecord (itemOf options.bare op.lock) (itemOf options op.lock) := by
  rw [op.lock_of_check h, op.lease_of_check h (by rw [hk]; decide), op.expiry_of_check h hk]
  generalize Decision.orZero op.lock.expiry = expiry
  have hplain : Assoc.SameOn ("lockId" :: Lock.fieldNames)
    (itemOf options.bare (c.lock (some op.delta) (some expiry)))
      (itemOf options.bare (c.lock (some op.delta) (some expiry))) := .refl _ _
  refine ⟨?_, rfl⟩
  cases hn : options.ttlName? with
  | none =>
    simp only [itemOf, hn] at hplain ⊢
    exact hplain
  | some name =>
    simp only [itemOf, hn]
    exact hplain.stamp fun hmem => absurd hmem (hsep name hn)

theorem sameRecord_moved {w w' : Item} (h : SameRecord w w') (lease expiry : Value) :
    SameRecord (moved options.bare w lease expiry) (moved options w' lease expiry) := by
  have hplain := (h.same.put "leaseDuration" lease).put "expiry" expiry
  constructor
  · cases hn : options.ttlName? with
    | none =>
      simp only [moved, hn]
      exact hplain
    | some name =>
      simp only [moved, hn]
      exact hplain.stamp fun hmem => absurd hmem (hsep name hn)
  · show (Assoc.find? ((Assoc.put w "leaseDuration" _).put "expiry" _) "lockId").isSome
    rw [Assoc.find?_put_ne (by decide), Assoc.find?_put_ne (by decide)]
    exact h.id

/-- The writes of an operation come out alike: both are refused, or both hand back an item, and
these read alike. -/
theorem client_write_sameRecord (h : op.check = .ok c) (hs : Assoc.Pointwise SameRecord s s') :
    Replied (client (write options.bare op c) s) (client (write options op c) s') := by
  have hsame := same_getD (hs c.key)
  have hold {t t' : Store} (ht : Assoc.Pointwise SameRecord t t') : Replied
      (.ok (response "Attributes" (Assoc.find? s c.key)), t)
        (.ok (response "Attributes" (Assoc.find? s' c.key)), t') :=
    ⟨ht, .ok (by rw [ofItem_part, ofItem_part, reading_sameRecord (hs c.key)])⟩
  have hbare : idOf? (itemOf options.bare op.lock) = some c.key :=
    idOf_itemOf options.separate_bare h
  have hfull : idOf? (itemOf options op.lock) = some c.key := idOf_itemOf hsep h
  obtain ⟨kind, l, now⟩ := op
  cases kind with
  | acquire =>
    show Replied (client (.put (itemOf options.bare (Operation.lock ⟨.acquire, l, now⟩))
      (isFree c now)) s)
      (client (.put (itemOf options (Operation.lock ⟨.acquire, l, now⟩)) (isFree c now)) s')
    simp only [client, hbare, hfull, isFree_same hsame]
    split
    · exact hold (hs.put _ (sameRecord_itemOf hsep h rfl))
    · exact ⟨hs, .error _⟩
  | renew =>
    show Replied (client (.update c.key (extension options.bare (Operation.delta ⟨.renew, l, now⟩))
      (isLive c now)) s)
      (client (.update c.key (extension options (Operation.delta ⟨.renew, l, now⟩))
        (isLive c now)) s')
    simp only [client, options.separate_bare.isProper, hsep.isProper, if_true, isLive_same hsame,
      updated?_extension, hsame "leaseDuration" (by decide), hsame "expiry" (by decide)]
    split
    · rename_i hlive
      have hid : (Assoc.find? ((Assoc.find? s c.key).getD []) "lockId").isSome := by
        simp only [isLive, Condition.holds, Bool.and_eq_true] at hlive
        exact hlive.1.1
      cases (Assoc.find? ((Assoc.find? s c.key).getD []) "leaseDuration").bind Value.decimal? with
      | none => exact ⟨hs, .error _⟩
      | some lease =>
        cases (Assoc.find? ((Assoc.find? s c.key).getD []) "expiry").bind Value.decimal? with
        | none => exact ⟨hs, .error _⟩
        | some expiry =>
          have hrecord := sameRecord_moved hsep ⟨hsame, hid⟩
            (.decimal (lease.add (.ofInt (Operation.delta ⟨.renew, l, now⟩))))
            (.decimal (expiry.add (.ofInt (Operation.delta ⟨.renew, l, now⟩))))
          refine ⟨hs.put _ hrecord, .ok ?_⟩
          rw [ofItem_part, ofItem_part, reading_sameRecord (.some hrecord)]
    · exact ⟨hs, .error _⟩
  | release =>
    show Replied (client (.delete c.key (heldBy c)) s) (client (.delete c.key (heldBy c)) s')
    simp only [client, heldBy_same hsame]
    split
    · exact hold (hs.erase _)
    · exact ⟨hs, .error _⟩

theorem twin_sameRecord {task : Task} (hs : Assoc.Pointwise SameRecord s s') :
    Twin Eq (Assoc.Pointwise SameRecord) client (fun a a' _ _ => a' = a)
      (task.session (service options.bare)) (task.session (service options)) s s' := by
  have hreading (key : String) : Alike (fun l l' => l' = l) (reading (Assoc.find? s key))
    (reading (Assoc.find? s' key)) := by
    rw [reading_sameRecord (hs key)]
    exact .refl fun _ _ => rfl
  refine Task.twin (service options.bare) (service options) rfl hs (fun realm name => ?_)
    fun op c _ h => ?_
  · exact twin_find (R := fun l l' => l' = l) hs rfl (hreading _)
  · obtain ⟨hstore, hreply⟩ := client_write_sameRecord hsep h hs
    refine twin_attempt (.refl h) hs hstore (hreply.mono fun w w' hw => ?_) fun _ =>
      (hreading _).mono fun l l' hl => ?_
    · rw [hw]
      exact .refl fun v _ => (Verdict.rename_id v).symm
    · rw [hl]

end Separate

end Items

/-! ### Documents -/

/-- Until when an operation was granted the lock. -/
def Task.granted? : Task.Result → Option Int
  | .ok (.inr a) => if a.success = some true then a.lock.expiry else none
  | _ => none

namespace Documents
variable {options : Options} {op : Operation} {c : Claim} {s s' : Store}

/-- The service without a field for the sweeper. -/
def Options.bare (options : Options) : Options := { options with ttl := none }

theorem dataOf_bare (l : Lock) : dataOf options.bare l = .ok l.toFields := rfl

/-- Two documents that agree on the fields of a record. -/
abbrev SameRecord : Value.Fields → Value.Fields → Prop := Assoc.SameOn Lock.fieldNames

theorem reading_sameRecord {data data' : Option Value.Fields}
    (h : Option.Rel SameRecord data data') :
    reading data' = reading data := by
  cases h with
  | none => rfl
  | some h => exact congrArg (Except.map some) (Lock.ofFields_congr h)

/-- A record that an operation puts is granted. -/
theorem granted_of_put (h : op.check = .ok c) {existing : Option Lock} {l : Lock} {expiry : Int}
    (hr : reading (Assoc.find? s (pathOf options c.realm c.name)) = .ok existing)
    (he : op.effect existing = .put l) (hl : l.expiry = some expiry) (context : Context) :
    Task.granted? (((Task.operate op).session (service options.bare)).run client s context).result =
      some expiry := by
  have hdecides : Ensures {client} (fun r _ => r = .ok (op.answer (op.decide existing)))
    (op.session (service options.bare))
      s := by
    refine (Operation.ensures_session _ h).mpr
      (Ensures.of_subset (subset_troubled {client} fun _ => False) ?_)
    refine ensures_conclude h (fun v ws hv => ?_) (fun f hf => ?_) nofun
    · obtain ⟨existing', hr', rfl, -⟩ := conclude_eq_ok hv
      cases hr.symm.trans hr'
      rfl
    · change conclude options.bare op c (Assoc.find? s (pathOf options c.realm c.name)) =
        .error f at hf
      simp only [conclude, hr, Except.bind, writes, he, dataOf_bare] at hf
      cases hf
  have hconforms := op.conforms_of_effect he
  obtain ⟨hp, hwritten⟩ := Operation.written_of_put he
  have hk : op.kind ≠ .release := by
    intro hk
    simp only [Operation.effect, hk] at he
    split at he <;> cases he
  have hsuccess := hconforms.success_answer
  have hlock := hconforms.lock_answer hk hp
  rw [hp] at hsuccess
  rw [hwritten, Option.some.injEq] at hlock
  rw [Task.session, run_bind, Run.andThen, hdecides.run (Set.mem_singleton client) context]
  show (if (op.answer (op.decide existing)).success =
    some true then (op.answer (op.decide existing)).lock.expiry else none) = _
  rw [if_pos hsuccess, ← hlock, hl]

section Separate
variable (hsep : options.Separate)
include hsep

theorem dataOf_sameRecord {l : Lock}
    (hfits : ∀ expiry, l.expiry = some expiry → options.fits expiry) :
    ∃ data, dataOf options l = .ok data ∧ SameRecord l.toFields data := by
  cases hn : options.ttlName? with
  | none => exact ⟨l.toFields, by rw [dataOf, hn], .refl _ _⟩
  | some name =>
    cases he : l.expiry with
    | none => exact ⟨l.toFields, by rw [dataOf, hn, he], .refl _ _⟩
    | some expiry =>
      rcases hfits expiry he with hnone | hrange
      · cases hn.symm.trans hnone
      · refine ⟨Assoc.put l.toFields name (.instant expiry), ?_, (Assoc.SameOn.refl _ _).stamp
          fun h => absurd h (hsep name hn)⟩
        simp only [dataOf, hn, he, Instant.ofEpoch_eq_ok_iff.mpr ⟨hrange, rfl⟩]
        rfl

/-- An operation concludes alike from documents that agree, when what it puts has an expiry that
fits. -/
theorem conclude_sameRecord (hs : Assoc.Pointwise SameRecord s s')
    (hfits : ∀ existing l expiry, reading (Assoc.find? s (pathOf options c.realm c.name)) =
      .ok existing →
      op.effect existing = .put l → l.expiry = some expiry → options.fits expiry) :
    Alike (fun p p' => p'.1 = p.1.rename id ∧ Assoc.Pointwise SameRecord (p.2.foldl Write.apply s)
      (p'.2.foldl Write.apply s'))
        (conclude options.bare op c (Assoc.find? s (pathOf options.bare c.realm c.name)))
          (conclude options op c (Assoc.find? s' (pathOf options c.realm c.name))) := by
  change Alike _ (conclude options.bare op c (Assoc.find? s (pathOf options c.realm c.name))) _
  rw [conclude, conclude, reading_sameRecord (hs _)]
  cases hr : reading (Assoc.find? s (pathOf options c.realm c.name)) with
  | error f => exact .error f
  | ok existing =>
    have hwrites : Alike (fun ws ws' => Assoc.Pointwise SameRecord (ws.foldl Write.apply s)
      (ws'.foldl Write.apply s'))
        (writes options.bare op c existing) (writes options op c existing) := by
      rw [writes, writes]
      cases he : op.effect existing with
      | keep => exact .ok hs
      | put l =>
        obtain ⟨data, hd, hrecord⟩ := dataOf_sameRecord hsep fun expiry =>
          hfits existing l expiry hr he
        dsimp only
        rw [hd]
        exact .ok (hs.put _ hrecord)
      | delete => exact .ok (hs.erase _)
    exact hwrites.map fun ws ws' hws => ⟨(Verdict.rename_id _).symm, hws⟩

theorem twin_sameRecord {task : Task} (hs : Assoc.Pointwise SameRecord s s') {context : Context}
    (hfits : ∀ expiry ∈
      Task.granted? ((task.session (service options.bare)).run client s context).result,
      options.fits expiry) :
    Twin Eq (Assoc.Pointwise SameRecord) client (fun a a' _ _ => a' = a)
      (task.session (service options.bare)) (task.session (service options)) s s' := by
  refine Task.twin (service options.bare) (service options) rfl hs (fun realm name => ?_)
    fun op c he h => ?_
  · refine twin_find (R := fun l l' => l' = l) hs rfl ?_
    rw [reading_sameRecord (hs _)]
    exact .refl fun _ _ => rfl
  · subst he
    refine twin_attempt (.refl h) hs
      (conclude_sameRecord hsep hs fun existing l expiry hr hput hl => ?_)
    exact hfits expiry (granted_of_put h hr hput hl context)

end Separate

end Documents

/-! ### With and without the field -/

/-- The same tasks come out alike with and without a field for the sweeper, whose name is none that
is read; with documents also every expiry that is granted without the field has to be a point in
time. -/
theorem sweeper_makes_no_difference (tasks : List Task) (context : Context) :
    (∀ options : Items.Options, options.Separate →
      ((Items.service options).runs Items.client tasks [] context).map Run.shown =
        ((Items.service options.bare).runs Items.client tasks [] context).map Run.shown) ∧
    ∀ options : Documents.Options, options.Separate →
      (∀ expiry ∈
        ((Documents.service options.bare).runs Documents.client tasks [] context).filterMap
          (Task.granted? ·.result), options.fits expiry) →
      ((Documents.service options).runs Documents.client tasks [] context).map Run.shown =
        ((Documents.service options.bare).runs Documents.client tasks [] context).map
          Run.shown := by
  constructor
  · intro options hsep
    exact Service.shown_runs (P := fun _ => True)
      (fun task s s' c hs _ => Items.twin_sameRecord hsep hs)
      Assoc.Pointwise.nil
      fun _ _ => trivial
  · intro options hsep hfits
    refine Service.shown_runs (P := fun r => ∀ expiry ∈ Task.granted? r, options.fits expiry)
      (fun task s s' c hs h => Documents.twin_sameRecord hsep hs h) Assoc.Pointwise.nil
        fun r hr expiry he => ?_
    exact hfits expiry (List.mem_filterMap.mpr ⟨r, hr, he⟩)

/-- A lock is taken, renewed and looked up with the usual field and without. -/
theorem sweeper_makes_no_difference_ttl :
    let claim : Claim := ⟨"jobs", "nightly", "ada", "one"⟩
    let tasks : List Task := [.operate ⟨.acquire, claim.record (some 10) (some 15), 5⟩,
      .operate ⟨.renew, claim.record (some 10) none, 6⟩, .find (some "jobs") (some "nightly")]
    let items : Items.Options := ⟨some "ttl"⟩
    let documents : Documents.Options := ⟨"locks", some "ttl"⟩
    items.Separate ∧ documents.Separate ∧
    ((Documents.service documents.bare).runs Documents.client tasks [] []).filterMap
      (Task.granted? ·.result) =
      [15, 25] ∧ (∀ expiry ∈ [15, 25], documents.fits expiry) ∧
    ((Items.service items).runs Items.client tasks [] []).map Run.shown =
      ((Items.service items.bare).runs Items.client tasks [] []).map Run.shown ∧
    ((Documents.service documents).runs Documents.client tasks [] []).map Run.shown =
      ((Documents.service documents.bare).runs Documents.client tasks [] []).map Run.shown := by
  intro claim tasks items documents
  have hitems : items.Separate := by
    rintro name ⟨rfl⟩
    decide
  have hdocuments : documents.Separate := by
    rintro name ⟨rfl⟩
    decide
  have hgranted : ((Documents.service documents.bare).runs Documents.client tasks [] []).filterMap
      (Task.granted? ·.result) = [15, 25] := by
    decide +kernel
  have hfits : ∀ expiry ∈ [15, 25], documents.fits expiry := by
    simp only [List.mem_cons, List.not_mem_nil, or_false, forall_eq_or_imp, forall_eq]
    exact ⟨.inr (by decide), .inr (by decide)⟩
  obtain ⟨hi, hd⟩ := sweeper_makes_no_difference tasks []
  exact ⟨hitems, hdocuments, hgranted, hfits, hi items hitems, hd documents hdocuments
    (hgranted ▸ hfits)⟩

/-- Every other name does make a difference once a lock is taken, renewed and looked up, and so does
the usual field when the lock is taken for a time after the calendar ends. -/
theorem not_sweeper_makes_no_difference :
    let claim : Claim := ⟨"jobs", "nightly", "ada", "one"⟩
    let tasks (expiry : Int) : List Task :=
      [.operate ⟨.acquire, claim.record (some 10) (some expiry), expiry - 10⟩,
        .operate ⟨.renew, claim.record (some 10) none, expiry - 10⟩, .find (some "jobs")
          (some "nightly")]
    let items (options : Items.Options) :=
      ((Items.service options).runs Items.client (tasks 15) [] []).map
      (·.result.toOption)
    let documents (options : Documents.Options) (expiry : Int) :=
      ((Documents.service options).runs Documents.client (tasks expiry) [] []).map
        (·.result.toOption)
    (∀ name ∈ "lockId" :: Lock.fieldNames, items ⟨some name⟩ ≠ items ⟨none⟩) ∧
    (∀ name ∈ Lock.fieldNames, documents ⟨"locks", some name⟩ 15 ≠ documents ⟨"locks", none⟩ 15) ∧
    documents ⟨"locks", some "ttl"⟩ (Instant.last + 1) ≠ documents ⟨"locks", none⟩
      (Instant.last + 1) := by
  decide +kernel

end Leasehold
