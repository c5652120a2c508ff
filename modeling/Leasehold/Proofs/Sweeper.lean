import Leasehold.Proofs.Execution.Documents
import Leasehold.Proofs.Execution.Items

/-!
# The field of the sweeper follows the expiry

Items and documents may carry a field by which a sweeper of the store drops them. Three pieces of
code write it: the put of an acquisition, the update of a renewal, and the set of a whole document.
`Items.Stamped` and `Documents.Stamped` say that it repeats the expiry; whatever an operation writes
is stamped, so in every store that operations lead to (`System.Worked`) everything is
(`sweeper_follows_expiry`).

An update takes all that it adds to from the item before it (`Items.Update.updated?`); so the field
moves with the expiry even though both are assigned at once.
-/

namespace Leasehold
open Session

/-- The stores that operations lead to: on whatever records, by whatever clock, and whichever calls
fail. -/
inductive System.Worked (S : System) : S.Store → Prop
  | empty : S.Worked S.empty
  | operated {s s' : S.Store} {r : Except Error Answer} (op : Operation) (h : S.Worked s)
    (hx : Exec (troubled {S.client} fun _ => True) (op.session S.service) s r s') : S.Worked s'

theorem System.Worked.keeps {S : System} {P : S.Store → Prop} (hempty : P S.empty)
    (hstep : ∀ (op : Operation) (c : Claim) (s : S.Store), op.check = .ok c → P s →
      Ensures (troubled {S.client} fun _ => True) (fun _ s' => P s') (op.attempt S.service c) s)
    {s : S.Store} (h : S.Worked s) : P s := by
  induction h with
  | empty => exact hempty
  | @operated s s' r op _ hx ih =>
    cases hc : op.check with
    | error e =>
      rw [op.session_of_error _ hc, exec_fail_iff] at hx
      rw [hx.2]
      exact ih
    | ok c =>
      exact (Operation.ensures_session (Q := fun _ s' => P s') S.service hc).mpr
        (hstep op c s hc ih) r s' hx

/-! ### Items -/

namespace Items
variable {options : Options} {name : String} {op : Operation} {c : Claim} {s s' : Store}
    {w w' : Item}

/-- The item holds the record of a claim, and the sweeper's attribute has the value of its
expiry. -/
structure Stamped (name : String) (w : Item) : Prop where
  holds : ∃ c lease expiry, Holds w c lease expiry
  same : Assoc.find? w name = Assoc.find? w "expiry"

section Separate
variable (hsep : options.Separate) (hname : options.ttlName? = some name)
include hsep hname

theorem stamped_itemOf (c : Claim) (lease expiry : Int) :
    Stamped name (itemOf options (c.lock (some lease) (some expiry))) := by
  refine ⟨⟨c, lease, expiry, holds_itemOf hsep c lease expiry⟩, ?_⟩
  have hne : name ≠ "expiry" := by
    rintro rfl
    exact hsep _ hname (by decide)
  simp only [itemOf, hname, Claim.lock, Assoc.find?_put_self, Assoc.find?_put_ne hne]
  rfl

theorem Stamped.extended (h : Stamped name w) {delta : Int}
    (hx : Update.updated? (extension options delta) w = some w') :
    Stamped name w' := by
  obtain ⟨c, lease, expiry, hw⟩ := h.holds
  obtain ⟨v, hv, hvi⟩ := hw.lease
  obtain ⟨x, hx', hxi⟩ := hw.expiry
  obtain ⟨w'', hx'', hw''⟩ := holds_extension hsep hw delta
  obtain rfl : w'' = w' := Option.some.inj (hx''.symm.trans hx)
  refine ⟨⟨c, lease + delta, expiry + delta, hw''⟩, ?_⟩
  -- all three attributes are assigned at once, the last two from the same source
  rw [updated?_extension_of_some options delta (by rw [hv]; exact hvi.decimal?)
    (by rw [hx']; exact hxi.decimal?)] at hx
  obtain rfl := Option.some.inj hx
  rw [(find?_moved hsep).2]
  simp only [moved, hname, Assoc.find?_put_self]

theorem stamped_commits (h : op.check = .ok c) (hs : ∀ e ∈ s, Stamped name e.2)
    {back : Option Item} (hw : commits options op c s = some (back, s')) :
    ∀ e ∈ s', Stamped name e.2 := by
  intro e he
  cases hk : op.kind with
  | acquire =>
    simp only [commits, hk, Option.bind_eq_some_iff, Option.ite_none_right_eq_some,
      Option.some.injEq, Prod.mk.injEq] at hw
    obtain ⟨_, -, -, -, rfl⟩ := hw
    rcases Assoc.mem_put he with rfl | he
    · rw [← Operation.acquire_request h hk]
      exact stamped_itemOf hsep hname c _ _
    · exact hs e he
  | renew =>
    simp only [commits, hk, Option.ite_none_right_eq_some, Option.map_eq_some_iff,
      Prod.mk.injEq] at hw
    obtain ⟨-, -, w, hx, -, rfl⟩ := hw
    rcases Assoc.mem_put he with rfl | he
    · cases hf : Assoc.find? s c.key with
      | none =>
        rw [hf, Option.getD_none, extension_nil] at hx
        cases hx
      | some old =>
        rw [hf, Option.getD_some] at hx
        exact (hs _ (Assoc.mem_of_find? hf)).extended hsep hname hx
    · exact hs e he
  | release =>
    simp only [commits, hk, Option.ite_none_right_eq_some, Option.some.injEq, Prod.mk.injEq] at hw
    obtain ⟨-, -, rfl⟩ := hw
    exact hs e (Assoc.mem_of_mem_erase he)

theorem Worked.stamped (h : (system options).Worked s) : ∀ e ∈ s, Stamped name e.2 := by
  refine h.keeps (P := fun s : Store => ∀ e ∈ s, Stamped name e.2) nofun fun op c s hc hs => ?_
  exact (ensures_commits hc fun _ => hs).mpr fun _ _ hw => stamped_commits hsep hname hc hs hw

end Separate

end Items

/-! ### Documents -/

namespace Documents
variable {options : Options} {name : String} {op : Operation} {c : Claim} {s : Store}
    {data : Value.Fields}

/-- The sweeper's field holds the expiry as a point in time. -/
def Stamped (name : String) (data : Value.Fields) : Prop :=
  ∃ expiry, Assoc.find? data "expiry" = some (.int expiry) ∧
    Assoc.find? data name = some (.instant expiry)

section Separate
variable (hsep : options.Separate) (hname : options.ttlName? = some name)
include hsep hname

theorem stamped_dataOf {lease expiry : Int}
    (hd : dataOf options (c.lock (some lease) (some expiry)) = .ok data) :
    Stamped name data := by
  have hne : name ≠ "expiry" := by
    rintro rfl
    exact hsep _ hname (by decide)
  simp only [dataOf, hname, Claim.lock] at hd
  obtain ⟨t, ht, hd⟩ := ok_of_bind hd
  cases hd
  obtain ⟨-, rfl⟩ := Instant.ofEpoch_eq_ok_iff.mp ht
  refine ⟨expiry, ?_, Assoc.find?_put_self ..⟩
  rw [Assoc.find?_put_ne hne]
  rfl

theorem stamped_writes (h : op.check = .ok c) (hs : ∀ e ∈ s, Stamped name e.2)
    {existing : Option Lock} {ws : List Write} (hw : writes options op c existing = .ok ws) :
    ∀ e ∈ ws.foldl Write.apply s, Stamped name e.2 := by
  intro e he
  obtain ⟨effect, heffect⟩ : ∃ effect, op.effect existing = effect := ⟨_, rfl⟩
  rw [writes, heffect] at hw
  cases effect with
  | keep => cases hw; exact hs e he
  | delete => cases hw; exact hs e (Assoc.mem_of_mem_erase he)
  | put l =>
    obtain ⟨hp, hl⟩ := Operation.written_of_put heffect
    obtain ⟨lease, expiry, rfl⟩ :=
      @Operation.written_of_check op c Decision.extend existing l (fun _ _ _ => ⟨_, _, rfl⟩) h hp hl
    dsimp only at hw
    cases hd : dataOf options (c.lock (some lease) (some expiry)) with
    | error f => rw [hd] at hw; cases hw
    | ok data =>
      rw [hd] at hw
      cases hw
      rcases Assoc.mem_put he with rfl | he
      · exact stamped_dataOf hsep hname hd
      · exact hs e he

theorem Worked.stamped (h : (system options).Worked s) : ∀ e ∈ s, Stamped name e.2 := by
  refine h.keeps (P := fun s : Store => ∀ e ∈ s, Stamped name e.2) nofun fun op c s hc hs => ?_
  refine ensures_conclude hc ?_ (fun _ _ => hs) fun _ _ => ⟨hs, hs⟩
  intro v ws hx
  obtain ⟨existing, -, -, hw⟩ := conclude_eq_ok hx
  exact stamped_writes hsep hname hc hs hw

end Separate

end Documents

/-- Whatever operations have done, and whichever calls failed: the sweeper's attribute of every item
has the value of its expiry, an integer, and the sweeper's field of every document is the point in
time of its expiry. -/
theorem sweeper_follows_expiry (name : String) (hname : name ≠ "")
    (hsep : name ∉ "lockId" :: Lock.fieldNames) :
    (∀ s, (Items.system { ttl := some name }).Worked s → ∀ e ∈ s, ∃ v n, Items.IsInt v n ∧
      Assoc.find? e.2 "expiry" = some v ∧ Assoc.find? e.2 name = some v) ∧
    ∀ collection s, (Documents.system { collection, ttl := some name }).Worked s → ∀ e ∈ s, ∃ n,
      Assoc.find? e.2 "expiry" = some (.int n) ∧ Assoc.find? e.2 name = some (.instant n) := by
  have httl : (some name).filter (· ≠ "") = some name := by
    rw [Option.filter_some, if_pos (decide_eq_true hname)]
  have honly {other : String} (h : (some name).filter (· ≠ "") = some other) : other = name :=
    (Option.some.inj (httl.symm.trans h)).symm
  constructor
  · have hitems : Items.Options.Separate { ttl := some name } := fun other h => honly h ▸ hsep
    intro s hs e he
    have hstamped := Items.Worked.stamped hitems httl hs e he
    obtain ⟨c, lease, expiry, hw⟩ := hstamped.holds
    obtain ⟨v, hv, hvi⟩ := hw.expiry
    exact ⟨v, expiry, hvi, hv, hstamped.same.trans hv⟩
  · intro collection s hs
    have hdocuments : Documents.Options.Separate { collection, ttl := some name } :=
      fun other h hm =>
      hsep (honly h ▸ List.mem_cons_of_mem _ hm)
    exact Documents.Worked.stamped hdocuments httl hs

/-- A lock that was acquired until 15 and renewed by 20. -/
theorem sweeper_follows_expiry_renewed :
    let c : Claim := ⟨"jobs", "nightly", "ada", "one"⟩
    let acquired (S : System) :=
      (Operation.session ⟨.acquire, c.record (some 10) (some 15), 5⟩ S.service).run
        S.client S.empty []
    let renewed (S : System) :=
      ((Operation.session ⟨.renew, c.record (some 20) none, 12⟩ S.service).run S.client
        (acquired S).store []).store
    let items := Items.system { ttl := some "gone" }
    let documents := Documents.system { ttl := some "gone" }
    items.Worked (renewed items) ∧ documents.Worked (renewed documents) ∧
      (∀ e ∈ renewed items, ∃ v n, Items.IsInt v n ∧ Assoc.find? e.2 "expiry" = some v ∧
        Assoc.find? e.2 "gone" = some v) ∧
      (∀ e ∈ renewed documents, ∃ n, Assoc.find? e.2 "expiry" = some (.int n) ∧
        Assoc.find? e.2 "gone" = some (.instant n)) ∧
      (renewed items).length = 1 ∧ (renewed documents).length = 1 := by
  intro c acquired renewed items documents
  have worked (S : System) : S.Worked (renewed S) := by
    have hserved : S.client ∈ troubled {S.client} fun _ => True := .inl rfl
    exact .operated _ (.operated _ .empty (exec_run hserved ..)) (exec_run hserved ..)
  have hfollows := sweeper_follows_expiry "gone" (by decide) (by decide)
  exact ⟨worked items, worked documents, hfollows.1 _ (worked items),
    hfollows.2 _ _ (worked documents), by decide +kernel,
    by decide +kernel⟩

end Leasehold
