import Leasehold.Proofs.Backend
import Leasehold.Proofs.Execution.Documents
import Leasehold.Proofs.Execution.Items
import Leasehold.Proofs.Execution.KeyValue
import Leasehold.Proofs.Execution.Memory
import Leasehold.Proofs.Execution.Table
import Leasehold.Proofs.Tenure

/-!
# When a lock is held

Whether a lock is held is tested in each of the four operations and spelled differently in each
store. On a store that holds the record of a claim they all come to the same (`hold_agreed`): a
reading shows the holder, others are refused the lock and its release, and the holder can renew it,
exactly if the record can be read and is not gone.

The operations go by the record (`System.GoesBy`), or it cannot be read, and then they all fail
(`System.Failing`).
-/

namespace Leasehold
open Session Manager

theorem Answer.outcome_ofOutcome (l : Lock) (o : Outcome) : (ofOutcome l o).outcome = some o := by
  cases o <;> rfl

namespace System
variable (S : System)

/-- When nobody interferes and no call fails, the manager gives an answer of which `P` holds. -/
def Replies (s : S.Store) (ask : Ask) (t : Timing) (context : Context) (P : Answer → Prop) : Prop :=
  ∃ a, ((ask.session S.service t).run S.client s context).result = .ok a ∧ P a

/-- A reading finds the record of the claim, and operations on its lock are decided by it. -/
structure GoesBy (s : S.Store) (c : Claim) (lease expiry : Int) : Prop where
  record : S.record s (S.slot c.realm c.name) = some (c.lock (some lease) (some expiry))
  found : Ensures {S.client} (fun r _ => r = .ok (some (c.lock (some lease) (some expiry))))
    (S.service.find c.realm c.name) s
  judged : ∀ {op : Operation} {c' : Claim}, op.check = .ok c' → c'.realm = c.realm →
    c'.name = c.name →
    Ensures {S.client} (fun r _ => op.Judges (some (c.lock (some lease) (some expiry)))
      (∀ l, op.effect (some (c.lock (some lease) (some expiry))) = .put l → S.writable l) r)
        (op.attempt S.service c') s

/-- What lies there cannot be read: a reading finds nothing, and operations fail. -/
structure Failing (s : S.Store) (realm name : String) : Prop where
  record : S.record s (S.slot realm name) = none
  found : Ensures {S.client} (fun r _ => r = .ok none) (S.service.find realm name) s
  failed : ∀ {op : Operation} {c : Claim}, op.check = .ok c → c.realm = realm → c.name = name →
    Ensures {S.client} (fun r _ => r = .ok (op.kind.failed, none)) (op.attempt S.service c) s

variable {S} {s : S.Store} {t : Timing} {now ms : Int} {realm name : Identifier} {caller : Caller}
  {lease expiry : Int} {context : Context}

theorem record_of_read {k : S.Slot} {w : S.Raw} {l : Lock} (hw : S.raw s k = some w)
    (hr : S.read w = .ok l) :
    S.record s k = some l := by
  rw [record, hw, Option.bind_some, hr]
  rfl

theorem record_of_unread {k : S.Slot} {w : S.Raw} {f : Fault} (hw : S.raw s k = some w)
    (hr : S.read w = .error f) :
    S.record s k = none := by
  rw [record, hw, Option.bind_some, hr]
  rfl

/-! ### What requests come to -/

theorem replies_get {stored : Option Lock} (ht : t.now = .ok now) (he : t.elapsed = .ok ms)
    (h : Ensures {S.client} (fun r _ => r = .ok stored) (S.service.find realm name) s)
    (P : Answer → Prop) :
    S.Replies s (.get realm name) t context P ↔
    P (Answer.ofStored (some realm.1) (some name.1) stored now) := by
  obtain ⟨r₀, hfind, -, hr⟩ :=
    Manager.exec_get S.service realm name (exec_run (Set.mem_singleton S.client) _ s context)
  rw [Replies, hr stored ms now (h r₀ _ hfind) he ht]
  simp only [Except.ok.injEq, exists_eq_left']

variable (context) in
theorem replies_operate {kind : Operation.Kind} {term : Term} {Q : Except Error Verdict → Prop}
    (ht : t.now = .ok now) (he : t.elapsed = .ok ms) (h : Ensures {S.client} (fun r _ => Q r)
      ((operation kind (caller.claim realm name) term now).attempt S.service
        (caller.claim realm name)) s) :
    ∃ v, Q v ∧ ∀ P, S.Replies s (.operate kind realm name caller term) t context P ↔
      ∃ w, v = .ok w ∧ P ((operation kind (caller.claim realm name) term now).answer w) := by
  have hsession :=
    (Operation.ensures_session S.service (check_claim kind realm name caller term now)
    (Q := fun r _ => ∃ v, Q v ∧
      r = v.map (operation kind (caller.claim realm name) term now).answer)).mpr
      (h.mono fun v _ hv => ⟨v, hv, rfl⟩)
  obtain ⟨r₀, hop, -, hr⟩ := Manager.exec_operate S.service realm name caller term ht
    (exec_run (Set.mem_singleton S.client) _ s context)
  obtain ⟨v, hv, rfl⟩ := hsession r₀ _ hop
  refine ⟨v, hv, fun P => ?_⟩
  rw [Replies, hr ms he]
  cases v with
  | ok w => simp only [Except.map, Except.ok.injEq, exists_eq_left']
  | error e => exact iff_of_false (by rintro ⟨_, ⟨⟩, -⟩) (by rintro ⟨_, ⟨⟩, -⟩)

/-! ### The tests of the record -/

namespace GoesBy

theorem shows_iff (h : S.GoesBy s (caller.claim realm name) lease expiry) (ht : t.now = .ok now)
    (he : t.elapsed = .ok ms) :
    S.Replies s (.get realm name) t context
      (fun a => a.lock.owner = some caller.name ∧ a.lock.expiry = some expiry) ↔
      ¬ expiry < now := by
  rw [replies_get ht he h.found, Answer.ofStored]
  by_cases hx : expiry < now <;>
    simp [hx, Claim.lock, Lock.isExpired, Lock.redacted, Caller.claim]

theorem conflicts_iff (h : S.GoesBy s (caller.claim realm name) lease expiry) (ht : t.now = .ok now)
    (he : t.elapsed = .ok ms) {kind : Operation.Kind} (hk : kind ≠ .renew) {other : Caller}
    (ho : other.holder ≠ caller.holder) {term : Term} :
    S.Replies s (.operate kind realm name other term) t context
      (fun a => a.outcome = some kind.conflict) ↔
      ¬ expiry < now := by
  have hcheck := check_claim kind realm name other term now
  obtain ⟨v, hv, hr⟩ := replies_operate context ht he (h.judged hcheck rfl rfl)
  have howns : (operation kind (other.claim realm name) term now).owns
      (some ((caller.claim realm name).lock (some lease) (some expiry))) = false := by
    rw [@Operation.owns_lock _ _ (caller.claim realm name) hcheck rfl rfl, Bool.and_eq_false_iff,
      decide_eq_false_iff_not, decide_eq_false_iff_not]
    by_contra hn
    simp only [not_or, not_not] at hn
    exact ho (Prod.ext hn.1 hn.2)
  have hpermits : (operation kind (other.claim realm name) term now).permits
      (some ((caller.claim realm name).lock (some lease) (some expiry))) =
        decide (expiry < now) := by
    cases kind <;>
      first | exact absurd rfl hk | (rw [Operation.permits, howns]; exact Bool.or_false _)
  rw [hr, ← decide_eq_false_iff_not, ← hpermits, ← hv.conflict hk]
  simp only [Operation.answer, Answer.outcome_ofOutcome, Option.some.injEq]
  rfl

theorem renews_iff (h : S.GoesBy s (caller.claim realm name) lease expiry) (ht : t.now = .ok now)
    (he : t.elapsed = .ok ms) {term : Term}
    (hw : S.writable (Decision.extend
      ((caller.claim realm name).lock (some lease) (some expiry)) term now)) :
    S.Replies s (.operate .renew realm name caller term) t context
      (fun a => a.success = some true) ↔
      ¬ expiry < now := by
  have hcheck := check_claim .renew realm name caller term now
  obtain ⟨v, hv, hr⟩ := replies_operate context ht he (h.judged hcheck rfl rfl)
  have hpermits : (operation .renew (caller.claim realm name) term now).permits
      (some ((caller.claim realm name).lock (some lease) (some expiry))) =
        !decide (expiry < now) := by
    rw [Operation.permits, Operation.owns_lock hcheck rfl rfl]
    simp only [operation, Claim.isGone_lock, decide_true, Bool.and_self, Bool.and_true]
  rw [hr, ← decide_eq_false_iff_not, ← Bool.not_eq_true', ← hpermits, ← hv.success]
  · simp only [Operation.answer, Answer.success_ofOutcome, Option.some.injEq]
  · intro l hl
    obtain rfl := Option.some.inj (Operation.written_of_put hl).2
    exact hw

end GoesBy

namespace Failing

theorem not_shows (h : S.Failing s realm name) (ht : t.now = .ok now) (he : t.elapsed = .ok ms)
    {owner : String} :
    ¬ S.Replies s (.get realm name) t context
      (fun a => a.lock.owner = some owner ∧ a.lock.expiry = some expiry) := by
  rw [replies_get ht he h.found]
  rintro ⟨⟨⟩, -⟩

theorem not_replies (h : S.Failing s realm name) (ht : t.now = .ok now) (he : t.elapsed = .ok ms)
    {kind : Operation.Kind} {term : Term} {P : Answer → Prop}
    (hP : ∀ l, ¬ P (Answer.ofOutcome l kind.failed)) :
    ¬ S.Replies s (.operate kind realm name caller term) t context P := by
  obtain ⟨v, rfl, hr⟩ := replies_operate context ht he
    (h.failed (check_claim kind realm name caller term now) rfl rfl)
  rw [hr]
  rintro ⟨_, ⟨rfl⟩, hp⟩
  exact hP _ hp

end Failing

end System

/-! ### The stores -/

section Stores
variable {c : Claim} {lease expiry : Int}

theorem Memory.goesBy {s : Store}
    (hf : Assoc.find? s c.key = some (c.lock (some lease) (some expiry))) :
    system.GoesBy s c lease expiry where
  record := (record_eq s c.key).trans hf
  found := (ensures_found c.realm c.name).mono fun _ _ hr => hr.trans (congrArg Except.ok hf)
  judged := by
    intro op c' hc hr hn
    have hkey : c'.key = c.key := by rw [Claim.key, Claim.key, hr, hn]
    refine (ensures_ruled hc).mono fun r _ hj => ?_
    rw [hkey, hf] at hj
    exact hj.judges

theorem Table.goesBy {options : Options} (hclock : options.useServerTime = false)
    {s : Store} {row : Row} (hf : Assoc.find? s.rows (c.realm, c.name) = some row)
    (hw : Holds row c lease expiry) :
    (system options).GoesBy s c lease expiry where
  record := System.record_of_read (S := system options) hf hw.shown.ofRow
  found := ensures_found hw hf
  judged := by
    intro op c' hc hr hn
    refine (ensures_suits hclock hc (by rw [hr, hn, hf]; exact .row rfl rfl hw)).mono ?_
    rintro _ _ ⟨v, rfl, hv⟩
    exact hv.judges

theorem Items.goesBy {options : Options} (hsep : options.Separate) {s : Store} {w : Item}
    (hf : Assoc.find? s c.key = some w) (hw : Holds w c lease expiry) :
    (system options).GoesBy s c lease expiry where
  record := System.record_of_read (S := system options) hf hw.ofFields
  found := ensures_found hw hf
  judged := by
    intro op c' hc hr hn
    have hkey : c'.key = c.key := by rw [Claim.key, Claim.key, hr, hn]
    refine (ensures_suits hsep hc
      (by rw [hr, hn, hkey, hf]; exact .item rfl rfl hw.holdsNumbers)).mono ?_
    rintro _ _ ⟨v, rfl, hv⟩
    exact hv.judges

theorem Documents.goesBy {options : Options} {s : Store} {data : Value.Fields}
    (hf : Assoc.find? s (pathOf options c.realm c.name) = some data)
    (hl : Lock.ofFields data = .ok (c.lock (some lease) (some expiry))) :
    (system options).GoesBy s c lease expiry where
  record := System.record_of_read (S := system options) hf hl
  found := ensures_found hl hf
  judged := fun hc hr hn => (ensures_ruled hc hl (by rw [hr, hn]; exact hf)).mono
    fun _ _ hj => hj.judges

theorem KeyValue.goesBy {options : Options} {s : Store} {e : Entry}
    (hf : s.entries.find? (keyOf options c.realm c.name) = some e) (hm : e.modified ≠ 0)
    (hl : ofRecordText e.value = .ok (c.lock (some lease) (some expiry))) :
    (system options).GoesBy s c lease expiry where
  record := System.record_of_read (S := system options) hf hl
  found := (ensures_found hf).mono fun _ _ hr => by rw [hr, hl]; rfl
  judged := by
    intro op c' hc hr hn
    refine (ensures_ruled hc (by rw [hr, hn]; exact hf) hm).mono fun r _ hj => ?_
    rw [hl] at hj
    exact hj.judges

theorem KeyValue.failing {options : Options} {s : Store} {e : Entry}
    (hf : s.entries.find? (keyOf options c.realm c.name) = some e) (hm : e.modified ≠ 0) {f : Fault}
    (hl : ofRecordText e.value = .error f) : (system options).Failing s c.realm c.name where
  record := System.record_of_unread (S := system options) hf hl
  found := (ensures_found hf).mono fun _ _ hr => by rw [hr, hl]; rfl
  failed := by
    intro op c' hc hr hn
    refine (ensures_ruled hc (by rw [hr, hn]; exact hf) hm).mono fun r _ hj => ?_
    rw [hl] at hj
    exact hj

end Stores

namespace Backend

/-- The store holds the record of a claim in full. -/
def Holds : (b : Backend) → b.system.Store → Claim → (lease expiry : Int) → Prop
  | memory, s, c, lease, expiry => Assoc.find? s c.key = some (c.lock (some lease) (some expiry))
  | keyValue options, s, c, lease, expiry =>
    ∃ e, s.entries.find? (KeyValue.keyOf options c.realm c.name) = some e ∧
      e.modified ≠ 0 ∧ KeyValue.Holds e.value (c.lock (some lease) (some expiry))
  | table _, s, c, lease, expiry => ∃ row,
      Assoc.find? s.rows (c.realm, c.name) = some row ∧ Table.Holds row c lease expiry
  | items _, s, c, lease, expiry => ∃ w, Assoc.find? s c.key = some w ∧ Items.Holds w c lease expiry
  | documents options, s, c, lease, expiry => ∃ data,
      Assoc.find? s (Documents.pathOf options c.realm c.name) = some data ∧
      Lock.ofFields data = .ok (c.lock (some lease) (some expiry))

/-- Every store goes by the record that it holds, unless a number in its text has too many
digits. -/
theorem Holds.goesBy {b : Backend} (hb : b.Regular) {s : b.system.Store} {c : Claim}
    {lease expiry : Int} (h : b.Holds s c lease expiry) :
    b.system.GoesBy s c lease expiry ∨ b.system.Failing s c.realm c.name := by
  cases b with
  | memory => exact .inl (Memory.goesBy h)
  | keyValue options =>
    obtain ⟨e, hf, hm, htext⟩ := h
    rcases htext.reads (c.isRecord_lock _ _) with hl | ⟨f, hl⟩
    · exact .inl (KeyValue.goesBy hf hm hl)
    · exact .inr (KeyValue.failing hf hm hl)
  | table options =>
    obtain ⟨row, hf, hw⟩ := h
    exact .inl (Table.goesBy hb hf hw)
  | items options =>
    obtain ⟨w, hf, hw⟩ := h
    exact .inl (Items.goesBy hb hf hw)
  | documents options =>
    obtain ⟨data, hf, hl⟩ := h
    exact .inl (Documents.goesBy hf hl)

end Backend

/-- The four operations agree on whether a lock is held. -/
theorem hold_agreed (b : Backend) (hb : b.Regular) {s : b.system.Store} {realm name : Identifier}
    {caller : Caller} {lease expiry : Int} (hs : b.Holds s (caller.claim realm name) lease expiry)
    {t : Timing} {now ms : Int} (ht : t.now = .ok now) (he : t.elapsed = .ok ms)
    (context : Context) :
    let held := Lock.isGone (b.system.record s (b.system.slot realm name)) now = false
    (b.system.Replies s (.get realm name) t context
      (fun a => a.lock.owner = some caller.name ∧ a.lock.expiry = some expiry) ↔ held) ∧
    (∀ (kind : Operation.Kind) (other : Caller) (term : Term), kind ≠ .renew →
      other.holder ≠ caller.holder →
      (b.system.Replies s (.operate kind realm name other term) t context
        (fun a => a.outcome = some kind.conflict) ↔ held)) ∧
    ∀ term : Term,
      b.system.writable (Decision.extend
        ((caller.claim realm name).lock (some lease) (some expiry)) term now) →
      (b.system.Replies s (.operate .renew realm name caller term) t context
        (fun a => a.success = some true) ↔ held) := by
  -- a record with a number of too many digits is found nowhere, and then everything fails alike
  rcases hs.goesBy hb with h | h
  · have hheld : Lock.isGone (b.system.record s (b.system.slot realm name)) now = false ↔
      ¬ expiry < now := by
      rw [show b.system.record s (b.system.slot realm name) = _ from h.record, Claim.isGone_lock,
        decide_eq_false_iff_not]
    dsimp only
    rw [hheld]
    exact ⟨h.shows_iff ht he, fun kind other term hk ho => h.conflicts_iff ht he hk ho,
      fun term hw => h.renews_iff ht he hw⟩
  · have hgone : ¬ Lock.isGone (b.system.record s (b.system.slot realm name)) now = false := by
      rw [show b.system.record s (b.system.slot realm name) = _ from h.record]
      exact nofun
    refine ⟨iff_of_false (h.not_shows ht he) hgone, fun kind other term hk ho =>
      iff_of_false ?_ hgone,
      fun term hw => iff_of_false ?_ hgone⟩
    · refine h.not_replies ht he fun l => ?_
      rw [Answer.outcome_ofOutcome]
      cases kind <;> nofun
    · refine h.not_replies ht he fun l => ?_
      rw [Answer.success_ofOutcome]
      exact nofun

/-- In the last second of a lease a session of the same owner is refused, and the holder renews. -/
theorem hold_agreed_last_second :
    let S := (Backend.items ⟨some "ttl"⟩).system
    let jobs : Identifier := ⟨"jobs", by decide⟩
    let nightly : Identifier := ⟨"nightly", by decide⟩
    let ada : Caller := ⟨some "ada", ⟨"one", by decide⟩⟩
    let again : Caller := ⟨some "ada", ⟨"two", by decide⟩⟩
    let ten : Term := ⟨10, by decide⟩
    ∃ s : S.Store, (Backend.items ⟨some "ttl"⟩).Holds s (ada.claim jobs nightly) 10 15 ∧
      S.Replies s (.get jobs nightly) (still 15) []
        (fun a => a.lock.owner = some ada.name ∧ a.lock.expiry = some 15) ∧
      S.Replies s (.operate .acquire jobs nightly again ten) (still 15) []
        (fun a => a.outcome = some .acquireConflict) ∧
      S.Replies s (.operate .release jobs nightly again ten) (still 15) []
        (fun a => a.outcome = some .releaseConflict) ∧
      S.Replies s (.operate .renew jobs nightly ada ten) (still 15) []
        (fun a => a.success = some true) := by
  intro S jobs nightly ada again ten
  have hsep : Items.Options.Separate ⟨some "ttl"⟩ := by
    rintro name ⟨rfl⟩
    decide
  let c := ada.claim jobs nightly
  let w := Items.itemOf ⟨some "ttl"⟩ (c.lock (some 10) (some 15))
  have hs : (Backend.items ⟨some "ttl"⟩).Holds [(c.key, w)] c 10 15 :=
    ⟨w, if_pos rfl, Items.holds_itemOf hsep c 10 15⟩
  obtain ⟨hshows, hconflicts, hrenews⟩ :=
    hold_agreed (.items ⟨some "ttl"⟩) hsep hs (t := still 15) rfl rfl []
  have hheld : Lock.isGone
    ((Backend.items ⟨some "ttl"⟩).system.record [(c.key, w)] (Lock.keyOf jobs nightly)) 15 =
      false := by
    decide
  have hother : again.holder ≠ ada.holder := by decide
  exact ⟨[(c.key, w)], hs, hshows.mpr hheld, (hconflicts .acquire again ten nofun hother).mpr hheld,
    (hconflicts .release again ten nofun hother).mpr hheld, (hrenews ten trivial).mpr hheld⟩

/-! ### Integers of too many digits -/

/-- The manager itself can bring about a record that cannot be renewed. -/
theorem exists_not_renewed {realm name : Identifier} {caller : Caller} {lease more : Term}
    {now : Int} (hnow : 0 ≤ now) (hshort : Number.isTooLong (now + lease) = false)
    (hlong : Number.isTooLong (now + lease + more) = true) :
    ∃ (s : KeyValue.Store) (e : KeyValue.Entry),
      s.entries.find? (KeyValue.keyOf {} realm name) = some e ∧ e.modified ≠ 0 ∧
      KeyValue.ofRecordText e.value =
        .ok ((caller.claim realm name).lock (some lease.1) (some (now + lease))) ∧
      ¬ (KeyValue.system {}).Replies s (.operate .renew realm name caller more) (still now) []
        (fun a => a.success = some true) := by
  let taken :=
    (Ask.session (KeyValue.service {}) (still now) (.operate .acquire realm name caller lease)).run
      KeyValue.client {} []
  have hempty : System.ManagerOnly (KeyValue.laws {}) {} := .empty _
  have hx := exec_run ((KeyValue.laws {}).client_mem False)
    (Ask.session (KeyValue.service {}) (still now) (.operate .acquire realm name caller lease)) {}
      []
  have hgrant : Exec (KeyValue.system {}).clients
      (Ask.session (KeyValue.service {}) (still now) (.operate .acquire realm name caller lease))
        {} _ taken.store :=
    exec_run (.inl rfl) _ _ []
  obtain ⟨a, ha, hs, hl⟩ := hempty.grants rfl rfl hnow rfl hshort hx
  rw [ha] at hgrant
  have he : a.lock.expiry = some (now + lease) := by rw [hl]; rfl
  obtain ⟨-, -, hrec⟩ := hempty.granted rfl (by decide) hgrant hs he
  rw [hl] at hrec
  have htidy : System.ManagerOnly (KeyValue.laws {}) taken.store := hempty.exec rfl hnow hx
  obtain ⟨e, hf, hread⟩ := Option.bind_eq_some_iff.mp hrec
  replace hread : (KeyValue.ofRecordText e.value).toOption = some _ := hread
  refine ⟨taken.store, e, hf, Nat.ne_of_gt (htidy.good _ (Assoc.mem_of_find? hf)).modified, ?_, ?_⟩
  · cases htext : KeyValue.ofRecordText e.value with
    | error f => rw [htext] at hread; cases hread
    | ok l => rw [htext] at hread; cases hread; rfl
  · rintro ⟨b, hb, hsuccess⟩
    have hlease : 0 ≤ lease.1 := le_trans (by decide) lease.2.1
    obtain ⟨hp, hw, -⟩ := htidy.renewable hnow (by omega) hrec more
    have hrefused :=
      htidy.unwritten rfl hp hw
        (KeyValue.not_writable_of_expiry (Claim.isRecord_lock _ _ _) rfl hlong)
      (exec_run ((KeyValue.laws {}).client_mem False)
        (Ask.session (KeyValue.service {}) (still now) (.operate .renew realm name caller more))
          taken.store []) hb
    rw [hrefused] at hsuccess
    cases hsuccess

/-- A lock that is held until the last tick is shown, and cannot be renewed. -/
theorem not_hold_agreed_overlong :
    ¬ ∀ (b : Backend) (s : b.system.Store) (realm name : Identifier) (caller : Caller)
    (lease expiry : Int) (term : Term) (t : Timing) (now ms : Int) (context : Context), b.Regular →
    b.Holds s (caller.claim realm name) lease expiry → t.now = .ok now → t.elapsed = .ok ms →
    (∀ options, b = .documents options →
      b.system.writable (Decision.extend
        ((caller.claim realm name).lock (some lease) (some expiry)) term now)) →
    (b.system.Replies s (.get realm name) t context
        (fun a => a.lock.owner = some caller.name ∧ a.lock.expiry = some expiry) ↔
      b.system.Replies s (.operate .renew realm name caller term) t context
        (fun a => a.success = some true)) := by
  intro h
  let realm : Identifier := ⟨"jobs", by decide⟩
  let name : Identifier := ⟨"nightly", by decide⟩
  let caller : Caller := ⟨some "ada", ⟨"one", by decide⟩⟩
  let second : Term := ⟨1, by decide⟩
  have hend : KeyValue.lastTick - 1 + second = KeyValue.lastTick := Int.sub_add_cancel _ _
  obtain ⟨s, e, hf, hm, hl, hn⟩ :=
    @exists_not_renewed realm name caller second second (KeyValue.lastTick - 1)
    (Int.sub_nonneg_of_le KeyValue.lastTick_pos) (by rw [hend]; exact KeyValue.isTooLong_lastTick)
    (by rw [hend]; exact KeyValue.isTooLong_lastTick_succ)
  have hgoes : (KeyValue.system {}).GoesBy s (caller.claim realm name) _ _ :=
    KeyValue.goesBy hf hm hl
  have hshows : (KeyValue.system {}).Replies s (.get realm name)
    (still (KeyValue.lastTick - 1)) [] _ :=
    (hgoes.shows_iff rfl rfl).mpr (by omega)
  have hrenews :=
    h (.keyValue {}) s realm name caller _ _ second (still (KeyValue.lastTick - 1)) _ 0 [] trivial
    ⟨e, hf, hm, .inl hl⟩ rfl rfl nofun
  exact hn (hrenews.mp hshows)

end Leasehold
