import Leasehold.Proofs.ReadBack
import Leasehold.Proofs.Residue

/-!
# Operations that are interrupted

When calls fail, an operation on a store that only the services have used either does what it does
without trouble, or nothing at all, and then it does not succeed unless it is a release
(`Backend.ensures_whole`). So what the laws of a system say of a run holds of a run in trouble too.

By the server's clock an operation on an SQL table does what it does by the caller's clock when that
shows the server's time (`Table.ensures_server`).
-/

namespace Leasehold
open Session

/-- The run is one without trouble, or it has left nothing. -/
inductive System.Whole (S : System) (good : S.Store → Prop) (op : Operation) (c : Claim)
    (s : S.Store) (r : Except Error Verdict) (s' : S.Store) : Prop
  | ran (hx : Exec S.clients (op.attempt S.service c) s r s')
  | stopped (hg : good s') (hs : ∀ k, S.raw s' k = S.raw s k)
    (hr : op.kind ≠ .release → Unsuccessful r)

variable {op : Operation} {c : Claim} {P : Fault → Prop}

theorem System.Whole.of_plain (S : System) {good : S.Store → Prop} {s : S.Store}
    (h : S.losses = ∅) :
    Ensures (troubled {S.client} fun _ => False) (S.Whole good op c s)
      (op.attempt S.service c) s := by
  rw [troubled_false, ← S.clients_eq h]
  exact ensures_exec.mono fun _ _ => .ran

theorem Memory.ensures_whole {s : Store} (h : op.check = .ok c) :
    Ensures (troubled {client} P) (system.Whole (fun _ => True) op c s) (op.attempt service c) s :=
  (ensures_attempt h).mpr ⟨((ensures_attempt h).mp (.of_plain system rfl)).1,
    fun _ _ => .stopped trivial (fun _ => rfl) fun _ => by rintro _ ⟨⟩⟩

theorem Items.ensures_whole {options : Options} {s : Store} (hg : Good s) (h : op.check = .ok c) :
    Ensures (troubled {client} P) ((system options).Whole Good op c s)
      (op.attempt (service options) c) s := by
  have stopped {r : Except Error Verdict} (hr : op.kind ≠ .release → Unsuccessful r) :
      (system options).Whole Good op c s r s := .stopped hg (fun _ => rfl) hr
  by_cases hk : op.kind = .release
  · have hs (r : Except Error Verdict) : (system options).Whole Good op c s r s :=
      stopped fun hn => absurd hk hn
    exact (ensures_commits h hs).mpr ((ensures_commits h hs).mp (.of_plain (system options) rfl))
  · refine (ensures_write h hk).mpr
      ⟨((ensures_write h hk).mp (.of_plain (system options) rfl)).1, ?_⟩
    refine fun f _ => stopped fun _ => ?_
    have hu := (unsuccessful_concluded op (.error f)).mpr ⟨f, rfl⟩
    rwa [concluded, if_neg hk] at hu

theorem Table.ensures_whole {options : Options} {s : Store} (hg : Good s) :
    Ensures (troubled {client} P) ((system options).Whole Good op c s)
      (op.attempt (service options) c) s := by
  have stopped {r : Except Error Verdict} (hr : op.kind ≠ .release → Unsuccessful r) :
      (system options).Whole Good op c s r s := .stopped hg (fun _ => rfl) hr
  by_cases hk : op.kind = .release
  · have hs (r : Except Error Verdict) : (system options).Whole Good op c s r s :=
      stopped fun hn => absurd hk hn
    exact (ensures_statement_row restricts_execute hs).mpr
      ((ensures_statement_row restricts_execute hs).mp (.of_plain (system options) rfl))
  · refine (ensures_statement hk).mpr
      ⟨((ensures_statement hk).mp (.of_plain (system options) rfl)).1, ?_⟩
    exact fun f _ => stopped fun _ => (unsuccessful_concluded _).mpr (by rintro _ ⟨⟩)

theorem Documents.ensures_whole {options : Options} {s : Store} (hg : Good s)
    (h : op.check = .ok c) :
    Ensures (troubled {client} P) ((system options).Whole Good op c s)
      (op.attempt (service options) c) s := by
  have stopped {r : Except Error Verdict} (hr : Unsuccessful r) :
    (system options).Whole Good op c s r s :=
    .stopped hg (fun _ => rfl) fun _ => hr
  refine ensures_conclude h ?_ (fun f _ => stopped (unsuccessful_concluded op f))
    fun f _ => ⟨stopped (unsuccessful_concluded op f), stopped ?_⟩
  · intro v ws hx
    refine .ran ?_
    rw [System.clients_eq rfl]
    -- without trouble the conclusion is the only end
    refine Ensures.exec ((ensures_conclude (P := fun _ => False) h ?_ ?_ nofun).of_subset
      (subset_troubled _ _))
    · intro v' ws' hx'
      rw [hx] at hx'
      cases hx'
      exact ⟨rfl, rfl⟩
    · intro f hf
      rw [hx] at hf
      cases hf
  · rintro _ ⟨rfl⟩
    cases op.kind <;> rfl

namespace KeyValue
variable {options : Options} {s s' : Store}

theorem Good.fresh (h : Good s) : Fresh s := fun e he n hn => (h e he).lease n hn

/-- Revisions and leases are counted upwards. -/
structure Later (s s' : Store) : Prop where
  revision : s.revision ≤ s'.revision
  granted : s.granted ≤ s'.granted

theorem later_apply (changes : List Change) (s : Store) :
    Later s (changes.foldl Store.apply s) := by
  induction changes generalizing s with
  | nil => exact ⟨Nat.le_refl _, Nat.le_refl _⟩
  | cons change changes ih =>
    have hone : Later s (s.apply change) := by cases change <;> exact ⟨Nat.le_succ _, Nat.le_refl _⟩
    exact ⟨Nat.le_trans hone.revision (ih _).revision, Nat.le_trans hone.granted (ih _).granted⟩

theorem later_client (call : Call) (s : Store) : Later s (client call s).2 := by
  cases call with
  | get | revoke => exact ⟨Nat.le_refl _, Nat.le_refl _⟩
  | grant ttl => exact ⟨Nat.le_refl _, Nat.le_succ _⟩
  | commit compares success failure => exact later_apply _ s

theorem Later.of_exec {α : Type} {session : Session interface α} {r : Except Error α}
    (hx : Exec (unreliable P) session s r s') : Later s s' := by
  refine hx.keeps (fun s => ⟨Nat.le_refl _, Nat.le_refl _⟩)
    (fun h h' => ⟨Nat.le_trans h.revision h'.revision, Nat.le_trans h.granted h'.granted⟩) ?_
  rintro cl ((rfl | rfl) | ⟨f, -, rfl⟩) call s
  · exact later_client call s
  · cases call with
    | commit => exact ⟨Nat.le_refl _, Nat.le_refl _⟩
    | get | grant | revoke => exact later_client _ s
  · exact ⟨Nat.le_refl _, Nat.le_refl _⟩

theorem Good.of_entries (h : Good s) (hl : Later s s') (he : s'.entries = s.entries) : Good s' := by
  intro e hm
  rw [he] at hm
  exact (h e hm).mono hl.revision hl.granted

theorem ensures_whole (hg : Good s) (h : op.check = .ok c) :
    Ensures (unreliable P) ((system options).Whole Good op c s)
      (op.attempt (service options) c) s := by
  intro r s' hx
  obtain ⟨steps, hrecorded⟩ := hx.recorded []
  obtain ⟨v, rfl, hkept, hbroke⟩ := ensures_attempt h hg.fresh r (s', steps) hrecorded
  by_cases hfault : ∃ step ∈ steps, ∃ f, step.2 = .error f
  · -- a call that failed makes the operation fail
    obtain ⟨step, hm, hf⟩ := hfault
    obtain rfl := hbroke fun hu => hu step hm (.inl hf)
    have hfailed : op.kind.failed.isSuccess = false := by cases op.kind <;> rfl
    have he := hkept hfailed
    refine .stopped (hg.of_entries (.of_exec hx) he)
      (fun k => congrArg (Assoc.find? · k) he) fun _ => ?_
    rintro _ ⟨rfl⟩
    exact hfailed
  · refine .ran (hrecorded.of_recorded fun step hm f hf => hfault ⟨step, hm, f, hf⟩)

theorem ensures_find_kept (realm name : String) :
    Ensures (unreliable P) (fun _ s' => s' = s) (find options realm name) s := by
  have hget : Ensures (unreliable P) (fun _ s' => s' = s) (get (keyOf options realm name)) s := by
    refine (ensures_ask (I := interface) (c := .get (keyOf options realm name))).mpr
      (forall_troubled.mpr ⟨?_, ?_⟩)
    · rintro _ (rfl | rfl) <;> rfl
    · exact fun _ _ => rfl
  rw [find, Service.ensures_guarded, bind_eq, ensures_bind, read, bind_eq, ensures_bind]
  refine hget.mono fun r t ht => ?_
  subst ht
  cases r with
  | error e => rfl
  | ok found =>
    cases found with
    | none => exact ensures_done.mpr (ensures_done.mpr rfl)
    | some found =>
      dsimp only
      rw [bind_eq, ensures_bind, ensures_ofReading]
      cases ofRecordText found.1 with
      | error f => rfl
      | ok l => exact ensures_done.mpr (ensures_done.mpr rfl)

end KeyValue

/-! ### The clock of the server -/

namespace Table
variable {options : Options} {s : Store} {Q : Except Error Verdict → Store → Prop}

def served (op : Operation) (s : Store) : Operation := { op with now := s.serverNow }

theorem ensures_server (hserver : options.useServerTime = true) :
    Ensures (troubled {client} P) Q (op.attempt (service options) c) s ↔
      Ensures (troubled {client} P) Q
        ((served op s).attempt (service { options with useServerTime := false }) c) s := by
  have hclock : options.clock op.now = .server := by simp only [Options.clock, hserver, if_true]
  have hx : s.execute (statement options op c) =
      s.execute (statement { options with useServerTime := false } (served op s) c) := by
    cases hk : op.kind <;> simp only [statement, served, hk, hclock] <;> rfl
  by_cases hk : op.kind = .release
  · have hk' : (served op s).kind = .release := hk
    rw [ensures_release hk, ensures_release hk', ← hx]
    cases hrow : s.execute (statement options op c) with
    | error f => rfl
    | ok p =>
      obtain ⟨row, s'⟩ := p
      cases row with
      | some row => rfl
      | none =>
        obtain rfl := execute_none hrow
        have hx' : s'.execute (.selectExpired c.realm c.name (options.clock op.now)) =
            s'.execute (.selectExpired c.realm c.name (.caller s'.serverNow)) := by rw [hclock]; rfl
        simp only [Classifies, hx']
        rfl
  · have hk' : (served op s).kind ≠ .release := hk
    rw [ensures_statement hk, ensures_statement hk', ← hx]
    rfl

theorem ensures_session_server {Q : Except Error Answer → Store → Prop}
    (hserver : options.useServerTime = true) :
    Ensures (troubled {client} P) Q (op.session (service options)) s ↔
      Ensures (troubled {client} P) Q
        ((served op s).session (service { options with useServerTime := false })) s := by
  have hcheck : (served op s).check = op.check := rfl
  cases h : op.check with
  | error e =>
    rw [Operation.ensures_session_of_error _ h, Operation.ensures_session_of_error _
      (hcheck.trans h)]
  | ok c =>
    rw [Operation.ensures_session _ h, Operation.ensures_session _ (hcheck.trans h),
      ensures_server hserver]
    rfl

end Table

/-! ### What becomes of the record -/

/-- What becomes of the record of a lock, trouble or not. What is written does not depend on the
clock. -/
inductive Left (kind : Operation.Kind) (asked : Lock) (before after : Option Lock)
    (r : Except Error Answer) : Prop
  | taken {a : Answer} (hk : kind = .acquire) (hr : r = .ok a) (hs : a.success = some true)
    (ha : after = some asked)
  | prolonged {c : Claim} {lease expiry delta : Int} (hk : kind = .renew)
    (hd : delta = Decision.orZero asked.lease)
    (hb : before = some (c.lock (some lease) (some expiry)))
    (ha : after = some (c.lock (some (lease + delta)) (some (expiry + delta))))
  | dropped (hk : kind = .release) (ha : after = none)
  | kept (hr : kind = .acquire → ∀ a, r = .ok a → a.success = some false) (ha : after = before)

namespace System
variable {S : System}

def Prolongs (S : System) (op : Operation) : Prop :=
  ∀ {c : Claim} {lease expiry : Int}, op.now ≤ expiry →
  S.extend (c.lock (some lease) (some expiry)) op.delta op.now =
    c.lock (some (lease + op.delta)) (some (expiry + op.delta))

theorem Did.left {before after : Option Lock} {r : Except Error Answer} {realm name : String}
    (h : S.Did op before after r) (hext : S.Prolongs op) (hf : Filed realm name before) :
    Left op.kind op.lock before after r := by
  cases h with
  | refused hr ha => exact .kept (fun _ => hr) ha
  | freed _ hk _ _ _ ha =>
    rcases ha with ha | ⟨ha, -⟩
    · exact .dropped hk ha
    · exact .kept (fun hn => by rw [hk] at hn; cases hn) ha
  | granted _ hk hp hw hr hs _ ha =>
    rw [← hw] at ha
    cases hkind : op.kind with
    | release => exact absurd hkind hk
    | acquire =>
      rw [Operation.written, hkind] at ha
      exact .taken rfl hr hs ha
    | renew =>
      rw [Operation.permits, hkind, Bool.and_eq_true, Bool.not_eq_true'] at hp
      cases hb : before with
      | none => rw [hb] at hp; cases hp.2
      | some l =>
        obtain ⟨c, lease, expiry, rfl, -, -⟩ := hf l hb
        have hlive : op.now ≤ expiry := by
          have hg := hp.1
          rw [hb, Claim.isGone_lock, decide_eq_false_iff_not] at hg
          omega
        rw [hb, Operation.written, hkind, Operation.renewed, hkind, Option.map_some,
          hext hlive] at ha
        exact .prolonged rfl rfl rfl ha

end System

namespace Backend
variable {b : Backend} {s : b.system.Store} {realm name : String}

/-- A store that only the services have written. -/
def Good : (b : Backend) → b.system.Store → Prop
  | memory, _ => True
  | keyValue _, s => KeyValue.Good s
  | table _, s => Table.Good s
  | items _, s => Items.Good s
  | documents _, s => Documents.Good s

theorem good_laws (hb : b.Regular) : (b.laws hb).good = b.Good := by cases b <;> rfl

theorem ensures_whole (hg : b.Good s) (h : op.check = .ok c) :
    Ensures (troubled b.system.clients fun _ => True) (b.system.Whole b.Good op c s)
      (op.attempt b.system.service c) s := by
  cases b with
  | memory => rw [System.clients_eq rfl]; exact Memory.ensures_whole h
  | keyValue options => exact KeyValue.ensures_whole hg h
  | table options => rw [System.clients_eq rfl]; exact Table.ensures_whole hg
  | items options => rw [System.clients_eq rfl]; exact Items.ensures_whole hg h
  | documents options => rw [System.clients_eq rfl]; exact Documents.ensures_whole hg h

theorem ensures_find_kept (realm name : String) :
    Ensures (troubled b.system.clients fun _ => True) (fun _ s' => s' = s)
      (b.system.service.find realm name) s := by
  cases b with
  | memory =>
    rw [System.clients_eq rfl]
    exact (ensures_ask_troubled (I := Memory.interface) (c := .read (Lock.keyOf realm name))).mpr
      ⟨rfl, fun _ _ => rfl⟩
  | keyValue options => exact KeyValue.ensures_find_kept realm name
  | table options =>
    rw [System.clients_eq rfl]; exact (Table.ensures_find Table.restricts_execute).mpr
      ⟨rfl, fun _ _ => rfl⟩
  | items options =>
    rw [System.clients_eq rfl]; exact (Items.ensures_find Items.plain_client).mpr
      ⟨rfl, fun _ _ => rfl⟩
  | documents options =>
    rw [System.clients_eq rfl]; exact Documents.ensures_find.mpr ⟨rfl, fun _ _ => rfl⟩

/-- What an operation leaves: a good store, the records of other locks, and of its own lock what it
may. -/
def Leaves (b : Backend) (op : Operation) (realm name : String) (s : b.system.Store)
    (r : Except Error Answer) (s' : b.system.Store) : Prop :=
  b.Good s' ∧ (∀ k, k ≠ b.system.slot realm name → b.system.record s' k = b.system.record s k) ∧
    Left op.kind op.lock (b.system.record s (b.system.slot realm name))
      (b.system.record s' (b.system.slot realm name)) r

theorem Leaves.unchanged {s' : b.system.Store} {r : Except Error Answer} (hg : b.Good s')
    (hs : ∀ k, b.system.raw s' k = b.system.raw s k)
    (hr : op.kind = .acquire → ∀ a, r = .ok a → a.success = some false) :
    b.Leaves op realm name s r s' := by
  have hrecord (k : b.system.Slot) : b.system.record s' k = b.system.record s k := by
    simp only [System.record, hs k]
  exact ⟨hg, fun k _ => hrecord k, .kept hr (hrecord _)⟩

theorem ensures_leaves_regular (hb : b.Regular) (hg : b.Good s) (hext : b.system.Prolongs op)
    (hr : op.record.realm = some realm) (hn : op.record.name = some name)
    (hf : System.Filed realm name (b.system.record s (b.system.slot realm name))) :
    Ensures (troubled b.system.clients fun _ => True) (b.Leaves op realm name s)
      (op.session b.system.service) s := by
  have hgood := good_laws hb
  have ran {r : Except Error Answer} {s' : b.system.Store}
      (hx : Exec b.system.clients (op.session b.system.service) s r s') :
      b.Leaves op realm name s r s' := by
    rw [← hgood] at hg
    obtain ⟨hg', t, ht, ha⟩ :=
      (b.laws hb).exec_session (p := True) hg (hx.mono (b.laws hb).clients_subset)
    rw [hgood] at hg'
    rw [← ht] at hf
    have hleft := (ha.did (b.laws hb) hr hn hf).left hext hf
    rw [ht] at hleft
    exact ⟨hg', fun k hk => (ha.others hr hn hk).trans (congrFun ht k), hleft⟩
  cases h : op.check with
  | error e =>
    rw [Operation.ensures_session_of_error _ h]
    exact .unchanged hg (fun _ => rfl) (by rintro _ _ ⟨⟩)
  | ok c =>
    rw [Operation.ensures_session _ h]
    refine (ensures_whole hg h).mono fun r s' hw => ?_
    cases hw with
    | ran hx => exact ran ((Operation.ensures_session _ h).mp ensures_exec r s' hx)
    | stopped hg' hs hu =>
      refine .unchanged hg' hs fun hk a ha => ?_
      cases r with
      | error e => cases ha
      | ok v =>
        cases ha
        rw [Operation.answer, Answer.success_ofOutcome, hu (by rw [hk]; decide) v rfl]

theorem ensures_leaves (hb : b.Separate) (hg : b.Good s) (hnow : 0 ≤ op.now)
    (hr : op.record.realm = some realm) (hn : op.record.name = some name)
    (hf : System.Filed realm name (b.system.record s (b.system.slot realm name))) :
    Ensures (troubled b.system.clients fun _ => True) (b.Leaves op realm name s)
      (op.session b.system.service) s := by
  by_cases hreg : b.Regular
  · exact ensures_leaves_regular hreg hg ((b.laws hreg).extend_live hnow) hr hn hf
  · cases b with
    | memory | keyValue => exact absurd trivial hreg
    | items | documents => exact absurd hb hreg
    | table options =>
      rw [System.clients_eq rfl]
      refine (Table.ensures_session_server (Bool.not_eq_false _ ▸ hreg)).mpr ?_
      -- what is left does not depend on the clock
      have hprolongs : (Table.system options).Prolongs (Table.served op s) := fun _ => rfl
      have hrealm : (Table.served op s).record.realm = some realm := hr
      have hleaves :=
        ensures_leaves_regular (b := .table { options with useServerTime := false })
          rfl hg hprolongs
        hrealm hn hf
      rw [System.clients_eq rfl] at hleaves
      exact hleaves

end Backend

end Leasehold
