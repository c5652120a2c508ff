import Leasehold.Proofs.Execution.Stages

/-!
# How often an operation on a key-value store tries

Whatever others do to the store between the calls of an operation, it reads at most as often as it
may try, and commits once for every reading that it acts upon. It gives up when every one of its
transactions has been lost, and only then; each lease it was granted is the lease of one
transaction, and those of the lost transactions are revoked (`retries_accounted`).

`Tally` counts along the stages, `Balanced` keeps the leases, and both are preserved by each move.
-/

namespace Leasehold.KeyValue
open Session

section Allows
variable {options : Options} {op : Operation} {steps : List (Step interface)}

/-- No call has failed. -/
def Replied (steps : List (Step interface)) : Prop := ∀ step ∈ steps, ∀ f, step.2 ≠ .error f

theorem Replied.init {step : Step interface} (h : Replied (steps ++ [step])) : Replied steps :=
  fun step hm => h step (List.mem_append_left _ hm)

theorem Replied.last {step : Step interface} (h : Replied (steps ++ [step])) (f : Fault) :
    step.2 ≠ .error f :=
  h step (List.mem_append_right _ (List.mem_singleton_self _)) f

theorem retriesExhausted_exhausted (kind : Operation.Kind) :
    kind.exhausted.retriesExhausted = true := by
  cases kind <;> rfl

theorem retriesExhausted_failed (kind : Operation.Kind) : kind.failed.retriesExhausted = false := by
  cases kind <;> rfl

/-- The readings and transactions of an operation that stands at a stage. -/
def Tally (options : Options) (a : Account) (p : Stage op) : Prop :=
  match p.place with
  | .read => p.lost ≤ options.retries ∧ a.reads = p.lost ∧ a.transactions.length = p.lost
  | .grant .. | .put .. | .delete .. =>
    p.lost ≤ options.retries ∧ a.reads = p.lost + 1 ∧ a.transactions.length = p.lost
  | .revoke _ => p.lost ≤ options.retries + 1 ∧ a.reads = p.lost ∧ a.transactions.length = p.lost
  | .through v _ =>
    v = (op.kind.exhausted, none) ∧ p.lost = options.retries + 1 ∧ a.reads = p.lost ∧
      a.transactions.length = p.lost ∨
    v.1.retriesExhausted = false ∧ p.lost ≤ options.retries ∧ a.reads = p.lost + 1 ∧
    a.transactions.length ≤ p.lost + 1

theorem tally_again {a : Account} {lost : Nat} (h : lost ≤ options.retries + 1)
    (hr : a.reads = lost) (ht : a.transactions.length = lost) :
    Tally options a (again options op lost) := by
  refine again_cases (fun hlost => ?_) fun hlost => ?_
  · exact .inl ⟨rfl, Nat.le_antisymm h hlost, hr, ht⟩
  · exact ⟨hlost, hr, ht⟩

theorem tally_decided {a : Account} {existing : Option Lock} {revision lost : Nat}
    (h : lost ≤ options.retries) (hr : a.reads = lost + 1) (ht : a.transactions.length = lost) :
    Tally options a ⟨lost, decided op existing revision⟩ := by
  refine decided_cases ?_ (fun l hl => ?_) fun hd => ?_
  · exact .inr ⟨retriesExhausted_decide op existing, h, hr, Nat.le_succ_of_le (Nat.le_of_eq ht)⟩
  · exact ⟨h, hr, ht⟩
  · exact ⟨h, hr, ht⟩

theorem tally (h : (protocol options op).Allows steps) (hok : Replied steps) :
    Tally options (account steps) ((protocol options op).after steps) := by
  refine allows_induction (motive := fun steps p => Replied steps → Tally options (account steps) p)
    (fun _ => ⟨Nat.zero_le _, rfl, rfl⟩) ?_ h hok
  rintro steps step ⟨lost, place⟩ p' ih hmove hok
  have hc := ih hok.init
  rw [account_concat]
  generalize account steps = a at hc ⊢
  have hfailed := retriesExhausted_failed op.kind
  have hdecide (existing : Option Lock) := retriesExhausted_decide op existing
  cases hmove with
  | absent | found => exact tally_decided hc.1 (congrArg (· + 1) hc.2.1) hc.2.2
  | unreadable =>
    exact .inr ⟨hfailed, hc.1, congrArg (· + 1) hc.2.1, Nat.le_succ_of_le (Nat.le_of_eq hc.2.2)⟩
  | granted => exact hc
  | unwritable => exact .inr ⟨hfailed, hc.1, hc.2.1, Nat.le_succ_of_le (Nat.le_of_eq hc.2.2)⟩
  | written | deleted =>
    exact .inr ⟨hdecide _, hc.1, hc.2.1, Nat.le_of_eq (length_concat_of_eq hc.2.2)⟩
  | beaten => exact ⟨Nat.succ_le_succ hc.1, hc.2.1, length_concat_of_eq hc.2.2⟩
  | forestalled => exact tally_again (Nat.succ_le_succ hc.1) hc.2.1 (length_concat_of_eq hc.2.2)
  | revoked => exact tally_again hc.1 hc.2.1 hc.2.2
  | failed f hc => exact absurd rfl (hok.last f)

/-! ### Leases -/

/-- The record that a reading shows. -/
def shown (found : Option (String × Nat)) :
    Option Lock := found.bind fun e => (ofRecordText e.1).toOption

/-- What the rules want put after the readings can be put. -/
def Fitting (options : Options) (op : Operation) (steps : List (Step interface)) : Prop :=
  ∀ found, ⟨.get (options.key op), .ok found⟩ ∈ steps →
    ∀ l, op.effect (shown found) = .put l → Writable l

theorem kind_of_put {existing : Option Lock} {l : Lock} (h : op.effect existing = .put l) :
    op.kind ≠ .release := by
  intro hk
  simp only [Operation.effect, hk] at h
  split at h <;> cases h

theorem kind_of_delete {existing : Option Lock} (h : op.effect existing = .delete) :
    op.kind = .release := by
  cases hk : op.kind with
  | release => rfl
  | acquire => simp only [Operation.effect, hk] at h; split at h <;> cases h
  | renew =>
    simp only [Operation.effect, hk] at h
    cases hl : (op.decide existing).2 <;> rw [hl] at h <;> cases h

/-- The lease that is granted for a transaction to come. -/
def Place.pending : Place op → List Nat
  | .put _ _ _ lease _ => [lease]
  | _ => []

/-- The lease of a lost transaction that is yet to be revoked. -/
def Place.owed : Place op → List Nat
  | .revoke lease => [lease]
  | _ => []

/-- Every lease is that of one transaction, in their order, and those of the lost ones are
revoked. -/
structure Balanced (a : Account) (p : Stage op) : Prop where
  granted : a.granted.map some = a.transactions ++ p.place.pending.map some
  revoked : a.losses = (a.revoked ++ p.place.owed).map some
  writable : match p.place with
    | .grant _ _ l _ => Writable l
    | .through _ left => left = none
    | _ => True

theorem balanced_decided {a : Account} {existing : Option Lock} {revision lost : Nat}
    (hk : op.kind ≠ .release) (hg : a.granted.map some = a.transactions ++ [])
    (hr : a.losses = (a.revoked ++ []).map some)
    (hw : ∀ l, op.effect existing = .put l → Writable l) :
    Balanced a ⟨lost, decided op existing revision⟩ := by
  refine decided_cases ?_ (fun l hl => ?_) fun hd => ?_
  · exact ⟨hg, hr, rfl⟩
  · exact ⟨hg, hr, hw l hl⟩
  · exact absurd (kind_of_delete hd) hk

theorem balanced_again {a : Account} {lost : Nat} (hg : a.granted.map some = a.transactions ++ [])
    (hr : a.losses = (a.revoked ++ []).map some) : Balanced a (again options op lost) := by
  refine again_cases (fun hlost => ?_) fun hlost => ?_
  · exact ⟨hg, hr, rfl⟩
  · exact ⟨hg, hr, trivial⟩

theorem balanced (hk : op.kind ≠ .release) (h : (protocol options op).Allows steps)
    (hok : Replied steps) (hfits : Fitting options op steps) :
    Balanced (account steps) ((protocol options op).after steps) := by
  refine allows_induction (motive := fun steps p => Replied steps → Fitting options op steps →
    Balanced (account steps) p)
    (fun _ _ => ⟨rfl, rfl, trivial⟩) ?_ h hok hfits
  rintro steps step ⟨lost, place⟩ p' ih hmove hok hfits
  obtain ⟨hg, hr, hw⟩ := ih hok.init fun found hm => hfits found (List.mem_append_left _ hm)
  have hlast (found : Option (String × Nat)) (hs : step = ⟨.get (options.key op), .ok found⟩) :=
    hfits found (List.mem_append_right _ (List.mem_singleton.mpr hs.symm))
  rw [account_concat]
  generalize account steps = a at hg hr ⊢
  cases hmove with
  | absent => exact balanced_decided hk hg hr (hlast _ rfl)
  | found ht =>
    have hshown := hlast _ rfl
    simp only [shown, Option.bind_some, ht, Except.toOption] at hshown
    exact balanced_decided hk hg hr hshown
  | unreadable => exact ⟨hg, hr, rfl⟩
  | granted lease =>
    refine ⟨?_, hr, trivial⟩
    show (a.granted ++ [lease]).map some = a.transactions ++ [lease].map some
    rw [List.map_append, hg]
    exact congrArg (· ++ _) (List.append_nil _)
  | unwritable lease ht =>
    obtain ⟨text, ht'⟩ := hw
    rw [ht] at ht'
    cases ht'
  | written => exact ⟨hg.trans (List.append_nil _).symm, hr, rfl⟩
  | beaten =>
    refine ⟨hg.trans (List.append_nil _).symm, ?_, trivial⟩
    rename_i existing revision text lease hput
    show a.losses ++ [some lease] = (a.revoked ++ [lease]).map some
    rw [hr, List.map_append]
    simp [Place.owed]
  | deleted => rename_i h; exact absurd (kind_of_delete h) hk
  | forestalled => rename_i h; exact absurd (kind_of_delete h) hk
  | revoked => exact balanced_again hg (hr.trans (by rw [List.append_nil]; rfl))
  | failed f hc => exact absurd rfl (hok.last f)

/-- The rules want nothing put for a release. -/
theorem unleased (hk : op.kind = .release) (h : (protocol options op).Allows steps) :
    (account steps).granted = [] := by
  refine allows_induction
    (motive := fun steps (_ : Stage op) => (account steps).granted = []) rfl ?_ h
  rintro steps step ⟨lost, place⟩ p' hg hmove
  rw [account_concat]
  cases hmove with
  | @granted _ _ _ h | @unwritable _ _ _ h => exact absurd hk (kind_of_put h)
  | absent | found | unreadable | written | beaten | deleted | forestalled | revoked => exact hg
  | failed f hc => cases place <;> cases hc <;> exact hg

end Allows

/-! ### Operations amid others -/

section Interfered
variable {options : Options} {op : Operation} {ms : List (Exchange interface Store)}

theorem replied_of_answeredBy (h : AnsweredBy {client} ms) : Replied (ms.map Exchange.step) := by
  intro step hm f
  obtain ⟨⟨call, before, reply, after⟩, hmem, rfl⟩ := List.mem_map.mp hm
  obtain ⟨_, rfl, he⟩ := h _ hmem
  rw [he]
  exact client_error

theorem fitting_of_answeredBy (h : AnsweredBy {client} ms)
    (hfits : ∀ m ∈ ms, m.call = .get (options.key op) → Fits options op m.before) :
    Fitting options op (ms.map Exchange.step) := by
  intro found hm
  obtain ⟨⟨call, before, reply, after⟩, hm, he⟩ := List.mem_map.mp hm
  obtain ⟨_, rfl, hm'⟩ := h _ hm
  cases he
  -- what was read is the record that was there
  have hreply : found = (before.entries.find? (options.key op)).map fun e =>
    (e.value, e.modified) := by
    injection hm' with _ _ hreply _
    exact Except.ok.inj hreply
  have hshown : shown found = recordAt before (options.key op) := by
    rw [hreply, recordAt, shown]
    cases before.entries.find? (options.key op) <;> rfl
  rw [hshown]
  exact hfits _ hm rfl

end Interfered

/-- How an operation ended, and what its calls came to. -/
structure Accounted (options : Options) (op : Operation) (r : Except Error Answer)
    (ms : List (Exchange interface Store)) (a : Account) : Prop where
  answered : ∀ c, op.check = .ok c → ∃ b, r = .ok b
  reads : a.reads ≤ options.retries + 1
  transactions : a.transactions.length ≤ options.retries + 1
  /-- It has lost all the transactions that it may make. -/
  exhausted : r = .ok (op.answer (op.kind.exhausted, none)) ↔
    a.transactions.length = options.retries + 1 ∧ a.losses.length = options.retries + 1
  settled : ∀ b, r = .ok b → b ≠ op.answer (op.kind.exhausted, none) →
    a.losses.length ≤ options.retries ∧ a.reads = a.losses.length + 1
  /-- One lease for each transaction, and those of the lost ones are revoked, when all that the
  rules want put after the readings can be put. -/
  leases : op.kind ≠ .release →
    (∀ m ∈ ms, m.call = .get (options.key op) → Fits options op m.before) →
    a.granted.map some = a.transactions ∧ a.revoked.map some = a.losses
  unleased : op.kind = .release → a.granted = []

theorem accounted_refused {options : Options} {op : Operation} {e : Error}
    (h : op.check = .error e) :
    Accounted options op (.error e) [] {} where
  answered := fun c hc => by rw [h] at hc; cases hc
  reads := Nat.zero_le _
  transactions := Nat.zero_le _
  exhausted := ⟨nofun, fun hc => absurd hc.1 (Nat.succ_ne_zero _).symm⟩
  settled := fun _ hr => nomatch hr
  leases := fun _ _ => ⟨rfl, rfl⟩
  unleased := fun _ => rfl

theorem accounted_through {options : Options} {op : Operation}
    {ms : List (Exchange interface Store)} {a : Account} {p : Stage op} {v : Verdict}
    {left : Option Nat} (hp : p.place = .through v left) (hl : a.losses.length = p.lost)
    (h : Tally options a p) (hb : op.kind ≠ .release →
      (∀ m ∈ ms, m.call = .get (options.key op) → Fits options op m.before) → Balanced a p)
    (hu : op.kind = .release → a.granted = []) : Accounted options op (.ok (op.answer v)) ms a := by
  obtain ⟨lost, place⟩ := p
  obtain rfl : place = .through v left := hp
  obtain rfl : a.losses.length = lost := hl
  have hexhausted : op.answer v = op.answer (op.kind.exhausted, none) →
    v.1.retriesExhausted = true := by
    intro he
    rw [← retriesExhausted_answer op v, he, retriesExhausted_answer]
    exact retriesExhausted_exhausted _
  refine {
    answered := fun c hc => ⟨_, rfl⟩
    reads := ?_
    transactions := ?_
    exhausted := ?_
    settled := fun b hr hne => ?_
    leases := fun hk hfits => ?_
    unleased := hu }
  · rcases h with ⟨-, hl, hr, -⟩ | ⟨-, hl, hr, -⟩
    · exact Nat.le_of_eq (hr.trans hl)
    · rw [hr]; exact Nat.succ_le_succ hl
  · rcases h with ⟨-, hl, -, ht⟩ | ⟨-, hl, -, ht⟩
    · exact Nat.le_of_eq (ht.trans hl)
    · exact Nat.le_trans ht (Nat.succ_le_succ hl)
  · rcases h with ⟨rfl, hl, -, ht⟩ | ⟨hv, hl, -, -⟩
    · exact ⟨fun _ => ⟨ht.trans hl, hl⟩, fun _ => rfl⟩
    · refine ⟨fun hr => ?_, fun hc => ?_⟩
      · rw [hexhausted (Except.ok.inj hr)] at hv; cases hv
      · rw [show a.losses.length = options.retries + 1 from hc.2] at hl
        exact absurd hl (Nat.not_succ_le_self _)
  · cases hr
    rcases h with ⟨rfl, -, -, -⟩ | ⟨-, hl, hr, -⟩
    · exact absurd rfl hne
    · exact ⟨hl, hr⟩
  · obtain ⟨hg, hr, -⟩ := hb hk hfits
    exact ⟨hg.trans (List.append_nil _),
      (hr.trans (congrArg (List.map some) (List.append_nil _))).symm⟩

theorem retries_accounted (options : Options) (op : Operation) (s : Store) :
    Ensures (interfered {client} fun _ _ => True)
      (fun r p => Accounted options op r p.2 (account (p.2.map Exchange.step)))
        (op.session (service options)) (s, []) := by
  cases h : op.check with
  | error e => rw [op.session_of_error _ h]; exact ensures_fail.mpr (accounted_refused h)
  | ok c =>
    intro r p hx
    have hanswered := ensures_answeredBy r p hx
    obtain ⟨hallows, hended⟩ := (follows_session options op).interfered .nil r p hx
    rw [Ended, h] at hended
    obtain ⟨v, left, rfl, hthrough⟩ := hended
    have hok := replied_of_answeredBy hanswered
    exact accounted_through hthrough (length_losses hallows) (tally hallows hok)
      (fun hk hfits => balanced hk hallows hok (fitting_of_answeredBy hanswered hfits)) fun hk =>
        unleased hk hallows

/-- Somebody else puts something under the key before the only commit. -/
example :
    let taken (s : Store) : Store := s.apply (.put "locks/jobs:nightly" "" none)
    let cl : Client interface (Store × List (Exchange interface Store)) := fun c p =>
      disturbed client (if p.2.length = 2 then taken else id) c p
    let r := ((rivals false).session (service { retries := 0 })).run cl ({}, []) []
    r.result.toOption = some ((rivals false).answer (.acquireMaxRetries, none)) ∧
      account (r.store.2.map Exchange.step) =
        { reads := 1, transactions := [some 1], losses := [some 1], granted := [1],
          revoked := [1] } := by
  decide +kernel

end Leasehold.KeyValue
