import Leasehold.Service.Documents
import Leasehold.Proofs.Record
import Leasehold.Proofs.System

/-!
# The laws of locks as documents

An operation reads, decides and writes in one transaction, so nothing changes between its calls and
its commit is never aborted. The rules of `Decision` decide. An operation fails when the expiry that
it should write is no point in time (`Options.writable`).
-/

namespace Leasehold.Documents
open Session

/-- The record has a document. -/
def Options.writable (options : Options) (l : Lock) : Prop := ∃ data, dataOf options l = .ok data

/-- The sweeper's field, if any, can hold the expiry. -/
def Options.fits (options : Options) (expiry : Int) : Prop :=
  options.ttlName? = none ∨ Instant.first ≤ expiry ∧ expiry ≤ Instant.last

/-- The sweeper's field is none of the record's. -/
def Options.Separate (options : Options) : Prop :=
  ∀ name, options.ttlName? = some name → name ∉ Lock.fieldNames

abbrev system (options : Options) : System where
  I := interface
  Store := Store
  client := client
  losses := ∅
  service := service options
  empty := []
  whole := true
  Slot := String
  slot := pathOf options
  Raw := Value.Fields
  raw := Assoc.find?
  read := Lock.ofFields
  passes := fun _ _ => True
  writable := options.writable
  fits := options.fits
  extend := Decision.extend

/-- Every document is a record. -/
def Good (s : Store) : Prop := ∀ path data, Assoc.find? s path = some data →
    ∃ l, Lock.ofFields data = .ok l

/-- Every document that is set is a record. -/
def Sane (writes : List Write) : Prop :=
  ∀ path data, Write.set path data ∈ writes → ∃ l, Lock.ofFields data = .ok l

/-- What is committed are records. -/
def May : Call → Prop
  | .commit writes => Sane writes
  | _ => True

/-- A transaction sees no contention. -/
def terms : Terms interface Store Unit := .plain client May Good False

theorem Good.apply {s : Store} (h : Good s) {w : Write} (hw : Sane [w]) :
    Good (Write.apply s w) := by
  intro path data hd
  cases w with
  | set path' data' =>
    simp only [Write.apply, Assoc.find?_put] at hd
    split at hd
    · cases hd; exact hw path' data List.mem_cons_self
    · exact h path data hd
  | delete path' =>
    by_cases hp : path = path'
    · subst hp; simp only [Write.apply, Assoc.find?_erase_self] at hd; cases hd
    · simp only [Write.apply, Assoc.find?_erase_ne hp] at hd; exact h path data hd

theorem Good.commit {writes : List Write} {s : Store} (h : Good s) (hw : Sane writes) :
    Good (writes.foldl Write.apply s) := by
  induction writes generalizing s with
  | nil => exact h
  | cons w ws ih =>
    have hhead : Sane [w] := fun path data hm => hw path data (by
      rw [List.mem_singleton.mp hm]; exact List.mem_cons_self)
    exact ih (h.apply hhead) fun path data hm => hw path data (List.mem_cons_of_mem _ hm)

theorem Good.client {s : Store} (h : Good s) {c : Call} (hmay : May c) : Good (client c s).2 := by
  cases c with
  | commit writes => exact h.commit hmay
  | _ => exact h

section Calls
variable {α : Type} {Q : Except Error α → Unit → Store → Store → Prop} {g : Unit} {s₀ s₁ : Store}

theorem obeys_call {c : Call} {next : Except Fault (Reply c) → Session interface α} (hs : s₁ = s₀)
    (h : Good s₁ → May c ∧ (next (client c s₁).1).Obeys terms Q g s₁ (client c s₁).2) :
    (call (I := interface) c next).Obeys terms Q g s₀ s₁ := by
  refine obeys_call_plain hs fun s hg hc => ?_
  obtain rfl := hc id
  exact h hg

theorem obeys_giveUp {e : Error} (hs : s₁ = s₀) (h : Q (.error e) g s₁ s₁) :
    (giveUp e : Session interface α).Obeys terms Q g s₀ s₁ :=
  obeys_call hs fun _ => ⟨trivial, h⟩

/-- A transaction commits what its body wants written; a body that fails is given up. -/
theorem obeys_transaction {body : Session interface (α × List Write)} {s : Store}
    (h : Good s → body.Obeys terms (fun r g s₀ s₁ => s₁ = s ∧ s₀ = s ∧ match r with
      | .ok (a, writes) => Sane writes ∧ Q (.ok a) g s (writes.foldl Write.apply s)
      | .error e => Q (.error e) g s s) () s s) :
    (transaction body).Obeys terms Q () s s := by
  rw [transaction, maxAttempts, attempt]
  simp only [obeys_bind, obeys_rescue]
  refine obeys_call rfl fun hg => ⟨trivial, (h hg).mono ?_⟩
  rintro r g _ _ ⟨rfl, rfl, hr⟩
  cases r with
  | ok p => exact obeys_call rfl fun _ => hr
  | error e => exact obeys_giveUp rfl hr

theorem obeys_operate {event : String} {claim : Claim} {failed : α}
    {body : Session interface (α × List Write)} {s : Store}
    (h : Good s → body.Obeys terms (fun r g s₀ s₁ => s₁ = s ∧ s₀ = s ∧ match r with
      | .ok (a, writes) => Sane writes ∧ Q (.ok a) g s (writes.foldl Write.apply s)
      | .error e => Q (.ok failed) g s s ∧ Q (.error e) g s s) () s s) :
    (operate event claim failed body).Obeys terms Q () s s := by
  rw [operate, Service.guarded, obeys_rescue]
  refine obeys_transaction fun hg => (h hg).mono ?_
  rintro r g _ _ ⟨rfl, rfl, hr⟩
  refine ⟨rfl, rfl, ?_⟩
  cases r with
  | ok p => exact hr
  | error e =>
    dsimp only
    split
    · exact hr.1
    · exact hr.2

theorem obeys_read (options : Options)
    {Q : Except Error (Option Lock) → Unit → Store → Store → Prop} {path : String} {again : Bool}
    (hs : s₁ = s₀) (h : Good s₁ → Q (.ok ((system options).record s₁ path)) g s₁ s₁) :
    (read path again).Obeys terms Q g s₀ s₁ := by
  simp only [read, bind_eq, obeys_bind]
  refine obeys_call hs fun hg => ⟨trivial, ?_⟩
  have h := h hg
  cases hd : Assoc.find? s₁ path with
  | none =>
    simp only [System.record, hd] at h
    simp only [client, hd]
    exact h
  | some data =>
    obtain ⟨l, hl⟩ := hg path data hd
    simp only [System.record, hd, Option.bind_some, hl, Except.toOption] at h
    simp only [client, hd]
    show ((ofReading (Lock.ofFields data)).bind fun l => done (some l)).Obeys terms Q g s₁ s₁
    rw [hl]
    exact h

end Calls

variable {options : Options} {contention : Prop} {op : Operation} {c : Claim} {s : Store}

theorem ofFields_dataOf (hsep : options.Separate) {l : Lock} (hl : l.IsRecord) {data : Value.Fields}
    (h : dataOf options l = .ok data) : Lock.ofFields data = .ok l := by
  obtain ⟨r, rfl⟩ := hl
  unfold dataOf at h
  split at h
  · rename_i name expiry hname _
    cases ht : Instant.ofEpoch expiry with
    | error f => rw [ht] at h; cases h
    | ok v =>
      rw [ht] at h; cases h
      exact Lock.ofFields_put_toFields (hsep name hname) r v
  · cases h; exact Lock.ofFields_toFields r

theorem settles {v : Verdict} {s' : Store}
    (hs : ∀ k, k ≠ pathOf options c.realm c.name → Assoc.find? s' k = Assoc.find? s k)
    (h : op.Conforms Decision.extend ((system options).record s (pathOf options c.realm c.name)) v
      ((system options).record s' (pathOf options c.realm c.name)))
    (hw : ∀ l, op.effect ((system options).record s (pathOf options c.realm c.name)) = .put l →
      options.writable l) :
    (system options).Settles contention op c (.ok v) s s' where
  others := fun k hk => by simp only [System.record, hs k hk]
  ends := fun _ => .ruled h fun l hp hl => hw l (Operation.put_of_written hp hl)

variable (contention) in
/-- An operation that keeps, deletes or, when the record has a document, puts one, as the rules want
it. -/
theorem settles_effect (hsep : options.Separate) (h : op.check = .ok c) {e : Operation.Effect}
    {writes : List Write}
    (he : op.effect ((system options).record s (pathOf options c.realm c.name)) = e)
    (hw : match e with
      | .keep => writes = []
      | .put l =>
        ∃ data, dataOf options l = .ok data ∧ writes = [.set (pathOf options c.realm c.name) data]
      | .delete => writes = [.delete (pathOf options c.realm c.name)]) :
    Sane writes ∧ (system options).Settles contention op c
      (.ok (op.decide ((system options).record s (pathOf options c.realm c.name)))) s
        (writes.foldl Write.apply s) := by
  have hc := Operation.conforms_of_effect he
  cases e with
  | keep =>
    subst hw; exact ⟨by rintro _ _ ⟨⟩, settles (fun _ _ => rfl) hc (by rw [he]; rintro _ ⟨⟩)⟩
  | put l =>
    obtain ⟨data, hd, rfl⟩ := hw
    have hl := ofFields_dataOf hsep (Operation.isRecord_of_put h he) hd
    refine ⟨fun _ _ hm => ?_, settles (fun _ hk => Assoc.find?_put_ne (Ne.symm hk) s data) ?_ ?_⟩
    · cases List.mem_singleton.mp hm; exact ⟨l, hl⟩
    · have ha : (system options).record (Assoc.put s (pathOf options c.realm c.name) data)
          (pathOf options c.realm c.name) = some l := by
        simp only [System.record, Assoc.find?_put_self, Option.bind_some, hl, Except.toOption]
      exact ha ▸ hc
    · rw [he]
      rintro _ ⟨rfl⟩
      exact ⟨data, hd⟩
  | delete =>
    subst hw
    refine ⟨fun _ _ hm => by (cases List.mem_singleton.mp hm),
      settles (fun _ hk => Assoc.find?_erase_ne hk s) ?_
      (by rw [he]; rintro _ ⟨⟩)⟩
    have ha : (system options).record (Assoc.erase s (pathOf options c.realm c.name))
        (pathOf options c.realm c.name) = none := by
      simp only [System.record, Assoc.find?_erase_self, Option.bind_none]
    exact ha ▸ hc

theorem settles_unwritable {r : Except Error Verdict} {l : Lock} {f : Fault}
    (hd : dataOf options l = .error f)
    (he : op.effect ((system options).record s (pathOf options c.realm c.name)) = .put l)
    (hr : ∀ v, r = .ok v → v.1.isSuccess = false) :
    (system options).Settles contention op c r s s where
  others := fun _ _ => rfl
  ends := fun _ => .unwritable (Operation.written_of_put he).1 (Operation.written_of_put he).2
    (by rintro ⟨data, hd'⟩; rw [hd] at hd'; cases hd') hr rfl

theorem obeys_attempt (hsep : options.Separate) (h : op.check = .ok c) (s : Store) :
    (op.attempt (service options) c).Obeys terms
      (fun r _ => (system options).Settles contention op c r) () s s := by
  cases hk : op.kind with
  | acquire =>
    simp only [Operation.attempt, hk, service, acquire, bind_eq, obeys_bind]
    refine obeys_operate fun _ => ?_
    rw [obeys_bind]
    refine obeys_read options rfl fun _ => ?_
    simp only [Claim.lock_raw, Claim.raw_realm, Claim.raw_name, Value.plain,
      Operation.acquire_request h hk, Operation.acquire_decision hk]
    split
    · rename_i ho
      have he := Operation.effect_acquired hk ho
      cases hd : dataOf options op.lock with
      | ok data =>
        refine ⟨rfl, rfl, ?_⟩
        have hs := settles_effect contention hsep h he ⟨data, hd, rfl⟩
        rwa [← Operation.decide_snd (by rw [hk]; decide)] at hs
      | error f =>
        refine ⟨rfl, rfl, settles_unwritable hd he ?_, settles_unwritable hd he (by rintro _ ⟨⟩)⟩
        rintro _ ⟨rfl⟩; rfl
    · rename_i ho
      refine ⟨rfl, rfl, ?_⟩
      have hs := settles_effect contention hsep h (Operation.effect_not_acquired hk ho) rfl
      rwa [← Operation.decide_snd (by rw [hk]; decide)] at hs
  | renew =>
    simp only [Operation.attempt, hk, service, renew]
    refine obeys_operate fun _ => ?_
    rw [bind_eq, obeys_bind]
    refine obeys_read options rfl fun _ => ?_
    simp only [Claim.lock_raw, Claim.raw_realm, Claim.raw_name, Value.plain,
      Operation.renew_request h hk]
    split
    · rename_i o l ho
      have he := Operation.effect_renewed hk ho
      cases hd : dataOf options l with
      | ok data =>
        refine ⟨rfl, rfl, ?_⟩
        have hs := settles_effect contention hsep h he ⟨data, hd, rfl⟩
        rwa [ho] at hs
      | error f =>
        refine ⟨rfl, rfl, settles_unwritable hd he ?_, settles_unwritable hd he (by rintro _ ⟨⟩)⟩
        rintro _ ⟨rfl⟩; rfl
    · rename_i o ho
      refine ⟨rfl, rfl, ?_⟩
      have hs := settles_effect contention hsep h (Operation.effect_not_renewed hk ho) rfl
      rwa [ho] at hs
  | release =>
    simp only [Operation.attempt, hk, service, release, bind_eq, obeys_bind]
    refine obeys_operate fun _ => ?_
    rw [obeys_bind]
    refine obeys_read options rfl fun _ => ?_
    simp only [Claim.lock_raw, Claim.raw_realm, Claim.raw_name, Value.plain,
      Operation.release_request h hk]
    refine ⟨rfl, rfl, ?_⟩
    dsimp only
    by_cases ho : (op.decide ((system options).record s (pathOf options c.realm c.name))).1 =
      .released
    · rw [if_pos ho]
      have hs := settles_effect contention hsep h (Operation.effect_released hk ho) rfl
      rwa [← Operation.decide_snd (by rw [hk]; decide)] at hs
    · rw [if_neg ho]
      have hs := settles_effect contention hsep h (Operation.effect_not_released hk ho) rfl
      rwa [← Operation.decide_snd (by rw [hk]; decide)] at hs

theorem writable_of_fits {c : Claim} {lease expiry : Int} (_ : 0 ≤ lease) (_ : lease ≤ expiry)
    (he : options.fits expiry) : options.writable (c.lock (some lease) (some expiry)) := by
  rcases he with hn | he
  · exact ⟨_, by rw [dataOf, hn]⟩
  · cases hn : options.ttlName? with
    | none => exact ⟨_, by rw [dataOf, hn]⟩
    | some name =>
      have ht : Instant.ofEpoch expiry = .ok (.instant expiry) :=
        Instant.ofEpoch_eq_ok_iff.mpr ⟨he, rfl⟩
      refine ⟨Assoc.put (c.lock (some lease) (some expiry)).toFields name (.instant expiry), ?_⟩
      rw [dataOf, hn]
      show (Instant.ofEpoch expiry).bind _ = _
      rw [ht]
      rfl

theorem good_sweep {t : Int} {s s' : Store} (h : Good s) (hs : (system options).Sweep t s s') :
    Good s' :=
  fun _ _ hd => hs.all h hd

def laws (hsep : options.Separate) : (system options).Laws where
  Token := Unit
  terms := fun _ => terms
  good := Good
  good_eq := fun _ => rfl
  seen := fun _ _ => trivial
  sound := fun _ => Terms.plain_sound fun hg hmay => hg.client hmay
  fair := nofun
  extend := fun _ _ _ => ⟨_, _, rfl⟩
  extend_live := fun hnow hlive => Decision.extend_live _ hnow hlive
  client_mem := fun _ => rfl
  losses_mem := nofun
  passes_refl := fun _ => trivial
  slot_inj := fun hr hr' h => Lock.keyOf_inj hr hr' ((String.append_right_inj _).mp h)
  writable_of_fits := writable_of_fits
  good_empty := nofun
  record_empty := fun _ => rfl
  record_of_silent := fun h => congrArg (system options).record h
  good_sweep := good_sweep
  admits_sweep := nofun
  attempt := fun _ _ _ h s => obeys_attempt hsep h s
  find := by
    intro _ realm name s
    show (find options realm name).Obeys terms _ () s s
    rw [find, Service.guarded, obeys_rescue]
    exact obeys_read options rfl fun _ => ⟨rfl, rfl⟩

end Leasehold.Documents
