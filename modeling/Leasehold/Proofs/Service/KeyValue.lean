import Leasehold.Proofs.Store.KeyValue
import Leasehold.Proofs.System

/-!
# The laws of locks in a key-value store

An operation decides on what it read and commits on the condition that the key is unchanged, so its
last call is the one at which the decision is right for the store as it is (`Ends.decided`): the
reading itself when nothing is to be written, the commit otherwise. Every call before that changes
no entry: commits that were lost, leases granted and revoked. The other ends leave the entries alone
altogether: every attempt was lost, or the record has integers of too many digits.
-/

namespace Leasehold.KeyValue
open Session

/-- The effect on a key, and nothing else. -/
structure Applied (key : String) (e : Operation.Effect) (s s' : Store) : Prop where
  others : ∀ k, k ≠ key → s'.entries.find? k = s.entries.find? k
  here : recordAt s' key = e.apply (recordAt s key)

theorem Applied.keep (key : String) (s : Store) : Applied key .keep s s := ⟨fun _ _ => rfl, rfl⟩

theorem Applied.put {key text : String} {l : Lock} (hl : l.IsRecord) (ht : recordText l = .ok text)
    (n : Nat) (s : Store) :
    Applied key (.put l) s (s.apply (.put key text (some n))) where
  others := fun _ hk => Assoc.find?_put_ne (Ne.symm hk) _ _
  here := by
    simp only [recordAt, Store.apply, Assoc.find?_put_self, Option.bind_some,
      ofRecordText_recordText hl ht]
    rfl

theorem Applied.delete (key : String) (s : Store) :
    Applied key .delete s (s.apply (.delete key)) where
  others := fun _ hk => Assoc.find?_erase_ne hk _
  here := by
    simp only [recordAt, Store.apply, Assoc.find?_erase_self, Option.bind_none]
    rfl

section Obeys
variable {α : Type} {contention : Prop} {seen : Store → Prop} {g : Option Nat} {s₀ s₁ : Store}
    {key : String}

theorem obeys_read {Q : Except Error (Option Lock × Nat) → Option Nat → Store → Store → Prop}
    (hs : s₁.entries = s₀.entries) (h : ∀ s, Env contention g s₁ s → seen s →
      Q (.ok (recordAt s key, (s.entries.find? key).elim 0 Entry.modified)) g s s) :
    (read key).Obeys (terms contention seen) Q g s₀ s₁ := by
  rw [read, bind_eq, obeys_bind, get]
  refine (obeys_ask (T := terms contention seen) (.get key) _).2
    ⟨hs, fun s he hseen => ⟨trivial, ?_⟩⟩
  have hread {cl : Client interface Store} (hc : cl ∈ (terms contention seen).clients) :
      cl (.get key) s = (.ok ((s.entries.find? key).map fun e => (e.value, e.modified)), s) := by
    rcases hc with rfl | ⟨-, rfl⟩ <;> rfl
  intro cl hc
  rw [hread hc]
  have hQ := h s he hseen
  cases hf : s.entries.find? key with
  | none =>
    simp only [recordAt, hf] at hQ
    exact hQ
  | some e =>
    obtain ⟨l, hl⟩ := (he.good.find hf).record
    simp only [recordAt, hf, Option.bind_some, hl, Except.toOption] at hQ
    show ((ofReading (ofRecordText e.value)).bind fun l => done (some l, e.modified)).Obeys _ _ _ _
      _
    rw [hl]
    exact hQ

/-- A commit on the condition that the key is as it was read in `s`. It is lost only under
contention. -/
theorem obeys_commit {Q : Except Error Bool → Option Nat → Store → Store → Prop} {s : Store}
    {change : Change} (hs : s₁.entries = s₀.entries) (hg : Good s) (hsince : Since s s₁)
    (halone : ¬contention → s₁.entries = s.entries)
    (hmay : May g (.commit [unchanged key ((s.entries.find? key).elim 0 Entry.modified)]
      [change] [])) (hwon : ∀ t, Env contention g s₁ t → t.entries.find? key = s.entries.find? key →
        Q (.ok true) none t (t.apply change))
    (hlost : contention → ∀ t, Env contention g s₁ t → Q (.ok false) g t t) :
    (commit [unchanged key ((s.entries.find? key).elim 0 Entry.modified)] [change] []).Obeys
      (terms contention seen)
      Q g s₀ s₁ := by
  refine (obeys_ask (T := terms contention seen) (.commit _ _ _) Q).2 ⟨hs, fun t he _ => ⟨hmay, ?_⟩⟩
  rintro cl (rfl | ⟨hc, rfl⟩)
  · simp only [client, List.all_cons, List.all_nil, Bool.and_true]
    cases hh : t.holds (unchanged key ((s.entries.find? key).elim 0 Entry.modified)) with
    | true => exact hwon t he (find?_of_unchanged hg he.good (hsince.trans he.since) hh)
    | false =>
      refine hlost ?_ t he
      by_contra hn
      have hst : t.entries = s.entries := by rw [he.alone hn]; exact halone hn
      have htrue := holds_unchanged he.good key
      rw [hst, hh] at htrue
      cases htrue
  · exact hlost hc t he

theorem obeys_put {Q : Except Error Bool → Option Nat → Store → Store → Prop} {l : Lock} {now : Int}
    (hl : l.IsRecord) (hs : s₁.entries = s₀.entries) (hg : Good s₁)
    (hwon : ∀ t text n, t.entries.find? key = s₁.entries.find? key → recordText l = .ok text →
      Q (.ok true) none t (t.apply (.put key text (some n))))
    (hlost : contention → ∀ t t', t'.entries = t.entries → Q (.ok false) none t t')
    (hfail : ∀ f g t t', recordText l = .error f → (¬contention → t.entries = s₁.entries) →
      t'.entries = t.entries →
      Q (.error (.fault f)) g t t') :
    (putIfUnchanged key ((s₁.entries.find? key).elim 0 Entry.modified) l now).Obeys
      (terms contention seen)
      Q none s₀ s₁ := by
  rw [putIfUnchanged, bind_eq, obeys_bind, grant]
  refine (obeys_ask (T := terms contention seen) (.grant _) _).2 ⟨hs, fun t he _ => ⟨trivial, ?_⟩⟩
  have hgrant {cl : Client interface Store} (hc : cl ∈ (terms contention seen).clients) :
      cl (.grant (timeToLive l now)) t = client (.grant (timeToLive l now)) t := by
    rcases hc with rfl | ⟨-, rfl⟩ <;> rfl
  intro cl hc
  rw [hgrant hc]
  show ((ofReading (recordText l)).bind
    fun text => (commit [unchanged key _] [.put key text (some (t.granted + 1))] []).bind
    fun committed => if committed then done true else (revoke (t.granted + 1)).bind fun _ =>
      done false).Obeys
      _ _ (some (t.granted + 1)) t (t.grant (timeToLive l now)).2
  cases ht : recordText l with
  | error f => exact hfail f _ t _ ht (fun hn => by rw [he.alone hn]) rfl
  | ok text =>
    rw [ofReading, Session.bind, obeys_bind]
    refine obeys_commit rfl hg ⟨he.since.revision, he.since.same⟩
      (fun hn => by rw [he.alone hn]; rfl)
      ⟨rfl, .inl ⟨key, text, _, l, rfl, rfl, ofRecordText_recordText hl ht⟩⟩ ?_ ?_
    · exact fun u _ hu => hwon u text _ hu ht
    · intro hc u hu
      show ((revoke (t.granted + 1)).bind fun _ => done false).Obeys _ _ _ _ _
      rw [obeys_bind, revoke]
      refine (obeys_ask (T := terms contention seen) (.revoke _) _).2 ⟨rfl, fun v hv _ => ⟨rfl, ?_⟩⟩
      rintro cl (rfl | ⟨-, rfl⟩)
      · exact hlost hc v _ (entries_revoke hv.owns)
      · exact hlost hc v _ (entries_revoke hv.owns)

theorem obeys_delete {Q : Except Error Bool → Option Nat → Store → Store → Prop}
    (hs : s₁.entries = s₀.entries) (hg : Good s₁)
    (hwon : ∀ t, t.entries.find? key = s₁.entries.find? key →
      Q (.ok true) none t (t.apply (.delete key)))
    (hlost : contention → ∀ t, Q (.ok false) none t t) :
    (deleteIfUnchanged key ((s₁.entries.find? key).elim 0 Entry.modified)).Obeys
      (terms contention seen) Q none s₀ s₁ :=
  obeys_commit hs hg (.refl s₁) (fun _ => rfl) ⟨rfl, .inr ⟨key, rfl⟩⟩ (fun t _ ht => hwon t ht)
    fun hc t _ => hlost hc t

end Obeys

/-! ### Attempts -/

/-- The record that should be written cannot be. It was decided on when the store was `t`. -/
structure Unwritable (contention : Prop) (seen : Store → Prop) (op : Operation) (key : String)
    (s t : Store) (l : Lock) :
    Prop where
  seen : seen t
  alone : ¬contention → recordAt t key = recordAt s key
  effect : op.effect (recordAt t key) = .put l
  text : ¬Writable l

/-- How an attempt ends whose answers are the verdicts `f`. -/
def Tried {α : Type} (contention : Prop) (seen : Store → Prop) (op : Operation) (key : String)
    (f : α → Verdict) (r : Except Error (Option α)) (g : Option Nat) (s s' : Store) : Prop :=
  match r with
  | .ok (some a) =>
    f a = op.decide (recordAt s key) ∧ Applied key (op.effect (recordAt s key)) s s' ∧
      ∀ l, op.effect (recordAt s key) = .put l → Writable l
  | .ok none => contention ∧ g = none ∧ s'.entries = s.entries
  | .error _ => (∃ t l, Unwritable contention seen op key s t l) ∧ s'.entries = s.entries

/-- How an operation ends. -/
inductive Ends (contention : Prop) (seen : Store → Prop) (op : Operation) (key : String)
    (r : Except Error Verdict) (s s' : Store) : Prop
  | decided (hr : r = .ok (op.decide (recordAt s key)))
    (h : Applied key (op.effect (recordAt s key)) s s')
    (hw : ∀ l, op.effect (recordAt s key) = .put l → Writable l)
  | exhausted (hr : r = .ok (op.kind.exhausted, none)) (hc : contention)
    (h : s'.entries = s.entries)
  | unwritable {t : Store} {l : Lock} (hr : r = .ok (op.kind.failed, none))
    (hu : Unwritable contention seen op key s t l) (h : s'.entries = s.entries)

section Attempt
variable {contention : Prop} {seen : Store → Prop} {s₀ s₁ : Store} {key : String} {op : Operation}
    {c : Claim} {l : Lock}

theorem recordAt_congr {s t : Store} (h : t.entries.find? key = s.entries.find? key) :
    recordAt t key = recordAt s key := by
  rw [recordAt, h, recordAt]

theorem obeys_put_decided {α : Type} {f : α → Verdict} {a : α} {now : Int} {s : Store}
    (h : op.check = .ok c) (hseen : seen s) (hg : Good s) (hs : s.entries = s₀.entries)
    (he : op.effect (recordAt s key) = .put l) (ha : f a = op.decide (recordAt s key)) :
    ((putIfUnchanged key ((s.entries.find? key).elim 0 Entry.modified) l now).bind fun committed =>
      done (if committed then some a else none)).Obeys (terms contention seen)
        (Tried contention seen op key f)
      none s₀ s := by
  have hl := Operation.isRecord_of_put h he
  rw [obeys_bind]
  refine obeys_put hl hs hg ?_ ?_ ?_
  · intro t text n ht htext
    have hr := recordAt_congr ht
    refine ⟨by rw [hr]; exact ha, ?_⟩
    rw [hr, he]
    exact ⟨.put hl htext n t, by rintro _ ⟨rfl⟩; exact ⟨text, htext⟩⟩
  · exact fun hc t t' ht => ⟨hc, rfl, ht⟩
  · intro e g t t' htext hn ht
    refine ⟨⟨s, l, hseen, fun hc => ?_, he, ?_⟩, ht⟩
    · exact (recordAt_congr (by rw [hn hc])).symm
    · rintro ⟨text, h⟩; rw [htext] at h; cases h

theorem obeys_tryAcquire (h : op.check = .ok c) (hk : op.kind = .acquire)
    (hs : s₁.entries = s₀.entries) :
    (tryAcquire key op.lock op.now).Obeys (terms contention seen)
      (Tried contention seen op key fun o => (o, none))
      none s₀ s₁ := by
  rw [tryAcquire, bind_eq, obeys_bind]
  refine obeys_read hs fun s he hseen => ?_
  simp only [Operation.acquire_decision hk]
  have hd := @Operation.decide_snd op (by rw [hk]; decide) (recordAt s key)
  split
  · rename_i ho
    exact obeys_put_decided h hseen he.good rfl (Operation.effect_acquired hk ho) hd
  · rename_i ho
    refine ⟨hd, ?_⟩
    rw [Operation.effect_not_acquired hk ho]
    exact ⟨.keep key s, by rintro _ ⟨⟩⟩

theorem obeys_tryRenew (h : op.check = .ok c) (hk : op.kind = .renew)
    (hs : s₁.entries = s₀.entries) :
    (tryRenew key (c.lock (some op.delta) none) op.now).Obeys (terms contention seen)
      (Tried contention seen op key id) none s₀ s₁ := by
  rw [tryRenew, bind_eq, obeys_bind]
  refine obeys_read hs fun s he hseen => ?_
  simp only [Operation.renew_request h hk]
  split
  · rename_i o m ho
    exact obeys_put_decided h hseen he.good rfl (Operation.effect_renewed hk ho) ho.symm
  · rename_i o ho
    refine ⟨ho.symm, ?_⟩
    rw [Operation.effect_not_renewed hk ho]
    exact ⟨.keep key s, by rintro _ ⟨⟩⟩

theorem obeys_tryRelease (h : op.check = .ok c) (hk : op.kind = .release)
    (hs : s₁.entries = s₀.entries) :
    (tryRelease key (c.lock none none) op.now).Obeys (terms contention seen)
      (Tried contention seen op key fun o => (o, none)) none s₀ s₁ := by
  rw [tryRelease, bind_eq, obeys_bind]
  refine obeys_read hs fun s he hseen => ?_
  simp only [Operation.release_request h hk]
  have hd := @Operation.decide_snd op (by rw [hk]; decide) (recordAt s key)
  split
  · rename_i ho
    rw [bind_eq, obeys_bind]
    refine obeys_delete rfl he.good ?_ fun hc t => ⟨hc, rfl, rfl⟩
    intro t ht
    have hr := recordAt_congr ht
    refine ⟨by rw [hr]; exact hd, ?_⟩
    rw [hr, Operation.effect_released hk ho]
    exact ⟨.delete key t, by rintro _ ⟨⟩⟩
  · rename_i ho
    refine ⟨hd, ?_⟩
    rw [Operation.effect_not_released hk ho]
    exact ⟨.keep key s, by rintro _ ⟨⟩⟩

theorem obeys_retry {α : Type} {f : α → Verdict} {attempt : Session interface (Option α)}
    (h : ∀ s₀ s₁ : Store, s₁.entries = s₀.entries →
      attempt.Obeys (terms contention seen) (Tried contention seen op key f) none s₀ s₁)
    (operation : Action) (total left : Nat) (hs : s₁.entries = s₀.entries)
    (hleft : left = 0 → contention) :
    (retry operation total attempt left).Obeys (terms contention seen)
      (Tried contention seen op key f) none s₀ s₁ := by
  induction left generalizing s₀ s₁ with
  | zero => exact ⟨hleft rfl, rfl, hs⟩
  | succ left ih =>
    rw [retry, obeys_bind]
    refine (h s₀ s₁ hs).mono fun r g s s' hr => ?_
    match r with
    | .ok (some a) => exact hr
    | .ok none =>
      obtain ⟨hc, rfl, hs'⟩ := hr
      exact ih hs' fun _ => hc
    | .error e => exact hr

theorem obeys_operate {α : Type} {f : α → Verdict} {attempt : Session interface (Option α)}
    {options : Options} {operation : Action} {event : String} {exhausted failed : α}
    (hx : f exhausted = (op.kind.exhausted, none)) (hf : f failed = (op.kind.failed, none))
    (h : ∀ s₀ s₁ : Store, s₁.entries = s₀.entries →
      attempt.Obeys (terms contention seen) (Tried contention seen op key f) none s₀ s₁)
        (s : Store) :
    (operate options operation event c exhausted failed attempt).Obeys (terms contention seen)
      (fun r _ => Ends contention seen op key (r.map f)) none s s := by
  rw [operate, Service.guarded, obeys_rescue, bind_eq, obeys_bind]
  refine (obeys_retry h operation _ _ rfl fun hn => absurd hn (Nat.succ_ne_zero _)).mono
    fun r g s s' hr => ?_
  rcases r with e | _ | a
  · obtain ⟨⟨t, l, hu⟩, hs⟩ := hr
    exact .unwritable (congrArg Except.ok hf) hu hs
  · exact .exhausted (congrArg Except.ok hx) hr.1 hr.2.2
  · exact .decided (congrArg Except.ok hr.1) hr.2.1 hr.2.2

end Attempt

/-! ### Operations -/

abbrev system (options : Options) : System where
  I := interface
  Store := Store
  client := client
  losses := {losing}
  service := service options
  empty := {}
  whole := false
  Slot := String
  slot := keyOf options
  Raw := Entry
  raw := fun s => Assoc.find? s.entries
  read := fun e => ofRecordText e.value
  passes := fun s s' => s.revision ≤ s'.revision ∧ s'.granted = s.granted ∧ ∀ e ∈ s'.entries,
    e ∈ s.entries
  writable := Writable
  fits := fun e => Number.isTooLong e = false
  extend := Decision.extend

section Operation
variable {contention : Prop} {seen : Store → Prop} {options : Options} {op : Operation} {c : Claim}

theorem obeys_attempt (h : op.check = .ok c) (s : Store) :
    (op.attempt (service options) c).Obeys (terms contention seen)
      (fun r _ => Ends contention seen op (keyOf options c.realm c.name) r) none s s := by
  cases hk : op.kind with
  | acquire =>
    simp only [Operation.attempt, hk, service, acquire, obeys_bind, Claim.lock_raw,
      Operation.acquire_request h hk]
    refine (obeys_operate (by rw [hk]; rfl) (by rw [hk]; rfl)
      (fun _ _ hs => obeys_tryAcquire h hk hs) s).mono ?_
    intro r g s s' hr
    cases r <;> exact hr
  | renew =>
    simp only [Operation.attempt, hk, service, renew]
    refine (obeys_operate (by rw [hk]; rfl) (by rw [hk]; rfl)
      (fun _ _ hs => obeys_tryRenew h hk hs) s).mono ?_
    intro r g s s' hr
    cases r <;> exact hr
  | release =>
    simp only [Operation.attempt, hk, service, release, obeys_bind]
    refine (obeys_operate (by rw [hk]; rfl) (by rw [hk]; rfl)
      (fun _ _ hs => obeys_tryRelease h hk hs) s).mono ?_
    intro r g s s' hr
    cases r <;> exact hr

theorem record_eq (s : Store) (k : String) : (system options).record s k = recordAt s k := rfl

theorem settles {r : Except Error Verdict} {s s' : Store}
    (h : Ends contention seen op (keyOf options c.realm c.name) r s s') :
    (system options).Settles contention op c r s s' := by
  cases h with
  | decided hr h hw =>
    subst hr
    refine ⟨fun k hk => recordAt_congr (h.others k hk), fun _ => .ruled ?_ fun l hp hl => ?_⟩
    rotate_left
    · exact hw l (Operation.put_of_written hp hl)
    rw [record_eq, record_eq, h.here]
    exact op.conforms_decide _
  | exhausted hr hc h =>
    subst hr
    refine ⟨fun k _ => recordAt_congr (by rw [h]), fun _ => .lost hc ?_ ?_
      (recordAt_congr (by rw [h]))⟩
    · cases op.kind <;> rfl
    · cases op.kind <;> rfl
  | @unwritable t l hr hu h =>
    subst hr
    have hsame : recordAt s' (keyOf options c.realm c.name) = recordAt s
      (keyOf options c.realm c.name) :=
      recordAt_congr (by rw [h])
    refine ⟨fun k _ => recordAt_congr (by rw [h]), fun _ => ?_⟩
    by_cases hc : contention
    · refine .lost hc ?_ ?_ hsame
      · cases op.kind <;> rfl
      · cases op.kind <;> rfl
    · have hw := Operation.written_of_put hu.effect
      rw [hu.alone hc] at hw
      refine .unwritable hw.1 hw.2 hu.text ?_ hsame
      rintro v ⟨rfl⟩
      cases op.kind <;> rfl

theorem obeys_find (realm name : String) (s : Store) :
    (find options realm name).Obeys (terms contention seen)
      (fun r _ s s' => r = .ok (recordAt s (keyOf options realm name)) ∧
      (system options).record s' = (system options).record s) none s s := by
  rw [find, Service.guarded, obeys_rescue, bind_eq, obeys_bind]
  exact obeys_read rfl fun _ _ _ => ⟨rfl, rfl⟩

end Operation

/-! ### Integers of many digits -/

/-- The last time that has a text. -/
def lastTick : Int := (Nat.pow 10 maxDigits : Nat) - 1

theorem one_lt_pow_maxDigits : 1 < Nat.pow 10 maxDigits := by
  rw [Nat.pow_eq]
  exact Nat.one_lt_pow (by decide) (by decide)

theorem lastTick_pos : 0 < lastTick := by
  have h := one_lt_pow_maxDigits
  rw [lastTick]
  -- the power is not to be computed
  generalize Nat.pow 10 maxDigits = p at h ⊢
  omega

theorem isTooLong_lastTick : Number.isTooLong lastTick = false := by
  have h := one_lt_pow_maxDigits
  rw [lastTick, Number.isTooLong, decide_eq_false_iff_not]
  generalize Nat.pow 10 maxDigits = p at h ⊢
  omega

theorem isTooLong_lastTick_succ : Number.isTooLong (lastTick + 1) = true := by
  rw [lastTick, Number.isTooLong, decide_eq_true_eq]
  generalize Nat.pow 10 maxDigits = p
  omega

theorem writable_of_fits {c : Claim} {lease expiry : Int} (hl : 0 ≤ lease) (hle : lease ≤ expiry)
    (he : Number.isTooLong expiry = false) : Writable (c.lock (some lease) (some expiry)) := by
  have hlease : Number.isTooLong lease = false := by
    simp only [Number.isTooLong, decide_eq_false_iff_not, Nat.not_le] at he ⊢
    generalize Nat.pow 10 maxDigits = p at he ⊢
    omega
  refine writable_of_digits (c.isRecord_lock _ _) ?_
  simp only [Claim.lock, Option.any_some, hlease, he, Bool.or_self]

theorem good_sweep {options : Options} {t : Int} {s s' : Store} (h : Good s)
    (hs : (system options).Sweep t s s') :
    Good s' :=
  fun e he => (h e (hs.1.2.2 e he)).mono hs.1.1 (Nat.le_of_eq hs.1.2.1.symm)

theorem admits_sweep {options : Options} {seen : Store → Prop} {t : Int} {s s' : Store}
    (hs : (system options).Sweep t s s') : (terms True seen).Admits s s' := by
  have howns {g : Option Nat} (ho : Owns g s) : Owns g s' :=
    fun n hn => ⟨by rw [hs.1.2.1]; exact (ho n hn).1, fun e he => (ho n hn).2 e (hs.1.2.2 e he)⟩
  refine ⟨fun _ ho => howns ho,
    fun hg ho => ⟨good_sweep hg hs, howns ho, ⟨hs.1.1, fun k e he _ => ?_⟩, ?_⟩⟩
  · rcases hs.2 k with hk | ⟨hk, -⟩
    · exact Eq.trans (Eq.symm hk) he
    · rw [show Assoc.find? s'.entries k = none from hk] at he; cases he
  · exact fun hn => absurd trivial hn

def laws (options : Options) : (system options).Laws where
  Token := Option Nat
  terms := fun contention => terms contention fun _ => True
  good := Good
  good_eq := fun _ => rfl
  seen := fun _ _ => trivial
  sound := fun contention => sound contention _
  fair := fun _ => fair _
  extend := fun _ _ _ => ⟨_, _, rfl⟩
  extend_live := fun hnow hlive => Decision.extend_live _ hnow hlive
  client_mem := fun _ => .inl rfl
  losses_mem := fun _ h => .inr ⟨trivial, h⟩
  passes_refl := fun s => ⟨Nat.le_refl _, rfl, fun _ h => h⟩
  slot_inj := fun hr hr' h => Lock.keyOf_inj hr hr' ((String.append_right_inj _).mp h)
  writable_of_fits := writable_of_fits
  good_empty := nofun
  record_empty := fun _ => rfl
  record_of_silent := by
    intro _ s s' h
    funext k
    exact recordAt_congr (by rw [show s'.entries = s.entries from h])
  good_sweep := good_sweep
  admits_sweep := fun _ _ _ _ hs => admits_sweep hs
  attempt := fun _ _ _ h s => (obeys_attempt h s).mono fun _ _ _ _ hr => settles hr
  find := fun _ realm name s => obeys_find realm name s

end Leasehold.KeyValue
