import Leasehold.Service.KeyValue
import Leasehold.Proofs.Json.RoundTrip
import Leasehold.Proofs.Record
import Leasehold.Proofs.Session.Terms

/-!
# Sharing a revisioned key-value store

`Good` says that every entry holds a record and that revisions and leases are consistent. What
protects a session from the others is that revisions only grow: an entry whose last change is not
younger than a reading is the entry that was read (`Since`), so that a commit on the condition that
a key is unchanged succeeds only if it is (`find?_of_unchanged`). The token of a session is the
lease that it was granted and has not attached to a key yet; nobody else attaches it, so that
revoking it drops nothing.
-/

namespace Leasehold

namespace KeyValue
open Session

/-! ### Records as texts -/

theorem flat_text (s : Option String) : Json.Flat ((s.map .text).getD .null) := by
  cases s with
  | none => exact .null
  | some s => exact .text s

theorem flat_ofInt? {n : Option Int} (h : n.any Number.isTooLong = false) :
    Json.Flat (.ofInt? n) := by
  cases n with
  | none => exact .null
  | some n =>
    refine .int n ?_
    simp only [Option.any_some, Number.isTooLong, decide_eq_false_iff_not, Nat.not_le] at h
    -- the power is not to be computed
    generalize maxDigits = d at h ⊢
    exact h

theorem flat_toFields {r : Record} (hl : r.lease.any Number.isTooLong = false)
    (he : r.expiry.any Number.isTooLong = false) :
    ∀ e ∈ r.lock.toFields, Json.Flat e.2 := by
  simp only [Lock.toFields, Record.lock, List.forall_mem_cons]
  exact ⟨flat_text _, flat_text _, flat_text _, flat_text _, flat_ofInt? hl, flat_ofInt? he, nofun⟩

theorem unwritable?_text (s : Option String) :
    Json.unwritable? ((s.map .text).getD .null) = none := by
  cases s <;> rfl

theorem unwritable?_ofInt? (n : Option Int) :
    Json.unwritable? (.ofInt? n) = if n.any Number.isTooLong then some .longInteger else none := by
  cases n with
  | none => rfl
  | some n => simp only [Value.ofInt?, Json.unwritable?, Option.any_some]

/-- Of a record that has texts for identities, only the integers can be too long to be written. -/
theorem recordText_lock (r : Record) : recordText r.lock =
    if r.lease.any Number.isTooLong || r.expiry.any Number.isTooLong then .error .longInteger
    else .ok (Json.render (.map r.lock.toFields)) := by
  simp only [recordText, Json.unwritable?, Lock.toFields, Json.unwritableField?, Record.lock,
    unwritable?_text,
    unwritable?_ofInt?, Option.none_or, Option.or_none]
  cases r.lease.any Number.isTooLong <;> cases r.expiry.any Number.isTooLong <;> rfl

theorem ofRecordText_of_short {l : Lock} (hl : l.IsRecord)
    (h : (l.lease.any Number.isTooLong || l.expiry.any Number.isTooLong) = false) :
    ofRecordText (Json.render (.map l.toFields)) = .ok l := by
  obtain ⟨r, rfl⟩ := hl
  obtain ⟨hlease, hexpiry⟩ := Bool.or_eq_false_iff.mp h
  have hread :=
    @Json.read_render r.lock.toFields (List.cons_ne_nil _ _) (flat_toFields hlease hexpiry)
  have hpairs : Assoc.ofPairs r.lock.toFields = r.lock.toFields := by
    simp [Assoc.ofPairs, Assoc.putAll, Lock.toFields, Assoc.put]
  simp only [ofRecordText, hread, hpairs, Lock.ofValue, Lock.ofFields_toFields]

theorem ofRecordText_recordText {l : Lock} (hl : l.IsRecord) {s : String}
    (h : recordText l = .ok s) :
    ofRecordText s = .ok l := by
  obtain ⟨r, rfl⟩ := hl
  rw [recordText_lock] at h
  split at h <;> cases h
  rename_i hlong
  exact ofRecordText_of_short ⟨r, rfl⟩ (Bool.eq_false_iff.mpr hlong)

/-- What is too long to be written could not be read either. -/
theorem ofRecordText_of_long {l : Lock} (hl : l.IsRecord)
    (h : (l.lease.any Number.isTooLong || l.expiry.any Number.isTooLong) = true) :
    ofRecordText (Json.render (.map l.toFields)) = .error .notJson := by
  obtain ⟨r, rfl⟩ := hl
  obtain ⟨realm, name, owner, instanceId, lease, expiry⟩ := r
  have h : (lease.any Number.isTooLong || expiry.any Number.isTooLong) = true := h
  have unread {fields fields' : Value.Fields} (hf : ∀ e ∈ fields, Json.Flat e.2) (k : String)
    {n : Option Int}
      (hn : n.any Number.isTooLong = true) : Json.read
        (Json.render (.map (fields ++ (k, .ofInt? n) :: fields'))) = none := by
    cases n with
    | none => cases hn
    | some n =>
      simp only [Option.any_some, Number.isTooLong, decide_eq_true_eq] at hn
      exact Json.read_render_long hf k hn
  have hread : Json.read
    (Json.render (.map (Record.lock ⟨realm, name, owner, instanceId, lease, expiry⟩).toFields)) =
      none := by
    cases hl : lease.any Number.isTooLong with
    | true =>
      refine @unread [_, _, _, _] [_] ?_ _ _ hl
      simp only [List.forall_mem_cons]
      exact ⟨flat_text realm, flat_text name, flat_text owner, flat_text instanceId, nofun⟩
    | false =>
      rw [hl, Bool.false_or] at h
      refine @unread [_, _, _, _, _] [] ?_ _ _ h
      simp only [List.forall_mem_cons]
      exact ⟨flat_text realm, flat_text name, flat_text owner, flat_text instanceId,
        flat_ofInt? hl, nofun⟩
  rw [ofRecordText, hread]

/-- The record has a text. -/
def Writable (l : Lock) : Prop := ∃ text, recordText l = .ok text

theorem writable_of_digits {l : Lock} (hl : l.IsRecord)
    (h : (l.lease.any Number.isTooLong || l.expiry.any Number.isTooLong) = false) : Writable l := by
  obtain ⟨r, rfl⟩ := hl
  exact ⟨_, (recordText_lock r).trans (if_neg (ne_true_of_eq_false h))⟩

theorem not_writable_of_expiry {l : Lock} (hl : l.IsRecord) {e : Int} (hexpiry : l.expiry = some e)
    (he : Number.isTooLong e = true) : ¬ Writable l := by
  obtain ⟨r, rfl⟩ := hl
  have hexpiry : r.expiry = some e := hexpiry
  rintro ⟨text, h⟩
  rw [recordText_lock, if_pos (by rw [hexpiry, Option.any_some, he, Bool.or_true])] at h
  cases h

/-! ### Stores -/

/-- The record under a key. -/
def recordAt (s : Store) (key : String) : Option Lock :=
  (s.entries.find? key).bind fun e => (ofRecordText e.value).toOption

/-- An entry as the services leave it. -/
structure Entry.Good (s : Store) (e : Entry) : Prop where
  record : ∃ l, ofRecordText e.value = .ok l
  created : 1 ≤ e.created
  modified : 1 ≤ e.modified
  not_later : e.modified ≤ s.revision
  lease : ∀ n, e.lease = some n → n ≤ s.granted

/-- Every entry is as the services leave it. -/
def Good (s : Store) : Prop := ∀ e ∈ s.entries, e.2.Good s

/-- The lease of a session was granted and is not attached to any key. -/
def Owns (g : Option Nat) (s : Store) : Prop :=
  ∀ n, g = some n → n ≤ s.granted ∧ ∀ e ∈ s.entries, e.2.lease ≠ some n

/-- What has not changed since `s` is what it was in `s`. -/
structure Since (s s' : Store) : Prop where
  revision : s.revision ≤ s'.revision
  same : ∀ k e, s'.entries.find? k = some e → e.modified ≤ s.revision → s.entries.find? k = some e

theorem Since.refl (s : Store) : Since s s := ⟨Nat.le_refl _, fun _ _ h _ => h⟩

theorem Since.trans {s s' s'' : Store} (h : Since s s') (h' : Since s' s'') : Since s s'' :=
  ⟨Nat.le_trans h.revision h'.revision, fun k e he hm => h.same k e
    (h'.same k e he (Nat.le_trans hm h.revision)) hm⟩

theorem Entry.Good.mono {s s' : Store} {e : Entry} (h : e.Good s) (hr : s.revision ≤ s'.revision)
    (hg : s.granted ≤ s'.granted) : e.Good s' :=
  ⟨h.record, h.created, h.modified, Nat.le_trans h.not_later hr, fun n hn => Nat.le_trans
    (h.lease n hn) hg⟩

theorem Good.find {s : Store} (h : Good s) {k : String} {e : Entry}
    (he : s.entries.find? k = some e) : e.Good s :=
  h (k, e) (Assoc.mem_of_find? he)

/-- A commit on the condition that a key is unchanged since a reading finds what was read. -/
theorem find?_of_unchanged {s s' : Store} (hg : Good s) (hg' : Good s') (hs : Since s s')
    {key : String} (h : s'.holds
      (unchanged key ((s.entries.find? key).elim 0 Entry.modified)) = true) :
    s'.entries.find? key = s.entries.find? key := by
  cases he : s.entries.find? key with
  | none =>
    simp only [he, Option.elim_none, unchanged, if_true, Store.holds, decide_eq_true_eq] at h
    cases he' : s'.entries.find? key with
    | none => rfl
    | some e' =>
      -- no entry was created at revision zero
      have hc := (hg'.find he').created
      rw [he', Option.elim_some] at h
      omega
  | some e =>
    have hm := (hg.find he).modified
    have hne : e.modified ≠ 0 := by omega
    simp only [he, Option.elim_some, unchanged, if_neg hne, Store.holds, decide_eq_true_eq] at h
    cases he' : s'.entries.find? key with
    | none => rw [he', Option.elim_none] at h; exact absurd h.symm hne
    | some e' =>
      rw [he', Option.elim_some] at h
      -- a key that was deleted and put again since would have a later revision
      have hsame := hs.same key e' he' (by rw [h]; exact (hg.find he).not_later)
      rw [he] at hsame
      exact hsame.symm

theorem holds_unchanged {s : Store} (hg : Good s) (key : String) :
    s.holds (unchanged key ((s.entries.find? key).elim 0 Entry.modified)) = true := by
  cases he : s.entries.find? key with
  | none => simp only [Option.elim_none, unchanged, if_true, Store.holds, he, decide_true]
  | some e =>
    have hm := (hg.find he).modified
    have hu : unchanged key e.modified = .modified key e.modified := if_neg (by omega)
    simp only [Option.elim_some, hu, Store.holds, he, decide_true]

/-! ### What calls do -/

section Apply
variable {s : Store} {key text : String} {n : Nat} {l : Lock}

theorem Good.put (h : Good s) (ht : ofRecordText text = .ok l) (hn : n ≤ s.granted) :
    Good (s.apply (.put key text (some n))) := by
  intro e he
  rcases Assoc.mem_put he with rfl | he
  · refine ⟨⟨l, ht⟩, ?_, Nat.succ_le_succ (Nat.zero_le _), Nat.le_refl _, fun m hm => ?_⟩
    · show 1 ≤ (s.entries.find? key).elim (s.revision + 1) Entry.created
      cases hf : s.entries.find? key with
      | none => exact Nat.succ_le_succ (Nat.zero_le _)
      | some e => exact (h.find hf).created
    · cases hm; exact hn
  · exact (h e he).mono (Nat.le_succ _) (Nat.le_refl _)

theorem Good.delete (h : Good s) (key : String) : Good (s.apply (.delete key)) :=
  fun e he => (h e (Assoc.mem_of_mem_erase he)).mono (Nat.le_succ _) (Nat.le_refl _)

theorem Since.put (key text : String) (n : Nat) : Since s (s.apply (.put key text (some n))) where
  revision := Nat.le_succ _
  same := by
    intro k e he hm
    simp only [Store.apply, Assoc.find?_put] at he
    split at he
    · cases he; exact absurd hm (Nat.not_succ_le_self _)
    · exact he

theorem Since.delete (key : String) : Since s (s.apply (.delete key)) where
  revision := Nat.le_succ _
  same := by
    intro k e he _
    by_cases hk : k = key
    · subst hk; simp only [Store.apply, Assoc.find?_erase_self] at he; cases he
    · simp only [Store.apply, Assoc.find?_erase_ne hk] at he; exact he

theorem Owns.put {g : Option Nat} (h : Owns g s) (hg : g ≠ some n) :
    Owns g (s.apply (.put key text (some n))) := by
  rintro m rfl
  refine ⟨(h m rfl).1, fun e he => ?_⟩
  rcases Assoc.mem_put he with rfl | he
  · exact fun hm => hg hm.symm
  · exact (h m rfl).2 e he

theorem Owns.delete {g : Option Nat} (h : Owns g s) (key : String) :
    Owns g (s.apply (.delete key)) :=
  fun m hm => ⟨(h m hm).1, fun e he => (h m hm).2 e (Assoc.mem_of_mem_erase he)⟩

theorem entries_revoke (h : Owns (some n) s) : (s.revoke n).entries = s.entries :=
  List.filter_eq_self.2 fun e he => decide_eq_true ((h n rfl).2 e he)

end Apply

/-! ### Terms -/

/-- A client whose commits are all lost. -/
def losing : Client interface Store
  | .commit .., s => (.ok false, s)
  | other, s => client other s

/-- What becomes of the lease that a session was granted. -/
def track (g : Option Nat) : (call : Call) → Except Fault (Reply call) → Option Nat
  | .grant _, .ok lease => some lease
  | .commit .., .ok true => none
  | .revoke _, _ => none
  | _, _ => g

/-- The services put records under the lease that they were granted, delete keys, and revoke their
own lease. -/
def May (g : Option Nat) : Call → Prop
  | .commit _ success failure =>
    failure = [] ∧ ((∃ key text n l, success = [.put key text (some n)] ∧ g = some n ∧
      ofRecordText text = .ok l) ∨ ∃ key, success = [.delete key])
  | .revoke n => g = some n
  | _ => True

/-- What a session has to expect between two calls. -/
structure Env (contention : Prop) (g : Option Nat) (s s' : Store) : Prop where
  good : Good s'
  owns : Owns g s'
  since : Since s s'
  alone : ¬contention → s' = s

/-- Under contention any commit may be lost. `seen` is taken for granted of the store at every
call. -/
def terms (contention : Prop) (seen : Store → Prop) : Terms interface Store (Option Nat) where
  clients := {cl | cl = client ∨ contention ∧ cl = losing}
  track := track
  may := May
  env := Env contention
  seen := seen
  silent := fun s s' => s'.entries = s.entries
  good := Good
  owns := Owns
  apart := fun g g' => ∀ n, g = some n → g' ≠ some n
  idle := none

/-- What a call does to a good store, whoever makes it: the store stays good, entries change as
revisions say, and leases only become attached that the caller holds. -/
structure Stepped (g : Option Nat) (s : Store) (call : Call) (reply : Except Fault (Reply call))
    (s' : Store) : Prop where
  good : Good s'
  since : Since s s'
  own : Owns (track g call reply) s'
  others : ∀ g', Owns g' s → (∀ n, g = some n → g' ≠ some n) →
    Owns g' s' ∧ ∀ n, track g call reply = some n → g' ≠ some n

theorem stepped_refl {g : Option Nat} {s : Store} (hg : Good s) (ho : Owns g s) {call : Call}
    {reply : Except Fault (Reply call)} (ht : track g call reply = g) : Stepped g s call reply s :=
  ⟨hg, .refl s, by rw [ht]; exact ho, fun _ ho' ha => ⟨ho', by rw [ht]; exact ha⟩⟩

theorem stepped_client {g : Option Nat} {s : Store} {call : Call} (hg : Good s) (ho : Owns g s)
    (hmay : May g call) :
    Stepped g s call (client call s).1 (client call s).2 := by
  cases call with
  | get key => exact stepped_refl hg ho rfl
  | grant ttl =>
    refine ⟨fun e he => (hg e he).mono (Nat.le_refl _) (Nat.le_succ _),
      ⟨Nat.le_refl _, fun _ _ he _ => he⟩, ?_, ?_⟩
    -- the lease is new, so that no entry is attached to it and no other session has it
    · rintro n ⟨rfl⟩
      refine ⟨Nat.le_refl _, fun e he hn => ?_⟩
      exact absurd ((hg e he).lease _ hn) (Nat.not_succ_le_self _)
    · intro g' ho' _
      refine ⟨fun n hn => ⟨Nat.le_succ_of_le (ho' n hn).1, (ho' n hn).2⟩, ?_⟩
      rintro n ⟨rfl⟩ hn
      exact absurd (ho' _ hn).1 (Nat.not_succ_le_self _)
  | commit compares success failure =>
    obtain ⟨rfl, hmay⟩ := hmay
    simp only [client]
    cases hc : compares.all s.holds with
    | false => exact stepped_refl hg ho rfl
    | true =>
      simp only [if_true]
      rcases hmay with ⟨key, text, n, l, rfl, rfl, hl⟩ | ⟨key, rfl⟩
      · refine ⟨hg.put hl (ho n rfl).1, .put key text n, nofun,
          fun g' ho' ha => ⟨ho'.put (ha n rfl), nofun⟩⟩
      · exact ⟨hg.delete key, .delete key, nofun, fun g' ho' _ => ⟨ho'.delete key, nofun⟩⟩
  | revoke n =>
    cases hmay
    have he := entries_revoke ho
    refine ⟨?_, ⟨Nat.le_refl _, fun k e hk _ => ?_⟩, nofun, fun g' ho' _ => ⟨?_, nofun⟩⟩
    · intro e hm
      rw [show (client (.revoke n) s).2.entries = s.entries from he] at hm
      exact (hg e hm).mono (Nat.le_refl _) (Nat.le_refl _)
    · rw [show (client (.revoke n) s).2.entries = s.entries from he] at hk
      exact hk
    · intro m hm
      rw [show (client (.revoke n) s).2.entries = s.entries from he]
      exact ho' m hm

theorem stepped_losing {g : Option Nat} {s : Store} {call : Call} (hg : Good s) (ho : Owns g s)
    (hmay : May g call) :
    Stepped g s call (losing call s).1 (losing call s).2 := by
  cases call with
  | commit compares success failure => exact stepped_refl hg ho rfl
  | get | grant | revoke => exact stepped_client hg ho hmay

theorem stepped {contention : Prop} {seen : Store → Prop} {g : Option Nat} {s : Store} {call : Call}
    {cl : Client interface Store} (hg : Good s) (ho : Owns g s) (hmay : May g call)
    (hc : cl ∈ (terms contention seen).clients) : Stepped g s call (cl call s).1 (cl call s).2 := by
  rcases hc with rfl | ⟨-, rfl⟩
  · exact stepped_client hg ho hmay
  · exact stepped_losing hg ho hmay

theorem sound (contention : Prop) (seen : Store → Prop) : (terms contention seen).Sound where
  env_refl := fun hg ho => ⟨hg, ho, .refl _, fun _ => rfl⟩
  silent_refl := fun _ => rfl
  silent_trans := fun h h' => Eq.trans h' h
  good_step := fun hg ho hmay hc => (stepped hg ho hmay hc).good
  owns_step := fun hg ho hmay hc => (stepped hg ho hmay hc).own
  owns_idle := fun _ => nofun

theorem fair (seen : Store → Prop) : (terms True seen).Fair where
  toSound := sound True seen
  env_trans := fun h h' => ⟨h'.good, h'.owns, h.since.trans h'.since, fun h => absurd trivial h⟩
  env_step := by
    intro g g' s c cl hg ho ho' ha hmay hc
    have hs := stepped hg ho hmay hc
    have ho'' := (hs.others g' ho' ha).1
    exact ⟨⟨hs.good, ho'', hs.since, fun h => absurd trivial h⟩, ho''⟩
  apart_step := fun hg ho ho' ha hmay hc => ((stepped hg ho hmay hc).others _ ho' ha).2
  apart_symm := fun h n hn hn' => h n hn' hn
  apart_idle := nofun

end KeyValue

end Leasehold
