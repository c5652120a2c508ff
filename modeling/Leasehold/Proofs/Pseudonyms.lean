import Leasehold.Proofs.Interruption
import Leasehold.Proofs.Serving
import Mathlib.Logic.Equiv.Basic

/-!
# Pseudonyms

Had all callers other instance ids, the manager would do the same: it would give the same answers,
write the same log and keep the same records but for the instance ids in them (`pseudonymity`). In
the log context the instance id is seen as a digest, and nothing else there depends on it. So no raw
instance id gets out, neither as it is nor through anything that is made of it.

Two stores are kept side by side, of which one is the other with other instance ids;
`Backend.Renamed` says so, and that what is stored reads back as what it was made of, which needs
the stores to be the services' own.
-/

namespace Leasehold
open Session Manager

/-! ### Other instance ids -/

/-- A choice of other instance ids: different ones for different ones, and valid ones for valid
ones. -/
structure Pseudonyms where
  of : String → String
  injective : of.Injective
  valid : ∀ i, Argument.isIdentifier i = true → Argument.isIdentifier (of i) = true

section Requests
variable (ν : Pseudonyms)

def Manager.Caller.rename (caller : Caller) : Caller :=
  ⟨caller.owner, ν.of caller.instanceId, ν.valid _ caller.instanceId.2⟩

def Manager.Ask.rename : Ask → Ask
  | .get realm name => .get realm name
  | .operate kind realm name caller lease => .operate kind realm name (caller.rename ν) lease

def TimedAsk.rename (v : TimedAsk) : TimedAsk := { v with ask := v.ask.rename ν }

/-- The log context after a request under the other instance ids. -/
def TimedAsk.rehash (v : TimedAsk) (c : Context) : Context :=
  match v.ask with
  | .get .. => c
  | .operate _ _ _ caller _ =>
    Assoc.mapAt c "instance_id_hash" fun _ => .text (Digest.sha256 (ν.of caller.instanceId))

end Requests

/-! ### Contexts -/

namespace Manager
variable {digest : String} {c c' : Context}

/-- The context with another digest in it. -/
abbrev Rehashed (digest : String) (c c' : Context) : Prop :=
  c' = Assoc.mapAt c "instance_id_hash" fun _ => .text digest

theorem lasting_rehashed (digest : String) : Lasting (Rehashed digest) where
  record := by
    rintro c _ o rfl
    exact (Assoc.put_mapAt_ne (by decide) _).symm
  bind := by
    rintro c _ backend ms label expiry rfl
    have hkeys : ∀ e ∈ resultFields backend ms label expiry, e.1 ≠ "instance_id_hash" := by
      simp [resultFields]
    exact (Assoc.putAll_mapAt fun e he => hkeys e (List.mem_filter.mp he).1).symm

/-- A request sets out with its own digest, whatever an earlier one left. -/
theorem rehashed_bindRequest (action : Action) (realm name owner i j : String) (lease : Option Int)
    (h : c'.reset = c.reset) : Rehashed (Digest.sha256 j)
      (bindRequest action realm name (some owner) (some i) lease c)
      (bindRequest action realm name (some owner) (some j) lease c') := by
  have hreset : Assoc.mapAt c.reset "instance_id_hash" (fun _ => .text (Digest.sha256 j)) =
    c.reset := by
    refine Assoc.mapAt_of_forall_ne fun e he hk => ?_
    have hkey := (List.mem_filter.mp he).2
    rw [hk] at hkey
    exact absurd hkey (by decide)
  rw [Rehashed, bindRequest, bindRequest, h, Context.bind, Context.bind, Context.bindAll,
    Context.bindAll, Assoc.mapAt,
    Assoc.putAll_mapValues, ← Assoc.mapAt, hreset]
  refine congrArg (Assoc.putAll c.reset) ?_
  simp only [requestFields, Option.map_some]
  -- the digests are not to be computed
  generalize Digest.sha256 i = d
  generalize Digest.sha256 j = d'
  cases lease <;> rfl

end Manager

namespace TimedAsk
variable (ν : Pseudonyms) (v : TimedAsk)

theorem lasting_rehash : Lasting fun c c' => c' = v.rehash ν c := by
  obtain ⟨ask, t, now⟩ := v
  cases ask with
  | get =>
    show Lasting fun c c' => c' = c
    exact ⟨fun _ h => by rw [h], fun _ _ _ _ h => by rw [h]⟩
  | operate => exact lasting_rehashed _

theorem reset_rehash (c : Context) : (v.rehash ν c).reset = c.reset := by
  obtain ⟨ask, t, now⟩ := v
  cases ask with
  | get => rfl
  | operate => exact Assoc.drop_mapAt (by decide)

end TimedAsk

/-! ### Stores -/

section Mirrors
variable {κ α : Type}

/-- The second map is the first one with `f` done to its values. -/
def Mirrors (f : α → α) (m m' : Assoc κ α) : Prop := m' = m.mapValues fun _ => f

namespace Mirrors
variable {f : α → α} {m m' : Assoc κ α}

theorem nil : Mirrors f ([] : Assoc κ α) [] := rfl

theorem eq (h : Mirrors f m m') : m' = m.mapValues fun _ => f := h

variable [DecidableEq κ]

theorem found (h : Mirrors f m m') (k : κ) : m'.find? k = (m.find? k).map f := by
  rw [h.eq, Assoc.find?_mapValues]

theorem put (h : Mirrors f m m') (k : κ) (a : α) : Mirrors f (m.put k a) (m'.put k (f a)) := by
  rw [Mirrors, h.eq, Assoc.put_mapValues]

theorem erase (h : Mirrors f m m') (k : κ) : Mirrors f (m.erase k) (m'.erase k) := by
  rw [Mirrors, h.eq, Assoc.erase_mapValues]

end Mirrors

end Mirrors

namespace KeyValue
variable {r : String → String} {s s' : Store} {l : Lock} {text text' : String}

/-- The text with another instance id, if it is that of a record. -/
def renameText (r : String → String) (text : String) : String :=
  match ofRecordText text with
  | .ok l => Json.render (.map (l.rename r).toFields)
  | .error _ => text

def Entry.rename (r : String → String) (e : Entry) :
    Entry := { e with value := renameText r e.value }

theorem recordText_eq (h : recordText l = .ok text) : text = Json.render (.map l.toFields) := by
  dsimp only [recordText] at h
  split at h
  · cases h
  · exact (Except.ok.inj h).symm

theorem renameText_eq (hl : l.IsRecord) (h : recordText l = .ok text)
    (h' : recordText (l.rename r) = .ok text') :
    renameText r text = text' := by
  rw [renameText, ofRecordText_recordText hl h]
  exact (recordText_eq h').symm

/-- The entry holds the text of a record. -/
def Entry.Written (e : Entry) : Prop := ∃ l : Lock, l.IsRecord ∧ recordText l = .ok e.value

theorem Entry.Written.read {e : Entry} (h : e.Written) (r : String → String) :
    ∃ l, ofRecordText e.value = .ok l ∧
    ofRecordText (renameText r e.value) = .ok (l.rename r) := by
  obtain ⟨l, hl, ht⟩ := h
  have hrenamed := recordText_rename (r := r) hl
  rw [ht] at hrenamed
  generalize ht' : recordText (l.rename r) = x at hrenamed
  cases hrenamed with
  | ok _ =>
    rw [renameText_eq hl ht ht']
    exact ⟨l, ofRecordText_recordText hl ht, ofRecordText_recordText (hl.rename r) ht'⟩

/-- The stores are the same but for the instance ids in their texts. -/
structure Renamed (r : String → String) (s s' : Store) : Prop where
  good : Good s
  written : ∀ e ∈ s.entries, e.2.Written
  entries : Mirrors (Entry.rename r) s.entries s'.entries
  eq : s' = { s with entries := s'.entries }

namespace Renamed
variable (h : Renamed r s s')
include h

theorem good' : Good s' := by
  intro e he
  rw [h.entries.eq] at he
  obtain ⟨e, hm, rfl⟩ := List.mem_map.mp he
  obtain ⟨l, -, hl⟩ := (h.written e hm).read r
  have hg := h.good e hm
  rw [h.eq]
  exact ⟨⟨_, hl⟩, hg.created, hg.modified, hg.not_later, hg.lease⟩

theorem looked (key : String) :
    Alike (fun p p' => p'.1 = p.1.map (Lock.rename r)) (looked s key) (looked s' key) := by
  have hfound := h.entries.found key
  cases hf : s.entries.find? key with
  | none =>
    rw [hf, Option.map_none] at hfound
    rw [KeyValue.looked, KeyValue.looked, hf, hfound]
    exact .ok rfl
  | some e =>
    rw [hf, Option.map_some] at hfound
    obtain ⟨l, hl, hl'⟩ := (h.written _ (Assoc.mem_of_find? hf)).read r
    rw [looked_of_find hf hl, looked_of_find hfound hl']
    exact .ok rfl

theorem grant (ttl : Int) : Renamed r (s.grant ttl).2 (s'.grant ttl).2 := by
  refine ⟨fun e he => (h.good e he).mono (Nat.le_refl _) (Nat.le_succ _), h.written, h.entries, ?_⟩
  rw [h.eq]
  rfl

theorem put (key : String) (ttl : Int) (hl : l.IsRecord) (ht : recordText l = .ok text)
    (ht' : recordText (l.rename r) = .ok text') :
    Renamed r ((s.grant ttl).2.apply (.put key text (some (s.grant ttl).1)))
      ((s'.grant ttl).2.apply (.put key text' (some (s'.grant ttl).1))) := by
  have hcreated (n : Nat) : (s'.entries.find? key).elim n Entry.created =
    (s.entries.find? key).elim n Entry.created := by
    rw [h.entries.found]
    cases s.entries.find? key <;> rfl
  have hput :=
    h.entries.put key ⟨text, (s.entries.find? key).elim (s.revision + 1) Entry.created,
      s.revision + 1,
    some (s.granted + 1)⟩
  have hrevision : s'.revision = s.revision := by rw [h.eq]
  have hgranted : s'.granted = s.granted := by rw [h.eq]
  have hleases : s'.leases = s.leases := by rw [h.eq]
  refine ⟨(h.grant ttl).good.put (ofRecordText_recordText hl ht) (Nat.le_refl _),
    fun e he => ?_, ?_, ?_⟩
  · rcases Assoc.mem_put he with rfl | he
    · exact ⟨l, hl, ht⟩
    · exact h.written e he
  · simp only [Store.apply, Store.grant, hcreated, hrevision, hgranted]
    rw [Entry.rename, renameText_eq hl ht ht'] at hput
    exact hput
  · simp only [Store.apply, Store.grant, hrevision, hgranted, hleases]

theorem delete (key : String) : Renamed r (s.apply (.delete key)) (s'.apply (.delete key)) := by
  refine ⟨h.good.delete key, fun e he => h.written e (Assoc.mem_of_mem_erase he),
    h.entries.erase key, ?_⟩
  rw [h.eq]
  rfl

theorem pair (key : String) : Entries r (Renamed r) s s' key where
  left := h
  good := h.good
  good' := h.good'
  found := h.looked key
  granted := h.grant
  put := h.put key
  delete := h.delete key

end Renamed

end KeyValue

namespace Backend
variable (b : Backend) (r : String → String)

/-- The store with other instance ids. -/
def renameStore : (b : Backend) → b.system.Store → b.system.Store
  | memory, s => Assoc.mapValues (fun _ => Lock.rename r) s
  | keyValue _, s =>
    { s with entries := Assoc.mapValues (fun _ => KeyValue.Entry.rename r) s.entries }
  | table _, s => { s with rows := Assoc.mapValues (fun _ => Table.Row.rename r) s.rows }
  | items _, s => Assoc.mapValues (fun _ => Items.Item.rename r) s
  | documents _, s => Assoc.mapValues (fun _ => Value.Fields.rename r "instanceId") s

/-- The second store is the first one with other instance ids, and both can be read back. -/
def Renamed : (b : Backend) → b.system.Store → b.system.Store → Prop
  | memory, s, s' => Mirrors (Lock.rename r) s s'
  | keyValue _, s, s' => KeyValue.Renamed r s s'
  | table _, s, s' => Mirrors (Table.Row.rename r) s.rows s'.rows ∧ s'.serverNow = s.serverNow
  | items _, s, s' => Mirrors (Items.Item.rename r) s s'
  | documents _, s, s' => Mirrors (Value.Fields.rename r "instanceId") s s'

variable {b r} {s s' : b.system.Store} {Γ : Context → Context → Prop}

theorem Renamed.eq (h : b.Renamed r s s') : s' = b.renameStore r s := by
  cases b with
  | memory => exact Mirrors.eq h
  | items => exact Mirrors.eq h
  | documents => exact Mirrors.eq h
  | keyValue options =>
    have hentries := (KeyValue.Renamed.entries h).eq
    exact (KeyValue.Renamed.eq h).trans (by rw [hentries]; rfl)
  | table options =>
    obtain ⟨hrows, hclock⟩ := h
    show s' = { s with rows := _ }
    rw [← hrows.eq, ← hclock]
    rfl

variable (b r) in
theorem renamed_empty : b.Renamed r b.system.empty b.system.empty := by
  cases b with
  | memory => exact .nil
  | keyValue => exact ⟨nofun, nofun, .nil, rfl⟩
  | table => exact ⟨.nil, rfl⟩
  | items => exact .nil
  | documents => exact .nil

theorem Renamed.atServerTime (h : b.Renamed r s s') (now : Int) :
    b.Renamed r (b.atServerTime now s) (b.atServerTime now s') := by
  cases b with
  | table => exact ⟨h.1, rfl⟩
  | _ => exact h

theorem twin_pseudonym (hb : b.Separate) (hr : r.Injective) (h : b.Renamed r s s')
    {op : Operation} {c : Claim} (hop : op.Twins (op.rename r) c (c.rename r)) :
    Twin Γ (b.Renamed r) b.system.client (RenamesVerdict r) (op.attempt b.system.service c)
      ((op.rename r).attempt b.system.service (c.rename r)) s s' := by
  cases b with
  | memory =>
    have hm : Mirrors (Lock.rename r) s s' := h
    exact Memory.twin_renamed hr hop h (hm.found _) (hm.put _) (hm.erase _)
  | keyValue options => exact KeyValue.twin_renamed hr hop (KeyValue.Renamed.pair h _)
  | table options =>
    have hm : Mirrors (Table.Row.rename r) s.rows s'.rows := h.1
    exact Table.twin_renamed hr hop
      ⟨h, h.2, hm.found _, fun row => ⟨hm.put _ row, h.2⟩, ⟨hm.erase _, h.2⟩⟩
  | items options =>
    have hm : Mirrors (Items.Item.rename r) s s' := h
    exact Items.twin_renamed hr hb hop ⟨h, hm.found _, hm.put _, hm.erase _⟩
  | documents options =>
    have hm : Mirrors (Value.Fields.rename r "instanceId") s s' := h
    exact Documents.twin_renamed hr hb hop h (hm.found _)
      (fun _ data _ => hm.put _ data) (hm.erase _)

theorem Renamed.reading (h : b.Renamed r s s') (realm name : String) :
    Alike (fun l l' => l' = l.map (Lock.rename r)) (b.reading s realm name)
      (b.reading s' realm name) := by
  have renamed {x y : Except Fault (Option Lock)} (h : y = x.map (Option.map (Lock.rename r))) :
      Alike (fun l l' => l' = l.map (Lock.rename r)) x y := by
    rw [h]
    exact .map_right _ _
  cases b with
  | memory => exact .ok (Mirrors.found h _)
  | keyValue options => exact (KeyValue.Renamed.looked h _).map fun _ _ hp => hp
  | table options =>
    have hm : Mirrors (Table.Row.rename r) s.rows s'.rows := h.1
    exact renamed ((congrArg Table.reading (hm.found _)).trans Table.reading_rename)
  | items options =>
    have hm : Mirrors (Items.Item.rename r) s s' := h
    exact renamed ((congrArg Items.reading (hm.found _)).trans Items.reading_rename)
  | documents options =>
    have hm : Mirrors (Value.Fields.rename r "instanceId") s s' := h
    exact renamed ((congrArg Documents.reading (hm.found _)).trans Documents.reading_rename)

end Backend

/-! ### Runs -/

namespace Backend
variable (b : Backend) (ν : Pseudonyms)

/-- A run under the other instance ids. What was logged is the same. -/
def renameRun (v : TimedAsk) (run : Run b.system.Store Answer) : Run b.system.Store Answer where
  result := run.result.map (Answer.rename ν.of)
  store := b.renameStore ν.of run.store
  context := v.rehash ν run.context
  log := run.log

/-- The runs of asks, each on what the one before it has left. -/
def history : List TimedAsk → b.system.Store → Context → List (Run b.system.Store Answer)
  | [], _, _ => []
  | v :: asks, s, context =>
    b.serve v s context :: history asks (b.serve v s context).store (b.serve v s context).context

variable {b ν} {s s' : b.system.Store} {c c' : Context}

theorem matched_rename (hb : b.Separate) (h : b.Renamed ν.of s s') (v : TimedAsk)
    (hc : c'.reset = c.reset) :
    Matched (fun c c' => c' = v.rehash ν c) (b.Renamed ν.of) (fun a a' _ _ => a' = a.rename ν.of)
      ((v.ask.session b.system.service v.timing).run (scripted b.system.client)
        (b.atServerTime v.serverNow s, []) c)
      (((v.ask.rename ν).session b.system.service v.timing).run (scripted b.system.client)
        (b.atServerTime v.serverNow s', []) c') := by
  have hd := h.atServerTime v.serverNow
  have hlasting := v.lasting_rehash ν
  obtain ⟨ask, t, now⟩ := v
  cases ask with
  | get realm name =>
    refine twin_get t _ realm name hlasting ?_
      (twin_find hd ⟨rfl, fun _ => rfl⟩ ((hd.reading realm name).mono ?_))
    · show bindRequest .get realm name none none none c' =
        bindRequest .get realm name none none none c
      rw [bindRequest, bindRequest, hc]
    · rintro l _ rfl
      exact shows_rename realm name l
  | operate kind realm name caller lease =>
    have howner : (caller.rename ν).owner = caller.owner := rfl
    have hid : (caller.rename ν).instanceId.1 = ν.of caller.instanceId := rfl
    refine twin_operate t _ realm name hlasting hd howner hid ?_ fun now' _ => ?_
    · exact rehashed_bindRequest _ _ _ _ _ _ _ hc
    · exact twin_pseudonym hb ν.injective hd (twins_operation realm name howner hid now')

theorem serve_rename (hb : b.Separate) (h : b.Renamed ν.of s s') (v : TimedAsk)
    (hc : c'.reset = c.reset) :
    b.serve (v.rename ν) s' c' = b.renameRun ν v (b.serve v s c) ∧
      b.Renamed ν.of (b.serve v s c).store (b.serve (v.rename ν) s' c').store := by
  have hplain := (matched_rename hb h v hc).plain
  have hlog : (b.serve (v.rename ν) s' c').log = (b.serve v s c).log := hplain.1
  have hcontext : (b.serve (v.rename ν) s' c').context = v.rehash ν (b.serve v s c).context :=
    hplain.2.1
  have hstore : b.Renamed ν.of (b.serve v s c).store (b.serve (v.rename ν) s' c').store :=
    hplain.2.2.1
  have hresult : (b.serve (v.rename ν) s' c').result = (b.serve v s c).result.map
    (Answer.rename ν.of) :=
    hplain.2.2.2.eq_map
  refine ⟨?_, hstore⟩
  rw [renameRun, ← hlog, ← hcontext, ← hstore.eq, ← hresult]

theorem history_rename (hb : b.Separate) (h : b.Renamed ν.of s s') (hc : c'.reset = c.reset)
    (asks : List TimedAsk) :
    b.history (asks.map (TimedAsk.rename ν)) s' c' = List.zipWith (b.renameRun ν) asks
      (b.history asks s c) := by
  induction asks generalizing s s' c c' with
  | nil => rfl
  | cons v asks ih =>
    obtain ⟨hrun, hstore⟩ := serve_rename hb h v hc
    have hreset : (b.serve (v.rename ν) s' c').context.reset = (b.serve v s c).context.reset := by
      rw [hrun]
      exact v.reset_rehash ν _
    exact congrArg₂ List.cons hrun (ih hstore hreset)

end Backend

/-- Under other instance ids the manager gives the same answers, keeps the same records and binds
the same context but for the instance ids and their digests, and writes the same log. -/
theorem pseudonymity (b : Backend) (hb : b.Separate) (ν : Pseudonyms) (asks : List TimedAsk)
    (context : Context) :
    b.history (asks.map (TimedAsk.rename ν)) b.system.empty context =
      List.zipWith (b.renameRun ν) asks (b.history asks b.system.empty context) :=
  Backend.history_rename hb (b.renamed_empty ν.of) rfl asks

/-- Two instances of one owner change their names with each other while they contend for a lock. -/
theorem pseudonymity_swapped :
    let b : Backend := .items ⟨some "ttl"⟩
    let jobs : Identifier := ⟨"jobs", by decide⟩
    let nightly : Identifier := ⟨"nightly", by decide⟩
    let one : Caller := ⟨some "ada", ⟨"one", by decide⟩⟩
    let two : Caller := ⟨some "ada", ⟨"two", by decide⟩⟩
    let ten : Term := ⟨10, by decide⟩
    let asks : List TimedAsk := [⟨.operate .acquire jobs nightly one ten, still 5, 0⟩,
      ⟨.operate .renew jobs nightly two ten, still 6, 0⟩,
      ⟨.operate .release jobs nightly one ten, still 7, 0⟩]
    ∃ ν : Pseudonyms, ν.of "one" = "two" ∧ ν.of "two" = "one" ∧ b.Separate ∧
      (b.history asks b.system.empty []).map (fun r => r.result.toOption.bind Answer.success) =
        [some true, some false, some true] ∧
      b.history (asks.map (TimedAsk.rename ν)) b.system.empty [] =
        List.zipWith (b.renameRun ν) asks (b.history asks b.system.empty []) := by
  intro b jobs nightly one two ten asks
  let ν : Pseudonyms := {
    of := Equiv.swap "one" "two"
    injective := (Equiv.swap "one" "two").injective
    valid := fun i hi => by
      rw [Equiv.swap_apply_def]
      split
      · decide
      · split
        · decide
        · exact hi }
  have hsep : b.Separate := by
    rintro name ⟨rfl⟩
    decide
  have hresults : (b.history asks b.system.empty []).map
    (fun r => r.result.toOption.bind Answer.success) =
      [some true, some false, some true] := by
    decide +kernel
  exact ⟨ν, Equiv.swap_apply_left _ _, Equiv.swap_apply_right _ _, hsep, hresults,
    pseudonymity b hsep ν asks []⟩

end Leasehold
