import Leasehold.Proofs.Upkeep
import Leasehold.Proofs.Serving

/-!
# Different locks

A request looks at what its store holds for its own lock and changes nothing else
(`Backend.serve_beside`). So two requests for different locks come to the same in either order
(`independence`). Revisions and leases of a key-value store are counted for all locks together;
apart from their numbers, what is stored is the same too.
-/

namespace Leasehold
open Session Manager

/-! ### Stores that the manager has used -/

namespace Session
variable {I : Interface} {σ α β : Type} {clients : Set (Client I σ)} {P : σ → Prop}
    {session : Session I α}

/-- However the session ends, the store keeps `P`. -/
def Keeps (clients : Set (Client I σ)) (P : σ → Prop) (session : Session I α) : Prop :=
  ∀ s, P s → Ensures clients (fun _ s' => P s') session s

namespace Keeps

theorem done (a : α) : Keeps clients P (.done a : Session I α) := fun _ hs => ensures_done.mpr hs

theorem fail (e : Error) : Keeps clients P (.fail e : Session I α) :=
  fun _ hs => ensures_fail.mpr hs

theorem note {entry : Log.Entry} (h : Keeps clients P session) :
    Keeps clients P (.note entry session) :=
  fun s hs => ensures_note.mpr (h s hs)

theorem amend {change : Context → Context} (h : Keeps clients P session) :
    Keeps clients P (.amend change session) :=
  fun s hs => ensures_amend.mpr (h s hs)

theorem bind {k : α → Session I β} (h : Keeps clients P session) (hk : ∀ a, Keeps clients P (k a)) :
    Keeps clients P (session.bind k) := by
  intro s hs
  rw [ensures_bind]
  refine (h s hs).mono fun r t ht => ?_
  cases r with
  | ok a => exact hk a t ht
  | error e => exact ht

theorem ofExcept (checked : Except Error α) : Keeps clients P (ofExcept checked : Session I α) := by
  cases checked with
  | ok a => exact done a
  | error e => exact fail e

theorem ofReading (reading : Except Fault α) :
    Keeps clients P (ofReading reading : Session I α) := by
  cases reading with
  | ok a => exact done a
  | error f => exact fail (.fault f)

end Keeps

end Session

theorem Manager.UncheckedAsk.keeps {I : Interface} {σ : Type} {clients : Set (Client I σ)}
    {P : σ → Prop} {s : Service I} (t : Timing)
    (hfind : ∀ realm name, Keeps clients P (s.find realm name))
    (hop : ∀ op : Operation, Keeps clients P (op.session s)) (request : UncheckedAsk) :
    Keeps clients P (request.session s t) := by
  rcases request.session_cases s t with (⟨e, he⟩ | ⟨change, e, he⟩) | ⟨ask, hask, -⟩
  · rw [he]
    exact .fail e
  · rw [he]
    exact .amend (.bind (.ofReading _) fun _ => .fail e)
  rw [hask]
  cases ask with
  | get realm name =>
    rw [session_get]
    exact .amend (.bind (hfind _ _) fun _ => .bind (.ofReading _) fun _ => .bind
      (.ofReading _) fun _ =>
      .amend (.note (.done _)))
  | operate kind realm name caller lease =>
    rw [session_operate_timed]
    exact .amend (.bind (.ofReading _) fun _ => .bind (hop _) fun _ => .bind (.ofReading _) fun _ =>
      .amend (.note (.done _)))

/-- A request that passes the checks is one with some arguments. -/
def Manager.Ask.unchecked : Ask → UncheckedAsk
  | .get realm name => .get (.text realm) (.text name)
  | .operate kind realm name caller lease =>
    .operate kind (.text realm) (.text name) caller.owner (.text caller.instanceId) (.int lease)

theorem Manager.Ask.session_unchecked {I : Interface} (s : Service I) (t : Timing) (ask : Ask) :
    ask.unchecked.session s t = ask.session s t := by
  cases ask with
  | get => rfl
  | operate kind => cases kind <;> rfl

theorem KeyValue.keeps_session {options : Options} {P : Fault → Prop} (op : Operation) :
    Keeps (unreliable P) Good (op.session (service options)) := by
  intro s hg
  cases h : op.check with
  | error e => exact (Operation.ensures_session_of_error _ h).mpr hg
  | ok c =>
    refine (Operation.ensures_session _ h).mpr ((ensures_whole hg h).mono fun r s' hw => ?_)
    cases hw with
    | ran hx =>
      have hsession := (Operation.ensures_session _ h).mp ensures_exec r s' hx
      exact ((laws options).exec_session (p := True) hg
        (hsession.mono (laws options).clients_subset)).1
    | stopped hg' => exact hg'

namespace Backend

/-- A store that only the manager has used, with requests of any arguments and at any times, while
calls fail and races are lost. Its sweeper may pass, and the clock of its server may change. -/
inductive Reachable (b : Backend) : b.system.Store → Prop
  | empty : Reachable b b.system.empty
  | request {s s' : b.system.Store} {r : Except Error Answer} (h : Reachable b s)
    (request : UncheckedAsk) (t : Timing)
    (hx : Exec (troubled b.system.clients fun _ => True)
      (request.session b.system.service t) s r s') : Reachable b s'
  | sweep {t : Int} {s s' : b.system.Store} (h : Reachable b s) (hs : b.system.Sweep t s s') :
    Reachable b s'
  | atServerTime {s : b.system.Store} (h : Reachable b s) (now : Int) :
    Reachable b (b.atServerTime now s)

/-- The numbers in the store are as the manager leaves them. Only a key-value store has any. -/
def Numbered : (b : Backend) → b.system.Store → Prop
  | keyValue _, s => KeyValue.Good s
  | _, _ => True

variable {b : Backend} {s s' : b.system.Store}

theorem Numbered.exec {request : UncheckedAsk} {t : Timing} {r : Except Error Answer}
    (h : b.Numbered s) (hx : Exec (troubled b.system.clients fun _ => True)
      (request.session b.system.service t) s r s') : b.Numbered s' := by
  cases b with
  | keyValue options =>
    have hfind (realm name : String) : Keeps (KeyValue.unreliable fun _ => True) KeyValue.Good
        (KeyValue.find options realm name) :=
      fun s hs => (KeyValue.ensures_find_kept realm name).mono fun _ _ ht => ht.symm ▸ hs
    exact request.keeps t hfind KeyValue.keeps_session s h r s' hx
  | _ => trivial

theorem Numbered.atServerTime (h : b.Numbered s) (now : Int) :
    b.Numbered (b.atServerTime now s) := by
  cases b <;> exact h

theorem Numbered.serve (h : b.Numbered s) (v : TimedAsk) (context : Context) :
    b.Numbered (b.serve v s context).store := by
  rw [Backend.serve, ← v.ask.session_unchecked]
  exact (h.atServerTime v.serverNow).exec (exec_run (.inl (.inl rfl)) _ _ _)

theorem Reachable.numbered (h : b.Reachable s) : b.Numbered s := by
  induction h with
  | empty => cases b <;> first | trivial | exact nofun
  | request _ request t hx ih => exact ih.exec hx
  | @sweep t s s' _ hs ih =>
    cases b with
    | keyValue => exact KeyValue.good_sweep ih hs
    | _ => trivial
  | atServerTime _ now ih => exact ih.atServerTime now

end Backend

/-! ### What a request looks at -/

section Beside
variable {σ κ ω : Type} {content : σ → κ → Option ω} {k : κ} {s₀ s₀' s s' : σ}

/-- The stores show the same in one slot, and in each other slot what they showed at first. -/
structure Beside (content : σ → κ → Option ω) (k : κ) (s₀ s₀' s s' : σ) : Prop where
  own : content s' k = content s k
  left : ∀ j, j ≠ k → content s j = content s₀ j
  right : ∀ j, j ≠ k → content s' j = content s₀' j

theorem Beside.start (h : content s' k = content s k) : Beside content k s s' s s' :=
  ⟨h, fun _ _ => rfl, fun _ _ => rfl⟩

variable [DecidableEq κ]

theorem Beside.of_change {w : Option ω} (h : ∀ j, content s j = if j = k then w else content s₀ j)
    (h' : ∀ j, content s' j = if j = k then w else content s₀' j) : Beside content k s₀ s₀' s s' :=
  ⟨by rw [h, h', if_pos rfl, if_pos rfl], fun j hj => by rw [h, if_neg hj],
    fun j hj => by rw [h', if_neg hj]⟩

variable {m m' : Assoc κ ω}

theorem Beside.put (k : κ) (a : ω) : Beside Assoc.find? k m m' (m.put k a) (m'.put k a) :=
  .of_change (w := some a) (fun j => by simp only [Assoc.find?_put, eq_comm]) fun j => by
    simp only [Assoc.find?_put, eq_comm]

theorem Beside.erase (k : κ) : Beside Assoc.find? k m m' (m.erase k) (m'.erase k) :=
  .of_change (w := none) (fun j => by simp [Assoc.erase, Assoc.find?_drop]) fun j => by
    simp [Assoc.erase, Assoc.find?_drop]

end Beside

theorem Operation.twin_same {I : Interface} {σ : Type} {Γ : Context → Context → Prop}
    {T : σ → σ → Prop} {client : Client I σ} {s s' : σ} {service : Service I}
    {op : Operation} {c : Claim}
    (h : Twin Γ T client (RenamesVerdict id) (op.attempt service c)
      ((op.rename id).attempt service (c.rename id)) s s') :
    Twin Γ T client (RenamesVerdict id) (op.attempt service c) (op.attempt service c) s s' := by
  rwa [Operation.rename_id, Claim.rename_id] at h

section Stores
variable {Γ : Context → Context → Prop} {op : Operation} {c : Claim}

theorem Memory.twin_beside {s s' : Store} (h : op.check = .ok c)
    (ho : Assoc.find? s' c.key = Assoc.find? s c.key) :
    Twin Γ (Beside Assoc.find? c.key s s') client (RenamesVerdict id) (op.attempt service c)
      (op.attempt service c) s s' := by
  refine Operation.twin_same
    (twin_renamed Function.injective_id (.renamed h) (.start ho) ?_ (fun l => ?_) (.erase _))
  · exact ho.trans (Lock.map_rename_id _).symm
  · rw [Lock.rename_id]
    exact .put _ _

theorem Documents.twin_beside {options : Options} (hsep : options.Separate) {s s' : Store}
    (h : op.check = .ok c)
    (ho : Assoc.find? s' (pathOf options c.realm c.name) = Assoc.find? s
      (pathOf options c.realm c.name)) :
    Twin Γ (Beside Assoc.find? (pathOf options c.realm c.name) s s') client (RenamesVerdict id)
      (op.attempt (service options) c) (op.attempt (service options) c) s s' := by
  refine Operation.twin_same (twin_renamed Function.injective_id hsep (.renamed h) (.start ho) ?_
    (fun l data _ => ?_) (.erase _))
  · exact ho.trans (Value.Fields.map_rename_id _ _).symm
  · rw [Value.Fields.rename_id]
    exact .put _ _

theorem Items.twin_beside {options : Options} (hsep : options.Separate) {s s' : Store}
    (h : op.check = .ok c) (ho : Assoc.find? s' c.key = Assoc.find? s c.key) :
    Twin Γ (Beside Assoc.find? c.key s s') client (RenamesVerdict id)
      (op.attempt (service options) c) (op.attempt (service options) c) s s' := by
  refine Operation.twin_same (twin_renamed Function.injective_id hsep (.renamed h)
    ⟨.start ho, ?_, fun item => ?_, .erase _⟩)
  · exact ho.trans (Value.Fields.map_rename_id _ _).symm
  · rw [Item.rename, Value.Fields.rename_id]
    exact .put _ _

theorem Table.twin_beside {options : Options} {s s' : Store} (h : op.check = .ok c)
    (hclock : s'.serverNow = s.serverNow)
    (ho : Assoc.find? s'.rows (c.realm, c.name) = Assoc.find? s.rows (c.realm, c.name)) :
    Twin Γ (Beside (fun s : Store => Assoc.find? s.rows) (c.realm, c.name) s s') client
      (RenamesVerdict id) (op.attempt (service options) c) (op.attempt (service options) c)
      s s' := by
  have lift {rows rows' : Assoc (String × String) Row}
      (h : Beside Assoc.find? (c.realm, c.name) s.rows s'.rows rows rows') :
      Beside (fun s : Store => Assoc.find? s.rows) (c.realm, c.name) s s' { s with rows }
        { s' with rows := rows' } :=
    ⟨h.own, h.left, h.right⟩
  refine Operation.twin_same (twin_renamed Function.injective_id (.renamed h)
    ⟨.start ho, hclock, ?_, fun row => ?_, lift (.erase _)⟩)
  · exact ho.trans (Value.Fields.map_rename_id _ _).symm
  · rw [Row.rename, Value.Fields.rename_id]
    exact lift (.put _ _)

namespace KeyValue
variable {options : Options} {s s' : Store} {key : String}

/-- The text under a key, and the time to live of the lease that it hangs on. -/
def content (s : Store) (key : String) : Option (String × Option Int) :=
  (s.entries.find? key).map fun e => (e.value, e.lease.bind s.leases.find?)

theorem content_grant (hg : Good s) (ttl : Int) (j : String) :
    content (s.grant ttl).2 j = content s j := by
  refine Option.map_congr fun e he => congrArg (Prod.mk e.value) ?_
  cases hl : e.lease with
  | none => rfl
  | some n =>
    have hne : s.granted + 1 ≠ n := by
      have hn := (hg.find he).lease n hl
      omega
    exact Assoc.find?_put_ne hne _ _

theorem content_put (hg : Good s) (ttl : Int) (key text : String) (j : String) :
    content ((s.grant ttl).2.apply (.put key text (some (s.grant ttl).1))) j =
      if j = key then some (text, some ttl) else content s j := by
  by_cases hj : j = key
  · subst hj
    simp [content, Store.apply, Store.grant]
  · have hother : content ((s.grant ttl).2.apply (.put key text (some (s.grant ttl).1))) j = content
      (s.grant ttl).2 j := by
      simp only [content, Store.apply, Assoc.find?_put_ne (Ne.symm hj)]
    rw [if_neg hj, hother, content_grant hg]

theorem content_delete (key j : String) :
    content (s.apply (.delete key)) j = if j = key then none else content s j := by
  by_cases hj : j = key
  · subst hj
    simp [content, Store.apply]
  · simp only [content, Store.apply, Assoc.find?_erase_ne hj, if_neg hj]

theorem looked_of_content (h : content s' key = content s key) :
    Alike (fun p p' => p'.1 = p.1) (looked s key) (looked s' key) := by
  have hvalue := congrArg (Option.map Prod.fst) h
  simp only [content, Option.map_map, Function.comp_def] at hvalue
  simp only [looked]
  cases hf : s.entries.find? key with
  | none =>
    rw [hf, Option.map_none, Option.map_eq_none_iff] at hvalue
    rw [hvalue]
    exact .ok rfl
  | some e =>
    rw [hf, Option.map_some, Option.map_eq_some_iff] at hvalue
    obtain ⟨e', hf', he⟩ := hvalue
    simp only [hf', Option.map_some, parsed, he]
    cases ofRecordText e.value with
    | error f => exact .error f
    | ok l => exact .ok rfl

theorem twin_beside (h : op.check = .ok c) (hg : Good s) (hg' : Good s')
    (ho : content s' (keyOf options c.realm c.name) = content s (keyOf options c.realm c.name)) :
    Twin Γ (Beside content (keyOf options c.realm c.name) s s') client (RenamesVerdict id)
      (op.attempt (service options) c) (op.attempt (service options) c) s s' := by
  refine Operation.twin_same (twin_renamed Function.injective_id (.renamed h) {
    left := .start ho
    good := hg
    good' := hg'
    found := (looked_of_content ho).mono fun p p' hp => by rw [hp, Lock.map_rename_id]
    granted :=
      fun ttl => ⟨?_, fun j _ => content_grant hg ttl j, fun j _ => content_grant hg' ttl j⟩
    put := fun ttl _ ht ht' => ?_
    delete := .of_change (content_delete _) (content_delete _) })
  · rw [content_grant hg, content_grant hg', ho]
  · rw [Lock.rename_id, ht] at ht'
    cases ht'
    exact .of_change (content_put hg ttl _ _) (content_put hg' ttl _ _)

end KeyValue

end Stores

namespace Backend

/-- What is stored, apart from the numbers of revisions and leases. -/
def Content : Backend → Type
  | memory => Lock
  | keyValue _ => String × Option Int
  | table _ => Table.Row
  | items _ => Items.Item
  | documents _ => Value.Fields

def content : (b : Backend) → b.system.Store → b.system.Slot → Option b.Content
  | memory, s => (Assoc.find? s : String → Option Lock)
  | keyValue _, s => KeyValue.content s
  | table _, s => (Assoc.find? s.rows : String × String → Option Table.Row)
  | items _, s => (Assoc.find? s : String → Option Items.Item)
  | documents _, s => (Assoc.find? s : String → Option Value.Fields)

variable {b : Backend} {s s' : b.system.Store} {op : Operation} {c : Claim}
    {Γ : Context → Context → Prop}

theorem content_atServerTime (now : Int) (s : b.system.Store) :
    b.content (b.atServerTime now s) = b.content s := by
  cases b <;> rfl

theorem twin_beside (hb : b.Separate) (h : op.check = .ok c) (hs : b.Numbered s)
    (hs' : b.Numbered s') (now : Int)
    (ho : b.content s' (b.system.slot c.realm c.name) =
      b.content s (b.system.slot c.realm c.name)) :
    Twin Γ (Beside b.content (b.system.slot c.realm c.name)
        (b.atServerTime now s) (b.atServerTime now s'))
      b.system.client (RenamesVerdict id)
      (op.attempt b.system.service c) (op.attempt b.system.service c)
      (b.atServerTime now s) (b.atServerTime now s') := by
  cases b with
  | memory => exact Memory.twin_beside h ho
  | keyValue options => exact KeyValue.twin_beside h hs hs' ho
  | table options => exact Table.twin_beside h rfl ho
  | items options => exact Items.twin_beside hb h ho
  | documents options => exact Documents.twin_beside hb h ho

theorem reading_of_content {realm name : String}
    (ho : b.content s' (b.system.slot realm name) = b.content s (b.system.slot realm name)) :
    Alike (fun l l' => l' = l) (b.reading s realm name) (b.reading s' realm name) := by
  have same {x y : Except Fault (Option Lock)} (h : y = x) : Alike (fun l l' => l' = l) x y := by
    rw [h]
    exact .refl fun _ _ => rfl
  cases b with
  | memory => exact .ok ho
  | keyValue options => exact (KeyValue.looked_of_content ho).map fun _ _ hp => hp
  | table options => exact same (congrArg Table.reading ho)
  | items options => exact same (congrArg Items.reading ho)
  | documents options => exact same (congrArg Documents.reading ho)

/-- A request goes by what is stored for its lock, and changes nothing else. -/
theorem serve_beside (hb : b.Separate) (hs : b.Numbered s) (hs' : b.Numbered s') (v : TimedAsk)
    (ho : b.content s' (b.slotOf v) = b.content s (b.slotOf v)) (context context' : Context) :
    (b.serve v s' context').result = (b.serve v s context).result ∧
      Beside b.content (b.slotOf v) s s' (b.serve v s context).store
        (b.serve v s' context').store := by
  have hlasting : Lasting fun _ _ => True := ⟨fun _ _ => trivial, fun _ _ _ _ _ => trivial⟩
  have hbeside : Beside b.content (b.slotOf v)
      (b.atServerTime v.serverNow s) (b.atServerTime v.serverNow s')
      (b.atServerTime v.serverNow s) (b.atServerTime v.serverNow s') :=
    .start (by rw [content_atServerTime, content_atServerTime, ho])
  have hm : Matched (fun _ _ => True)
      (Beside b.content (b.slotOf v) (b.atServerTime v.serverNow s) (b.atServerTime v.serverNow s'))
        (fun a a' _ _ => a' = a)
      ((v.ask.session b.system.service v.timing).run (scripted b.system.client)
        (b.atServerTime v.serverNow s, []) context)
      ((v.ask.session b.system.service v.timing).run (scripted b.system.client)
        (b.atServerTime v.serverNow s', []) context') := by
    obtain ⟨ask, t, now⟩ := v
    cases ask with
    | get realm name =>
      refine twin_get_same t _ realm name hlasting trivial ?_
      refine twin_find hbeside ⟨rfl, fun _ => rfl⟩ ((reading_of_content hbeside.own).mono ?_)
      rintro l _ rfl
      exact ⟨rfl, fun _ => rfl⟩
    | operate kind realm name caller lease =>
      exact twin_operate_same t _ realm name lease hlasting hbeside (fun _ => trivial) fun now' _ =>
        twin_beside hb (check_claim kind realm name caller lease now') hs hs' now ho
  obtain ⟨-, -, hbeside, hresult⟩ := hm.plain
  refine ⟨hresult.eq, hbeside.own, fun j hj => (hbeside.left j hj).trans ?_,
    fun j hj => (hbeside.right j hj).trans ?_⟩
  · rw [content_atServerTime]
  · rw [content_atServerTime]

theorem slotOf_ne {v w : TimedAsk} (h : v.ask.lock ≠ w.ask.lock) : b.slotOf v ≠ b.slotOf w := by
  intro hslot
  obtain ⟨hr, hn⟩ := slot_inj hslot
  exact h (Prod.ext (Subtype.ext hr) (Subtype.ext hn))

/-- Two requests, the second on what the first has left. -/
def serveBoth (b : Backend) (v w : TimedAsk) (s : b.system.Store) (context : Context) :
    Run b.system.Store Answer × Run b.system.Store Answer :=
  (b.serve v s context, b.serve w (b.serve v s context).store (b.serve v s context).context)

end Backend

/-- Two requests for different locks come to the same in either order, and neither touches another
lock. -/
theorem independence (b : Backend) (hb : b.Separate) {s : b.system.Store} (hs : b.Reachable s)
    {v w : TimedAsk} (h : v.ask.lock ≠ w.ask.lock) (context : Context) :
    let (v₁, w₂) := b.serveBoth v w s context
    let (w₁, v₂) := b.serveBoth w v s context
    v₁.result = v₂.result ∧ w₂.result = w₁.result ∧ b.content w₂.store = b.content v₂.store ∧
      (∀ k, k ≠ b.slotOf v → b.content v₁.store k = b.content s k) ∧
      ∀ k, k ≠ b.slotOf w → b.content w₁.store k = b.content s k := by
  have hne := b.slotOf_ne h
  have hnum := hs.numbered
  -- alone, neither touches the lock of the other
  have hv := (Backend.serve_beside hb hnum hnum v rfl context context).2.left
  have hw := (Backend.serve_beside hb hnum hnum w rfl context context).2.left
  obtain ⟨hvresult, hvbeside⟩ :=
    Backend.serve_beside hb hnum (hnum.serve w context) v (hw _ hne) context
    (b.serve w s context).context
  obtain ⟨hwresult, hwbeside⟩ :=
    Backend.serve_beside hb hnum (hnum.serve v context) w (hv _ hne.symm) context
    (b.serve v s context).context
  refine ⟨hvresult.symm, hwresult, funext fun k => ?_, hv, hw⟩
  by_cases hkv : k = b.slotOf v
  · subst hkv
    exact (hwbeside.right _ hne).trans hvbeside.own.symm
  · by_cases hkw : k = b.slotOf w
    · subst hkw
      exact hwbeside.own.trans (hvbeside.right _ hkv).symm
    · calc b.content _ k = b.content (b.serve v s context).store k := hwbeside.right k hkw
        _ = b.content s k := hv k hkv
        _ = b.content (b.serve w s context).store k := (hw k hkw).symm
        _ = _ := (hvbeside.right k hkv).symm

/-- By the clock of the server, one lock is taken while another one is renewed in its last
second. -/
theorem independence_last_second :
    let b : Backend := .table ⟨"locks", true⟩
    let jobs : Identifier := ⟨"jobs", by decide⟩
    let ada : Caller := ⟨some "ada", ⟨"one", by decide⟩⟩
    let ten : Term := ⟨10, by decide⟩
    let held : TimedAsk := ⟨.operate .acquire jobs ⟨"weekly", by decide⟩ ada ten, still 0, 5⟩
    let v : TimedAsk := ⟨.operate .acquire jobs ⟨"nightly", by decide⟩ ada ten, still 7, 15⟩
    let w : TimedAsk := ⟨.operate .renew jobs ⟨"weekly", by decide⟩ ada ten, still 8, 10⟩
    let s := (b.serve held b.system.empty []).store
    b.Separate ∧ b.Reachable s ∧ v.ask.lock ≠ w.ask.lock ∧
    (b.serve v s []).result.toOption.bind Answer.success = some true ∧
    (b.serve w s []).result.toOption.bind Answer.success = some true ∧
    let (v₁, w₂) := b.serveBoth v w s []
    let (w₁, v₂) := b.serveBoth w v s []
    v₁.result = v₂.result ∧ w₂.result = w₁.result ∧ b.content w₂.store = b.content v₂.store ∧
      (∀ k, k ≠ b.slotOf v → b.content v₁.store k = b.content s k) ∧
      ∀ k, k ≠ b.slotOf w → b.content w₁.store k = b.content s k := by
  intro b jobs ada ten held v w s
  have hs : b.Reachable s :=
    .request (.atServerTime .empty 5) held.ask.unchecked (still 0)
      (exec_run (.inl (.inl rfl)) _ _ [])
  have hne : v.ask.lock ≠ w.ask.lock := by decide
  have hv : (b.serve v s []).result.toOption.bind Answer.success = some true := by decide +kernel
  have hw : (b.serve w s []).result.toOption.bind Answer.success = some true := by decide +kernel
  exact ⟨trivial, hs, hne, hv, hw, independence b trivial hs hne []⟩

end Leasehold
