import Leasehold.Proofs.Execution.Documents
import Leasehold.Proofs.Session.Interference

/-!
# Transactions that are run again

An operation on documents is a function that the client library runs in a transaction: it commits
what the function wants written if the documents that it read are still as they were, and runs it
again otherwise, until it gives up. `operation_rerun` says that this is atomic, however often the
library tries, whatever others write in the meantime and whichever calls fail: the answer is the
decision on the record that the committed attempt read, nothing else is written, and without a
committed attempt nothing is written and the operation fails.
-/

namespace Leasehold.Documents
open Session

/-! ### Transactions on a shared store -/

/-- The documents, and what the transaction has read of them. -/
structure Watched where
  store : Store
  reads : List (String × Option Value.Fields)

/-- Every document that was read is still what it was. -/
def Watched.Unchanged (w : Watched) : Prop := ∀ read ∈ w.reads, Assoc.find? w.store read.1 = read.2

/-- The client, with transactions whose commit is aborted when what they read is not `valid` any
more. -/
def contended (valid : Watched → Bool) : Client interface Watched
  | .begin _, w => (.ok (), { w with reads := [] })
  | .get path inTransaction, w =>
    let data := Assoc.find? w.store path
    (.ok data, if inTransaction then { w with reads := w.reads ++ [(path, data)] } else w)
  | .commit writes, w =>
    if valid w then (.ok (), ⟨writes.foldl Write.apply w.store, []⟩)
    else (.error (.reported .aborted none "aborted"), w)
  | .rollback, w => (.ok (), { w with reads := [] })

/-- The clients that commit only what is based on unchanged documents. Any of their calls may
fail. -/
def library : Set (Client interface Watched) :=
  troubled {cl | ∃ valid, (∀ w, valid w = true → w.Unchanged) ∧ cl = contended valid} fun _ => True

/-- What others may do: they write documents. -/
def Rivals (w w' : Watched) : Prop := w'.reads = w.reads

def Silent (m : Exchange interface Watched) : Prop := m.after.store = m.before.store

/-- The call is a commit that was aborted. -/
def isAborted : Exchange interface Watched → Bool
  | ⟨.commit _, _, .error f, _⟩ => f.kind = .aborted
  | _ => false

theorem isAborted_begin {m : Exchange interface Watched} {again : Bool}
    (h : m.call = .begin again) :
    isAborted m = false := by
  obtain ⟨call, before, reply, after⟩ := m
  cases h
  rfl

/-! ### Attempts -/

section Tries
variable {α : Type}

/-- Tries `body` up to `left` times, and ends in `spent` when every commit was aborted. -/
def tries (spent : Fault) (body : Session interface (α × List Write)) :
    (left : Nat) → (again : Bool) →
    Session interface α
  | 0, _ => giveUp (.fault spent)
  | left + 1, again =>
    let opened := (ask (I := interface) (.begin again)).bind fun _ => body
    (opened.rescue (fun _ => true) giveUp).bind fun (a, writes) =>
      .call (.commit writes) fun
        | .ok _ => .done a
        | .error f => if f.kind = .aborted then tries spent body left true else giveUp (.fault f)

theorem attempt_eq_tries (body : Session interface (α × List Write)) (left : Nat) (again : Bool) :
    attempt body left again = tries (.contention maxAttempts) body left again := by
  induction left generalizing again with
  | zero => rfl
  | succ left ih =>
    simp only [attempt, ih]
    rfl

end Tries

theorem ensures_opened {α β σ : Type} {clients : Set (Client interface σ)}
    {Q : Except Error β → σ → Prop} {opened : Session interface α}
    {k : α → Session interface β} {s : σ} (h : Ensures clients (fun r t => match r with
      | .ok a => Ensures clients Q (k a) t
      | .error e => Ensures clients Q (giveUp e) t) opened s) :
    Ensures clients Q ((opened.rescue (fun _ => true) giveUp).bind k) s := by
  rw [ensures_bind, ensures_rescue]
  refine h.mono fun r t hr => ?_
  cases r with
  | ok a => exact hr
  | error e =>
    replace hr : Ensures clients Q ((giveUp e).bind k) t := hr
    simp only [if_true]
    exact ensures_bind.mp hr

/-- A transaction that is given up is rolled back, which changes no document. -/
theorem ensures_giveUp {α : Type}
    {Q : Except Error α → Watched × List (Exchange interface Watched) → Prop} {e : Error}
    {w : Watched} {ms : List (Exchange interface Watched)}
    (h : ∀ w' m, Silent m → isAborted m = false → Q (.error e) (w', ms ++ [m])) :
    Ensures (interfered library Rivals) Q (giveUp e) (w, ms) := by
  refine .call_interfered (forall_troubled.mpr ⟨?_, ?_⟩)
  · rintro _ ⟨valid, -, rfl⟩ t -
    exact ensures_fail.mpr (h _ (exchange (contended valid) .rollback t) rfl rfl)
  · rintro f - t -
    exact ensures_fail.mpr (h _ (exchange (failing f) .rollback t) rfl rfl)

/-! ### Operations -/

section Operation
variable (options : Options) (op : Operation) (c : Claim) (bound : Nat)

/-- The course of an operation, by its exchanges with the store. -/
inductive Rerun : Except Error Answer → List (Exchange interface Watched) → Prop
  /-- The last attempt read `data` and committed when the document was still the same. What it
  wanted written was applied, and nothing else. -/
  | committed {earlier : List (Exchange interface Watched)} {opened : Exchange interface Watched}
    {again : Bool}
      {data : Option Value.Fields} {existing : Option Lock} {ws : List Write} {s s' t t' : Watched}
      (hearlier : ∀ m ∈ earlier, Silent m) (haborts : earlier.countP isAborted < bound)
      (hopened : opened.call = .begin again) (hsilent : Silent opened)
      (hread : Assoc.find? s.store (pathOf options c.realm c.name) = data)
        (hreads : s'.store = s.store)
      (hexisting : reading data = .ok existing) (hws : writes options op c existing = .ok ws)
      (hunchanged : Assoc.find? t.store (pathOf options c.realm c.name) = data)
      (hcommit : t'.store = ws.foldl Write.apply t.store) :
      Rerun (.ok (op.answer (op.decide existing))) (earlier ++ [opened,
        ⟨.get (pathOf options c.realm c.name) true, s, .ok data, s'⟩, ⟨.commit ws, t, .ok (), t'⟩])
  /-- Nothing was written. When all the attempts ran out, there is an answer. -/
  | failed {r : Except Error Answer} {ms : List (Exchange interface Watched)}
    (hsilent : ∀ m ∈ ms, Silent m)
      (hr : ∀ a, r = .ok a → a = op.answer (op.kind.failed, none))
      (hspent : ms.countP isAborted = bound → r = .ok (op.answer (op.kind.failed, none))) :
        Rerun r ms

/-- The operation with a library that tries a transaction `bound` times and ends in `spent`. -/
def rerun (event : String) (spent : Fault) : Session interface Answer :=
  (Service.guarded (Service.answersFor answered) event c.realm c.name (op.kind.failed, none)
    (tries spent (body options op c) bound false)).bind fun v =>
      (service options).finish (v.2.getD op.lock) v.1

end Operation

section Operation
variable {options : Options} {op : Operation} {c : Claim} {bound : Nat} {spent : Fault}

variable (options) in
theorem session_eq_rerun (h : op.check = .ok c) : ∃ event,
    op.session (service options) = rerun options op c maxAttempts event
      (.contention maxAttempts) := by
  refine ⟨op.kind.event, ?_⟩
  rw [op.session_of_check _ h, attempt_eq options h, operate, transaction, attempt_eq_tries]
  rfl

/-- What an operation comes to when the library ends in `r`. -/
def replied (op : Operation) (r : Except Error Verdict) : Except Error Answer :=
  recovered (Service.answersFor answered) (op.answer (op.kind.failed, none)) (r.map op.answer)

theorem Rerun.givenUp {e : Error} {ms : List (Exchange interface Watched)}
    (hsilent : ∀ m ∈ ms, Silent m)
    (hspent : ms.countP isAborted = bound → ∃ f, e = .fault f ∧ f.kind ∈ answered) :
    Rerun options op c bound (replied op (.error e)) ms := by
  refine .failed hsilent (fun a ha => ?_) fun hb => ?_
  · rcases recovered_ok ha with ha | rfl
    · cases ha
    · rfl
  · obtain ⟨f, rfl, hf⟩ := hspent hb
    exact recovered_fault hf

/-- Every attempt so far was aborted, and `left` of them are left. -/
structure Trying (bound left : Nat) (ms : List (Exchange interface Watched)) : Prop where
  silent : ∀ m ∈ ms, Silent m
  aborts : ms.countP isAborted + left = bound

namespace Trying
variable {left : Nat} {ms : List (Exchange interface Watched)} {m : Exchange interface Watched}

theorem silent_concat (h : Trying bound left ms) (hm : Silent m) : ∀ m' ∈ ms ++ [m], Silent m' := by
  intro m' hm'
  rcases List.mem_append.mp hm' with hm' | hm'
  · exact h.silent m' hm'
  · rw [List.mem_singleton.mp hm']
    exact hm

theorem next (h : Trying bound left ms) (hm : Silent m) (ha : isAborted m = false) :
    Trying bound left (ms ++ [m]) where
  silent := h.silent_concat hm
  aborts := by
    rw [List.countP_append, List.countP_singleton, ha]
    exact h.aborts

theorem abort (h : Trying bound (left + 1) ms) (hm : Silent m) (ha : isAborted m = true) :
    Trying bound left (ms ++ [m]) where
  silent := h.silent_concat hm
  aborts := by
    have haborts := h.aborts
    rw [List.countP_append, List.countP_singleton, ha, if_pos rfl]
    omega

theorem givenUp (h : Trying bound (left + 1) ms) (e : Error) :
    Rerun options op c bound (replied op (.error e)) ms := by
  refine .givenUp h.silent fun hb => ?_
  have haborts := h.aborts
  omega

end Trying

/-! ### The calls of an attempt -/

section Calls
variable {w : Watched} {ms : List (Exchange interface Watched)}

theorem ensures_begin {α : Type}
    {Q : Except Error α → Watched × List (Exchange interface Watched) → Prop} {again : Bool}
    {next : Session interface α}
    (hok : ∀ t m, t.reads = [] → m.call = .begin again → Silent m →
      Ensures (interfered library Rivals) Q next (t, ms ++ [m]))
    (hfail : ∀ e t m, Silent m → isAborted m = false → Q (.error e) (t, ms ++ [m])) :
    Ensures (interfered library Rivals) Q ((ask (I := interface) (.begin again)).bind fun _ => next)
      (w, ms) := by
  rw [ensures_bind]
  refine .ask_interfered (forall_troubled.mpr ⟨?_, ?_⟩)
  · rintro _ ⟨valid, -, rfl⟩ t -
    exact hok _ _ rfl rfl rfl
  · rintro f - t -
    exact hfail _ _ _ rfl rfl

theorem ensures_decided
    {Q : Except Error (Verdict × List Write) → Watched × List (Exchange interface Watched) → Prop}
    (hw : w.reads = []) (hok : ∀ s s' data v ws, Assoc.find? s.store
      (pathOf options c.realm c.name) = data → s'.store = s.store →
      s'.reads = [(pathOf options c.realm c.name, data)] →
      conclude options op c data = .ok (v, ws) →
      Q (.ok (v, ws)) (s', ms ++ [⟨.get (pathOf options c.realm c.name) true, s, .ok data, s'⟩]))
    (hfail : ∀ e t m, Silent m → isAborted m = false → Q (.error e) (t, ms ++ [m])) :
    Ensures (interfered library Rivals) Q (body options op c) (w, ms) := by
  rw [body, ensures_bind]
  refine .ask_interfered (forall_troubled.mpr ⟨?_, ?_⟩)
  · rintro _ ⟨valid, -, rfl⟩ s hs
    show Ensures _ _ ((ofReading (conclude options op c (Assoc.find? s.store _))).bind
      fun p => done (id p)) _
    cases hx : conclude options op c (Assoc.find? s.store (pathOf options c.realm c.name)) with
    | error f => exact ensures_fail.mpr (hfail _ _ _ rfl rfl)
    | ok p =>
      refine ensures_done.mpr (hok s _ _ p.1 p.2 rfl rfl ?_ hx)
      show s.reads ++ [_] = _
      rw [show s.reads = [] from hs.trans hw, List.nil_append]
  · rintro f - t -
    exact hfail _ _ _ rfl rfl

theorem ensures_commit {α : Type}
    {Q : Except Error α → Watched × List (Exchange interface Watched) → Prop} {path : String}
    {data : Option Value.Fields} {ws : List Write} {next : Except Fault Unit → Session interface α}
    (hw : w.reads = [(path, data)])
    (hok : ∀ t t', Assoc.find? t.store path = data → t'.store = ws.foldl Write.apply t.store →
      Ensures (interfered library Rivals) Q (next (.ok ()))
        (t', ms ++ [⟨.commit ws, t, .ok (), t'⟩]))
    (hfail : ∀ f t m, Silent m → isAborted m = decide (f.kind = .aborted) →
      Ensures (interfered library Rivals) Q (next (.error f)) (t, ms ++ [m])) :
    Ensures (interfered library Rivals) Q (.call (I := interface) (.commit ws) next) (w, ms) := by
  refine .call_interfered (forall_troubled.mpr ⟨?_, ?_⟩)
  · rintro _ ⟨valid, hvalid, rfl⟩ t ht
    have hreads : t.reads = [(path, data)] := Eq.trans ht hw
    cases hv : valid t with
    | true =>
      have hcommit : contended valid (.commit ws) t =
        (.ok (), ⟨ws.foldl Write.apply t.store, []⟩) := if_pos hv
      rw [exchange, hcommit]
      exact hok t _ (hvalid t hv (path, data) (by rw [hreads]; exact List.mem_cons_self)) rfl
    | false =>
      have hcommit : contended valid (.commit ws) t =
        (.error (.reported .aborted none "aborted"), t) :=
        if_neg (by rw [hv]; exact Bool.false_ne_true)
      rw [exchange, hcommit]
      exact hfail _ _ _ rfl rfl
  · rintro f - t -
    exact hfail f _ _ rfl rfl

end Calls

theorem ensures_tries (hspent : spent.kind ∈ answered) {left : Nat} {again : Bool} {w : Watched}
    {ms : List (Exchange interface Watched)} (h : Trying bound left ms) :
    Ensures (interfered library Rivals) (fun r p => Rerun options op c bound (replied op r) p.2)
      (tries spent (body options op c) left again) (w, ms) := by
  induction left generalizing again w ms with
  | zero =>
    exact ensures_giveUp fun w' m hm _ => .givenUp (h.silent_concat hm) fun _ =>
      ⟨spent, rfl, hspent⟩
  | succ left ih =>
    have hgiveUp {e : Error} {t : Watched} {ms : List (Exchange interface Watched)}
      (h : Trying bound (left + 1) ms) :
        Ensures (interfered library Rivals) (fun r p => Rerun options op c bound (replied op r) p.2)
          (giveUp e : Session interface Verdict) (t, ms) :=
      ensures_giveUp fun _ m hm ha => (h.next hm ha).givenUp e
    refine ensures_opened
      (ensures_begin (fun t opened hreads hcall hopened => ?_) fun e t m hm ha => ?_)
    · have hbegun := h.next hopened (isAborted_begin hcall)
      refine ensures_decided hreads (fun s s' data v ws hread hs hread' hx => ?_) fun e t m hm ha =>
        ?_
      · have hdecided :=
          hbegun.next (m := ⟨.get (pathOf options c.realm c.name) true, s, .ok data, s'⟩) hs rfl
        refine ensures_commit hread' (fun t t' hunchanged hcommit => ?_) fun f t m hm ha => ?_
        · obtain ⟨existing, hexisting, rfl, hws⟩ := conclude_eq_ok hx
          have haborts := h.aborts
          rw [ensures_done, List.append_assoc, List.append_assoc]
          exact .committed h.silent (by omega) hcall hopened hread hs hexisting hws
            hunchanged hcommit
        · dsimp only
          split
          · rename_i hf
            exact ih (hdecided.abort hm (ha.trans (decide_eq_true hf)))
          · rename_i hf
            exact hgiveUp (hdecided.next hm (ha.trans (decide_eq_false hf)))
      · exact hgiveUp (hbegun.next hm ha)
    · exact hgiveUp (h.next hm ha)

end Operation

/-- An operation on documents is atomic, however often it is run again. -/
theorem operation_rerun {options : Options} {op : Operation} {c : Claim} (h : op.check = .ok c) :
    (∀ (bound : Nat) (event : String) (spent : Fault), spent.kind ∈ answered → ∀ w : Watched,
      Ensures (interfered library Rivals) (fun r p => Rerun options op c bound r p.2)
        (rerun options op c bound event spent)
        (w, [])) ∧
    ∀ w : Watched, Ensures (interfered library Rivals)
      (fun r p => Rerun options op c maxAttempts r p.2) (op.session (service options)) (w, []) := by
  have hrerun (bound : Nat) (event : String) (spent : Fault) (hspent : spent.kind ∈ answered)
    (w : Watched) :
      Ensures (interfered library Rivals) (fun r p => Rerun options op c bound r p.2)
        (rerun options op c bound event spent)
        (w, []) := by
    rw [rerun, Operation.ensures_finish, Service.ensures_guarded]
    simp only [recovered_map]
    exact ensures_tries hspent ⟨fun _ hm => absurd hm List.not_mem_nil, Nat.zero_add bound⟩
  refine ⟨hrerun, fun w => ?_⟩
  obtain ⟨event, he⟩ := session_eq_rerun options h
  rw [he]
  exact hrerun maxAttempts event (.contention maxAttempts) (by decide) w

/-- A lock that is taken at first and then given back is acquired by the second attempt. -/
theorem operation_rerun_raced :
    let ada : Claim := ⟨"jobs", "nightly", "ada", "one"⟩
    let bob : Claim := ⟨"jobs", "nightly", "bob", "two"⟩
    let op : Operation := ⟨.acquire, ada.record (some 10) (some 15), 5⟩
    let held : Watched :=
      ⟨[(pathOf {} "jobs" "nightly", (bob.lock (some 10) (some 15)).toFields)], []⟩
    op.check = .ok ada ∧ ∃ p, Exec (interfered library Rivals) (op.session (service {})) (held, [])
        (.ok (op.answer (.acquired, none))) p ∧ p.2.countP isAborted = 1 ∧
      Rerun {} op ada maxAttempts (.ok (op.answer (.acquired, none))) p.2 := by
  intro ada bob op held
  have hcheck : op.check = .ok ada := rfl
  -- the library commits when what was read was not there and still is not
  let absent : Watched → Bool := fun w => w.reads.all fun read =>
    read.2.isNone && (Assoc.find? w.store read.1).isNone
  have hclient : contended absent ∈ library := by
    refine .inl ⟨absent, fun w hw read hread => ?_, rfl⟩
    have hnone := List.all_eq_true.mp hw read hread
    rw [Bool.and_eq_true, Option.isNone_iff_eq_none, Option.isNone_iff_eq_none] at hnone
    rw [hnone.1, hnone.2]
  let alone : Watched → Watched := id
  let freed : Watched → Watched := fun w => { w with store := [] }
  have hrun : Exec (interfered library Rivals) (op.session (service {})) (held, [])
    (.ok (op.answer (.acquired, none))) _ :=
    .call_interfered hclient alone (fun _ => rfl) <| .call_interfered hclient alone
      (fun _ => rfl) <|
    .call_interfered hclient freed (fun _ => rfl) <| .call_interfered hclient alone
      (fun _ => rfl) <|
    .call_interfered hclient alone (fun _ => rfl) <| .call_interfered hclient alone
      (fun _ => rfl) <|
    .amend <| .note <| exec_done_iff.mpr ⟨rfl, rfl⟩
  exact ⟨hcheck, _, hrun, rfl, (operation_rerun hcheck).2 held _ _ hrun⟩

end Leasehold.Documents
