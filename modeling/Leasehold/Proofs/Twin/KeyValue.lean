import Leasehold.Proofs.Execution.KeyValue
import Leasehold.Proofs.Twin

/-!
# Two runs on a key-value store

Operations that go on alike from what they read (`ProceedAlike`) run alike. Nobody else is there, so
that each commit goes through when it is made.
-/

namespace Leasehold.KeyValue
open Session
variable {Γ : Context → Context → Prop} {T : Store → Store → Prop} {s s' : Store}
  {options : Options} {op op' : Operation} {c c' : Claim} {r : String → String} {key : String}

/-- The record and the revision of a reading. -/
def parsed : Option (String × Nat) → Except Fault (Option Lock × Nat)
  | none => .ok (none, 0)
  | some (text, revision) => (ofRecordText text).map fun l => (some l, revision)

/-- The record under a key and the revision of its last change. -/
def looked (s : Store) (key : String) : Except Fault (Option Lock × Nat) :=
  parsed ((s.entries.find? key).map fun e => (e.value, e.modified))

theorem looked_of_find {e : Entry} {l : Lock} (hf : s.entries.find? key = some e)
    (hl : ofRecordText e.value = .ok l) :
    looked s key = .ok (some l, e.modified) := by
  simp only [looked, hf, Option.map_some, parsed, hl, Except.map]

theorem read_eq (key : String) : read key = (ask (I := interface) (.get key)).bind fun reply =>
    ofReading (parsed reply) := by
  refine congrArg (Session.bind _) (funext fun reply => ?_)
  cases reply with
  | none => rfl
  | some found => exact ofReading_map _ _

theorem twin_read_key {α β : Type} {R : α → β → Store → Store → Prop}
    {k : Option Lock × Nat → Session interface α} {k' : Option Lock × Nat → Session interface β}
    (hT : T s s') (h : Alike (fun p p' => Twin Γ T client R (k p) (k' p') s s') (looked s key)
      (looked s' key)) :
    Twin Γ T client R ((read key).bind k) ((read key).bind k') s s' := by
  rw [read_eq, Session.bind_assoc, Session.bind_assoc]
  exact twin_ask (I := interface) (.get key) (.get key) hT hT (.ok (twin_read hT h))

/-- How two operations go on from what they read: both keep the key, or their commits go through and
leave related stores. -/
inductive ProceedAlike (T : Store → Store → Prop) (s s' : Store) (key : String) (op op' : Operation)
    (p p' : Option Lock × Nat) : Prop
  | keep (h : op.effect p.1 = .keep) (h' : op'.effect p'.1 = .keep)
  | put {l l' : Lock} (h : op.effect p.1 = .put l) (h' : op'.effect p'.1 = .put l')
      (ready : s.holds (unchanged key p.2) = true) (ready' : s'.holds (unchanged key p'.2) = true)
      (granted : T (s.grant (timeToLive l op.now)).2 (s'.grant (timeToLive l' op'.now)).2)
      (text : Alike (fun text text' => T
          ((s.grant (timeToLive l op.now)).2.apply
            (.put key text (some (s.grant (timeToLive l op.now)).1)))
          ((s'.grant (timeToLive l' op'.now)).2.apply
            (.put key text' (some (s'.grant (timeToLive l' op'.now)).1))))
        (recordText l) (recordText l'))
  | delete (h : op.effect p.1 = .delete) (h' : op'.effect p'.1 = .delete)
      (ready : s.holds (unchanged key p.2) = true) (ready' : s'.holds (unchanged key p'.2) = true)
      (deleted : T (s.apply (.delete key)) (s'.apply (.delete key)))

theorem twin_commit {compare compare' : Compare} {change change' : Change} (hT : T s s')
    (ready : s.holds compare = true) (ready' : s'.holds compare' = true)
    (h : T (s.apply change) (s'.apply change')) :
    Twin Γ T client (fun b b' _ _ => b = true ∧ b' = true) (commit [compare] [change] [])
      (commit [compare'] [change'] [])
      s s' := by
  have hcommit {s : Store} {compare : Compare} (change : Change) (ready : s.holds compare = true) :
      client (.commit [compare] [change] []) s = (.ok true, s.apply change) := by
    simp only [client, List.all_cons, List.all_nil, Bool.and_true, ready, if_true, List.foldl_cons,
      List.foldl_nil]
  refine twin_call ?_ fun f => twin_fail hT
  rw [hcommit change ready, hcommit change' ready']
  exact twin_done h ⟨rfl, rfl⟩

theorem twin_put {l l' : Lock} {revision revision' : Nat} {now now' : Int} (hT : T s s')
    (ready : s.holds (unchanged key revision) = true)
    (ready' : s'.holds (unchanged key revision') = true)
    (granted : T (s.grant (timeToLive l now)).2 (s'.grant (timeToLive l' now')).2)
    (text : Alike (fun text text' => T
        ((s.grant (timeToLive l now)).2.apply (.put key text (some (s.grant (timeToLive l now)).1)))
        ((s'.grant (timeToLive l' now')).2.apply
          (.put key text' (some (s'.grant (timeToLive l' now')).1))))
      (recordText l) (recordText l')) :
    Twin Γ T client (fun b b' _ _ => b = true ∧ b' = true) (putIfUnchanged key revision l now)
      (putIfUnchanged key revision' l' now') s s' := by
  refine twin_ask (I := interface) (.grant (timeToLive l now))
    (.grant (timeToLive l' now')) hT granted (.ok ?_)
  refine twin_read granted (text.mono fun text text' htext => ?_)
  refine twin_bind (twin_commit granted ready ready' htext) ?_
  rintro _ _ _ _ hT ⟨rfl, rfl⟩
  exact twin_done hT ⟨rfl, rfl⟩

theorem twin_tries (hrealm : c'.realm = c.realm) (hname : c'.name = c.name) (hT : T s s')
    (hx : Alike (fun p p' => op'.decide p'.1 = (op.decide p.1).rename r ∧
        ProceedAlike T s s' (keyOf options c.realm c.name) op op' p p')
      (looked s (keyOf options c.realm c.name)) (looked s' (keyOf options c.realm c.name))) :
    Twin Γ T client (fun o o' _ _ => ∃ v, o = some v ∧ o' = some (v.rename r)) (tries options op c)
      (tries options op' c') s s' := by
  rw [tries, tries, hrealm, hname]
  refine twin_read_key hT (hx.mono ?_)
  rintro ⟨existing, revision⟩ ⟨existing', revision'⟩ ⟨hv, ha⟩
  have hcommitted {session session' : Session interface Bool}
      (h : Twin Γ T client (fun b b' _ _ => b = true ∧ b' = true) session session' s s') :
      Twin Γ T client (fun o o' _ _ => ∃ v, o = some v ∧ o' = some (v.rename r))
        (session.bind fun committed => done (if committed then some (op.decide existing) else none))
        (session'.bind fun committed => done
          (if committed then some (op'.decide existing') else none)) s s' := by
    refine twin_bind h ?_
    rintro _ _ _ _ hT ⟨rfl, rfl⟩
    exact twin_done hT ⟨_, rfl, congrArg some hv⟩
  dsimp only
  cases ha with
  | keep h h' =>
    rw [h, h']
    exact twin_done hT ⟨_, rfl, congrArg some hv⟩
  | put h h' ready ready' granted text =>
    rw [h, h']
    exact hcommitted (twin_put hT ready ready' granted text)
  | delete h h' ready ready' deleted =>
    rw [h, h']
    exact hcommitted (twin_commit hT ready ready' deleted)

theorem twin_attempt (h : op.Twins op' c c') (hT : T s s')
    (hx : Alike (fun p p' => op'.decide p'.1 = (op.decide p.1).rename r ∧
        ProceedAlike T s s' (keyOf options c.realm c.name) op op' p p')
      (looked s (keyOf options c.realm c.name)) (looked s' (keyOf options c.realm c.name))) :
    Twin Γ T client (RenamesVerdict r) (op.attempt (service options) c)
      (op'.attempt (service options) c') s s' := by
  rw [attempt_eq options h.check, attempt_eq options h.check', operate, operate, h.kind]
  simp only [Claim.raw_realm, Claim.raw_name, h.realm, h.name]
  refine Service.twin_guarded ?_ fun _ _ _ => rfl
  rw [bind_eq, bind_eq, retry, retry, Session.bind_assoc, Session.bind_assoc]
  refine twin_bind (twin_tries h.realm h.name hT hx) ?_
  rintro _ _ _ _ hT ⟨v, rfl, rfl⟩
  exact twin_done hT rfl
/-! ### Other instance ids -/

section Renamed

theorem recordText_rename (hl : l.IsRecord) :
    Alike (fun text text' => recordText l = .ok text ∧ recordText (l.rename r) = .ok text')
    (recordText l) (recordText (l.rename r)) := by
  obtain ⟨rec, rfl⟩ := hl
  have hlong : ((rec.rename r).lease.any Number.isTooLong || (rec.rename r).expiry.any
    Number.isTooLong) =
    (rec.lease.any Number.isTooLong || rec.expiry.any Number.isTooLong) := rfl
  rw [← Record.lock_rename, recordText_lock, recordText_lock, hlong]
  split
  · exact .error _
  · exact .ok ⟨rfl, rfl⟩

theorem timeToLive_rename (l : Lock) (now : Int) :
    timeToLive (l.rename r) now = timeToLive l now := rfl

theorem revision_of_looked {p : Option Lock × Nat} (h : looked s key = .ok p) :
    p.2 = (s.entries.find? key).elim 0 Entry.modified := by
  simp only [looked] at h
  cases hf : s.entries.find? key with
  | none =>
    rw [hf] at h
    cases h
    rfl
  | some e =>
    simp only [hf, Option.map_some, parsed] at h
    cases hl : ofRecordText e.value with
    | error f => rw [hl] at h; cases h
    | ok l =>
      rw [hl] at h
      cases h
      rfl

/-- The entries of a lock in two stores, and what may become of them. -/
structure Entries (r : String → String) (T : Store → Store → Prop) (s s' : Store)
    (key : String) : Prop where
  left : T s s'
  good : Good s
  good' : Good s'
  found : Alike (fun p p' => p'.1 = p.1.map (Lock.rename r)) (looked s key) (looked s' key)
  granted : ∀ ttl, T (s.grant ttl).2 (s'.grant ttl).2
  put : ∀ {l text text'} (ttl : Int), l.IsRecord → recordText l = .ok text →
    recordText (l.rename r) = .ok text' →
    T ((s.grant ttl).2.apply (.put key text (some (s.grant ttl).1)))
      ((s'.grant ttl).2.apply (.put key text' (some (s'.grant ttl).1)))
  delete : T (s.apply (.delete key)) (s'.apply (.delete key))

theorem twin_renamed (hr : r.Injective) (h : op.Twins (op.rename r) c (c.rename r))
    (he : Entries r T s s' (keyOf options c.realm c.name)) :
    Twin Γ T client (RenamesVerdict r) (op.attempt (service options) c)
      ((op.rename r).attempt (service options) (c.rename r))
      s s' := by
  refine twin_attempt h he.left (he.found.of_ok.mono ?_)
  rintro ⟨existing, revision⟩ ⟨_, revision'⟩ ⟨hp, hp', rfl⟩
  obtain rfl := revision_of_looked hp
  obtain rfl := revision_of_looked hp'
  have ready := holds_unchanged he.good (keyOf options c.realm c.name)
  have ready' := holds_unchanged he.good' (keyOf options c.realm c.name)
  have heffect := Operation.effect_rename hr op existing
  refine ⟨Operation.decide_rename hr op existing, ?_⟩
  cases ho : op.effect existing with
  | keep => exact .keep ho (heffect.trans (by rw [ho]; rfl))
  | put l =>
    have hput : (op.rename r).effect (existing.map (Lock.rename r)) = .put (l.rename r) :=
      heffect.trans (by rw [ho]; rfl)
    have hnow : (op.rename r).now = op.now := rfl
    have hl : l.IsRecord := Operation.isRecord_of_put h.check ho
    refine .put ho hput ready ready' ?_ ((recordText_rename hl).mono fun text text' ht => ?_)
    · rw [hnow, timeToLive_rename]
      exact he.granted _
    · rw [hnow, timeToLive_rename]
      exact he.put _ hl ht.1 ht.2
  | delete => exact .delete ho (heffect.trans (by rw [ho]; rfl)) ready ready' he.delete

end Renamed

theorem twin_find {R : Option Lock → Option Lock → Prop} {realm name : String} (hT : T s s')
    (hnone : R none none)
    (h : Alike (fun p p' => R p.1 p'.1) (looked s (keyOf options realm name))
      (looked s' (keyOf options realm name))) :
    Twin Γ T client (fun l l' _ _ => R l l') (find options realm name)
      (find options realm name) s s' := by
  refine Service.twin_guarded ?_ fun _ _ _ => hnone
  exact twin_read_key hT (h.mono fun _ _ hl => twin_done hT hl)

end Leasehold.KeyValue
