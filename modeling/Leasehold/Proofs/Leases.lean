import Leasehold.Proofs.Execution.Stages

/-!
# Leases of a key-value store

Revoking a lease takes every key along that hangs on it. The services revoke only what they were
granted themselves and have not put a record under (`leasing`), so among any number of them,
whatever calls fail, no revocation ever removes a lock, and every lock hangs on a running lease that
was granted to whoever wrote it (`revocation_spares_locks`).

`CallEffect` lists all that a call of theirs can do to the store. `Leased` is what keeps the tokens
of all of them apart, and `LeaseHistory` what a history says of the leases.
-/

namespace Leasehold.KeyValue
open Session

/-- The tokens of the services: each holds the lease that it has been granted last, until a record
is put under it or it is to be revoked. -/
def leasing : Protocol interface (Option Nat) := ⟨none, May, track⟩

/-! ### Who follows -/

section Follows
variable {options : Options} {op : Operation}

def Place.lease : Place op → Option Nat
  | .put _ _ _ lease _ => some lease
  | .revoke lease => some lease
  | .through _ left => left
  | _ => none

theorem lease_decided (existing : Option Lock) (revision : Nat) :
    (decided op existing revision).lease = none := by
  refine decided_cases ?_ (fun l hl => ?_) fun hd => ?_ <;> rfl

theorem lease_again (lost : Nat) : (again options op lost).place.lease = none := by
  refine again_cases (fun h => ?_) fun h => ?_ <;> rfl

theorem along_leasing {c : Claim} (hc : op.check = .ok c) :
    (protocol options op).Along leasing (fun p => p.place.lease) where
  start := rfl
  may := by
    rintro ⟨lost, place⟩ call hmay
    cases place with
    | put _ _ text lease h =>
      cases hmay
      obtain ⟨l, he, ht⟩ := h
      exact ⟨rfl, .inl ⟨_, text, lease, l, rfl, rfl, ofRecordText_recordText
        (Operation.isRecord_of_put hc he) ht⟩⟩
    | delete => cases hmay; exact ⟨rfl, .inr ⟨_, rfl⟩⟩
    | read | grant => cases hmay; trivial
    | revoke => cases hmay; rfl
    | through => cases hmay
  next := by
    rintro ⟨lost, place⟩ call reply hmay
    have hmoves := moves_of_may hmay reply
    generalize (protocol options op).next ⟨lost, place⟩ call reply = p' at hmoves ⊢
    cases hmoves with
    | absent | found => exact lease_decided _ _
    | forestalled | revoked => exact lease_again _
    | unreadable | granted | unwritable | written | beaten | deleted => rfl
    | failed f hc =>
      cases place with
      | through => cases hc
      | read | grant | put | delete | revoke => cases hc; rfl

theorem follows_find (realm name : String) :
    (find options realm name).Follows leasing (fun _ _ => True) none := by
  rw [find, Service.guarded, follows_rescue, bind_eq, follows_bind, read, bind_eq, follows_bind]
  refine follows_ask trivial fun reply => ?_
  rcases reply with f | _ | ⟨text, revision⟩
  · trivial
  · trivial
  · dsimp only [Except.mapError]
    cases ofRecordText text <;> trivial

theorem follows_task (options : Options) (task : Task) :
    (task.session (service options)).Follows leasing (fun _ _ => True) none := by
  cases task with
  | find realm name =>
    rw [Task.session, follows_bind, Service.getLock, bind_eq, follows_bind]
    cases RawClaim.checkKey (realm.map .text) (name.map .text) with
    | error e => trivial
    | ok key =>
      exact (follows_find (realm.getD "") (name.getD "")).mono fun r _ _ => by cases r <;> trivial
  | operate op =>
    rw [Task.session, follows_bind]
    cases hc : op.check with
    | error e =>
      rw [op.session_of_error _ hc]
      trivial
    | ok c =>
      refine ((follows_session options op).along (along_leasing hc)).mono fun r _ _ => ?_
      cases r <;> trivial

end Follows

/-! ### What a call does -/

/-- Nothing hangs on the lease. -/
def Unattached (n : Nat) (s : Store) : Prop := ∀ e ∈ s.entries, e.2.lease ≠ some n

/-- The call put a record under the lease, or deleted the key. -/
def Writes (k : String) (m : Exchange interface Store) : Prop :=
  (∃ compares text lease, m.step = ⟨.commit compares [.put k text lease] [], .ok true⟩) ∨
    ∃ compares, m.step = ⟨.commit compares [.delete k] [], .ok true⟩

/-- All that a call of a service with token `g` can do, and the token after it. A call that fails
does nothing, and a lease that could not be revoked counts as given back. -/
inductive CallEffect (g : Option Nat) (s : Store) : Exchange interface Store → Option Nat → Prop
  | nothing {c : Call} {reply : Except Fault (Reply c)} (hw : ∀ k, ¬ Writes k ⟨c, s, reply, s⟩)
    (hr : ∀ n, c ≠ .revoke n) : CallEffect g s ⟨c, s, reply, s⟩ g
  | granted (ttl : Int) : CallEffect g s ⟨.grant ttl, s, .ok (s.grant ttl).1, (s.grant ttl).2⟩
    (some (s.grant ttl).1)
  | put {compares : List Compare} {key text : String} {n : Nat} (hg : g = some n) :
    CallEffect g s ⟨.commit compares [.put key text (some n)] [], s, .ok true,
      s.apply (.put key text (some n))⟩ none
  | deleted {compares : List Compare} {key : String} :
    CallEffect g s ⟨.commit compares [.delete key] [], s, .ok true, s.apply (.delete key)⟩ none
  | revoked {n : Nat} (hg : g = some n) : CallEffect g s ⟨.revoke n, s, .ok (), s.revoke n⟩ none
  | unrevoked {n : Nat} {f : Fault} (hg : g = some n) : CallEffect g s
    ⟨.revoke n, s, .error f, s⟩ none

theorem callEffect {P : Fault → Prop} {g : Option Nat} {s : Store} {c : Call}
    {cl : Client interface Store} (hmay : leasing.may g c) (hcl : cl ∈ troubled {client} P) :
    CallEffect g s (exchange cl c s) (leasing.next g c (cl c s).1) := by
  rcases hcl with rfl | ⟨f, -, rfl⟩
  · cases c with
    | get key =>
      exact .nothing (by rintro k (⟨_, _, _, h⟩ | ⟨_, h⟩) <;> cases h) fun _ h => by cases h
    | grant ttl => exact .granted ttl
    | commit compares success failure =>
      obtain ⟨rfl, hmay⟩ := hmay
      simp only [exchange, client]
      cases compares.all s.holds with
      | false =>
        exact .nothing (by rintro k (⟨_, _, _, h⟩ | ⟨_, h⟩) <;> cases h) fun _ h => by cases h
      | true =>
        rcases hmay with ⟨key, text, n, l, rfl, hg, -⟩ | ⟨key, rfl⟩
        · exact .put hg
        · exact .deleted
    | revoke n => exact .revoked hmay
  · cases c with
    | get | grant | commit =>
      exact .nothing (by rintro k (⟨_, _, _, h⟩ | ⟨_, h⟩) <;> cases h) fun _ h => by cases h
    | revoke n => exact .unrevoked hmay

section CallEffect
variable {g g' : Option Nat} {s : Store} {m : Exchange interface Store} {n : Nat}

theorem CallEffect.before (h : CallEffect g s m g') : m.before = s := by
  cases h <;> rfl

theorem CallEffect.token (h : CallEffect g s m g') (hm : m.call = .revoke n) : g = some n := by
  cases h with
  | nothing _ hr => exact absurd hm (hr n)
  | revoked hg | unrevoked hg => cases hm; exact hg
  | granted | put | deleted => cases hm

theorem CallEffect.running (h : CallEffect g s m g') (hm : m.call ≠ .revoke n)
    (hn : (s.leases.find? n).isSome = true) :
    (m.after.leases.find? n).isSome = true := by
  cases h with
  | granted ttl =>
    show ((s.leases.put (s.granted + 1) ttl).find? n).isSome = true
    rw [Assoc.find?_put]
    split
    · rfl
    · exact hn
  | @revoked n' =>
    show ((s.leases.erase n').find? n).isSome = true
    rw [Assoc.find?_erase_ne (by rintro rfl; exact hm rfl)]
    exact hn
  | nothing | put | deleted | unrevoked => exact hn

/-- Whoever revokes a lease of his own removes nothing. -/
theorem CallEffect.spares (h : CallEffect g s m g') (ho : Owns g s) (hm : m.call = .revoke n) :
    m.after.entries = s.entries := by
  cases h with
  | nothing _ hr => exact absurd hm (hr n)
  | revoked hg => exact entries_revoke (hg ▸ ho)
  | unrevoked => rfl
  | granted | put | deleted => cases hm

theorem CallEffect.granted_le (h : CallEffect g s m g') : s.granted ≤ m.after.granted := by
  cases h with
  | granted => exact Nat.le_succ _
  | nothing | put | deleted | revoked | unrevoked => exact Nat.le_refl _

/-- Nothing is put under a lease but by whoever holds it. -/
theorem CallEffect.owns {g₂ : Option Nat} (h : CallEffect g s m g') (ho : Owns g s)
    (ho₂ : Owns g₂ s) (ha : ∀ n, g = some n → g₂ ≠ some n) : Owns g₂ m.after := by
  cases h with
  | nothing | unrevoked => exact ho₂
  | granted => exact fun n hn => ⟨Nat.le_succ_of_le (ho₂ n hn).1, (ho₂ n hn).2⟩
  | put hg => exact ho₂.put (ha _ hg)
  | deleted => exact ho₂.delete _
  | revoked hg =>
    refine fun n hn => ⟨(ho₂ n hn).1, ?_⟩
    rw [show (s.revoke _).entries = s.entries from entries_revoke (hg ▸ ho)]
    exact (ho₂ n hn).2

/-- An entry was there before, or it has just been put under the token. -/
theorem CallEffect.entry (h : CallEffect g s m g') (ho : Owns g s) {k : String} {e : Entry}
    (he : m.after.entries.find? k = some e) :
    ¬ Writes k m ∧ s.entries.find? k = some e ∨
      ∃ n compares, g = some n ∧ e.lease = some n ∧
        m.step = ⟨.commit compares [.put k e.value (some n)] [], .ok true⟩ := by
  have hother {m : Exchange interface Store}
      (hm : ∀ compares success failure, m.call ≠ .commit compares success failure) :
        ¬ Writes k m := by
    rintro (⟨_, _, _, h⟩ | ⟨_, h⟩) <;> exact hm _ _ _ (congrArg Sigma.fst h)
  cases h with
  | nothing hw => exact .inl ⟨hw k, he⟩
  | granted => exact .inl ⟨hother (fun _ _ _ h => by cases h), he⟩
  | @put compares key text n hg =>
    have he : (s.entries.put key _).find? k = some e := he
    rw [Assoc.find?_put] at he
    split at he
    · rename_i hk
      cases he
      exact .inr ⟨n, compares, hg, rfl, by rw [hk]; rfl⟩
    · rename_i hk
      refine .inl ⟨?_, he⟩
      rintro (⟨_, _, _, h⟩ | ⟨_, h⟩) <;> cases h
      exact hk rfl
  | @deleted compares key =>
    have he : (s.entries.erase key).find? k = some e := he
    by_cases hk : k = key
    · subst hk
      rw [Assoc.find?_erase_self] at he
      cases he
    · rw [Assoc.find?_erase_ne hk] at he
      refine .inl ⟨?_, he⟩
      rintro (⟨_, _, _, h⟩ | ⟨_, h⟩) <;> cases h
      exact hk rfl
  | revoked hg =>
    rw [show (s.revoke _).entries = s.entries from entries_revoke (hg ▸ ho)] at he
    exact .inl ⟨hother (fun _ _ _ h => by cases h), he⟩
  | unrevoked => exact .inl ⟨hother (fun _ _ _ h => by cases h), he⟩

end CallEffect

/-! ### The history of the leases -/

section History
variable {ι : Type} {ms : History interface Store ι} {i : ι} {n : Nat}

def Granted (i : ι) (n : Nat) (ms : History interface Store ι) : Prop :=
  ∃ m ttl, (i, m) ∈ ms ∧ m.step = ⟨.grant ttl, .ok n⟩

/-- The lease was revoked, or at least it was to be. -/
def Revoked (n : Nat) (ms : History interface Store ι) : Prop := ∃ x ∈ ms, x.2.call = .revoke n

/-- The last write of the key was to put the value under a lease, by a session that the lease was
granted. -/
inductive Wrote (key value : String) (n : Nat) : History interface Store ι → Prop
  | now {ms : History interface Store ι} {i : ι} {m : Exchange interface Store}
    {compares : List Compare}
    (h : Granted i n ms) (hm : m.step = ⟨.commit compares [.put key value (some n)] [], .ok true⟩) :
    Wrote key value n (ms ++ [(i, m)])
  | earlier {ms : History interface Store ι} {x : ι × Exchange interface Store}
    (h : Wrote key value n ms)
    (hx : ¬ Writes key x.2) : Wrote key value n (ms ++ [x])

theorem Granted.concat (h : Granted i n ms) (x : ι × Exchange interface Store) :
    Granted i n (ms ++ [x]) := by
  obtain ⟨m, ttl, hm, hs⟩ := h
  exact ⟨m, ttl, List.mem_append_left _ hm, hs⟩

theorem revoked_concat {x : ι × Exchange interface Store} :
    Revoked n (ms ++ [x]) ↔ Revoked n ms ∨ x.2.call = .revoke n := by
  simp only [Revoked, List.mem_append, List.mem_singleton, or_and_right, exists_or, exists_eq_left]

end History

/-! ### Tokens -/

section Tokens
variable {ι : Type} [DecidableEq ι] {tokens : ι → Option Nat} {s : Store} {i : ι}
  {m : Exchange interface Store} {g : Option Nat}

/-- Each has an own lease, and nothing hangs on it. -/
structure Leased (tokens : ι → Option Nat) (s : Store) : Prop where
  fresh : Fresh s
  owns : ∀ i, Owns (tokens i) s
  apart : ∀ i j, i ≠ j → ∀ n, tokens i = some n → tokens j ≠ some n

theorem Leased.next {s' : Store} (h : Leased tokens s) (hf : Fresh s') (ho : Owns g s')
    (hothers : ∀ j, j ≠ i → Owns (tokens j) s')
    (ha : ∀ n, g = some n → ∀ j, j ≠ i → tokens j ≠ some n) :
    Leased (Function.update tokens i g) s' where
  fresh := hf
  owns := by
    intro j
    by_cases hij : j = i
    · subst hij; rwa [Function.update_self]
    · rw [Function.update_of_ne hij]; exact hothers j hij
  apart := by
    intro j k hjk n hj
    by_cases hij : j = i
    · subst hij
      rw [Function.update_self] at hj
      rw [Function.update_of_ne hjk.symm]
      exact ha n hj k hjk.symm
    · rw [Function.update_of_ne hij] at hj
      by_cases hik : k = i
      · subst hik
        rw [Function.update_self]
        exact fun hk => ha n hk j hij hj
      · rw [Function.update_of_ne hik]
        exact h.apart j k hjk n hj

/-- A call of `i` keeps everybody's tokens apart. -/
theorem Leased.callEffect (h : Leased tokens s) (hd : CallEffect (tokens i) s m g) :
    Leased (Function.update tokens i g) m.after := by
  cases hd with
  | nothing => rw [Function.update_eq_self]; exact h
  | granted ttl =>
    -- the lease is new, so that nobody has it
    obtain ⟨hi, ho⟩ := Intact.grant ⟨rfl, h.fresh⟩ ttl
    refine h.next hi.fresh ho (fun j _ n hn => ?_) ?_
    · exact ⟨Nat.le_succ_of_le (h.owns j n hn).1, (h.owns j n hn).2⟩
    · rintro n ⟨rfl⟩ j - hj
      exact Nat.not_succ_le_self _ (h.owns j _ hj).1
  | @put compares key text n hg =>
    refine h.next (fun e he n' hn => ?_)
      nofun (fun j hj => (h.owns j).put (h.apart i j hj.symm n hg)) nofun
    rcases Assoc.mem_put he with rfl | he
    · cases hn; exact (h.owns i n hg).1
    · exact h.fresh e he n' hn
  | @deleted compares key =>
    exact h.next (fun e he => h.fresh e (Assoc.mem_of_mem_erase he))
      nofun (fun j _ => (h.owns j).delete key) nofun
  | @revoked n hg =>
    have he : (s.revoke n).entries = s.entries := entries_revoke (hg ▸ h.owns i)
    refine h.next (fun e hm => ?_) nofun (fun j _ n' hn => ⟨(h.owns j n' hn).1, ?_⟩) nofun
    · rw [he] at hm; exact h.fresh e hm
    · rw [he]; exact (h.owns j n' hn).2
  | unrevoked => exact h.next h.fresh nofun (fun j _ => h.owns j) nofun

/-! ### What the history says -/

variable {t : Store} {ms : History interface Store ι}

/-- From `s` to `t` no revocation has removed a lock, and every lock that has been written hangs on
a lease of its own. -/
structure Spared (s t : Store) (ms : History interface Store ι) : Prop where
  /-- Nothing hangs on a lease when it is revoked. -/
  spares : ∀ x ∈ ms, ∀ n, x.2.call = .revoke n → Unattached n x.2.before ∧
    x.2.after.entries = x.2.before.entries
  /-- Nothing does later. -/
  later : ms.Pairwise fun x y => ∀ n, x.2.call = .revoke n → Unattached n y.2.before ∧
    Unattached n y.2.after
  standing : ∀ k e, t.entries.find? k = some e →
    (∀ x ∈ ms, ¬ Writes k x.2) ∧ s.entries.find? k = some e ∨
    ∃ n, e.lease = some n ∧ Wrote k e.value n ms ∧ ¬ Revoked n ms ∧ (t.leases.find? n).isSome = true

/-- What the leases of a store have been through since `s`. -/
structure LeaseHistory (s t : Store) (ms : History interface Store ι) : Prop extends
    Spared s t ms where
  leased : Leased (fun i => leasing.after (stepsOf i ms)) t
  /-- A token is a lease that is running. -/
  underway : ∀ i n, leasing.after (stepsOf i ms) = some n →
    Granted i n ms ∧ ¬ Revoked n ms ∧ (t.leases.find? n).isSome = true
  given : ∀ n, Revoked n ms → Owns (some n) t

theorem leaseHistory_nil (hs : Fresh s) : LeaseHistory s s ([] : History interface Store ι) where
  leased := ⟨hs, fun _ => nofun, fun _ _ _ => nofun⟩
  underway := nofun
  given := by rintro n ⟨x, hx, -⟩; cases hx
  spares := fun _ hx => absurd hx List.not_mem_nil
  later := .nil
  standing := fun k e he => .inl ⟨fun _ hx => absurd hx List.not_mem_nil, he⟩

/-- The token after a call is the one before it, or a lease that has just been granted. -/
theorem CallEffect.underway {n : Nat} (hd : CallEffect (leasing.after (stepsOf i ms)) t m g)
    (h : LeaseHistory s t ms) (hg : g = some n) :
    Granted i n (ms ++ [(i, m)]) ∧ ¬ Revoked n (ms ++ [(i, m)]) ∧
    (m.after.leases.find? n).isSome = true := by
  cases hd with
  | nothing hw hr =>
    obtain ⟨hgranted, hn, hrun⟩ := h.underway i n hg
    exact ⟨hgranted.concat _, fun h => (revoked_concat.mp h).elim hn (hr n), hrun⟩
  | granted ttl =>
    cases hg
    refine ⟨⟨_, ttl, List.mem_append_right _ (List.mem_singleton_self _), rfl⟩, fun hn => ?_, ?_⟩
    · rcases revoked_concat.mp hn with hn | hn
      · exact Nat.not_succ_le_self _ (h.given _ hn _ rfl).1
      · cases hn
    · exact congrArg Option.isSome (Assoc.find?_put_self _ _ _)
  | put | deleted | revoked | unrevoked => cases hg

theorem LeaseHistory.given_callEffect (h : LeaseHistory s t ms)
    (hd : CallEffect (leasing.after (stepsOf i ms)) t m g) {n : Nat}
    (hn : Revoked n (ms ++ [(i, m)])) : Owns (some n) m.after := by
  have ho := h.leased.owns i
  rcases revoked_concat.mp hn with hn | hn
  · refine hd.owns ho (h.given n hn) fun n' hg => ?_
    rintro ⟨rfl⟩
    exact (h.underway i n hg).2.1 hn
  · have hg := hd.token hn
    rintro n' ⟨rfl⟩
    refine ⟨Nat.le_trans (ho n hg).1 hd.granted_le, ?_⟩
    rw [hd.spares ho hn]
    exact (ho n hg).2

theorem LeaseHistory.spared_callEffect (h : LeaseHistory s t ms)
    (hd : CallEffect (leasing.after (stepsOf i ms)) t m g) :
    Spared s m.after (ms ++ [(i, m)]) := by
  have ho := h.leased.owns i
  have hbefore : m.before = t := hd.before
  refine ⟨fun x hx n hn => ?_, ?_, fun k e he => ?_⟩
  · rcases List.mem_append.mp hx with hx | hx
    · exact h.spares x hx n hn
    · cases List.mem_singleton.mp hx
      rw [hbefore]
      exact ⟨(ho n (hd.token hn)).2, hd.spares ho hn⟩
  · refine List.pairwise_append.mpr ⟨h.later, List.pairwise_singleton _ _, fun x hx y hy n hn => ?_⟩
    cases List.mem_singleton.mp hy
    have hr : Revoked n ms := ⟨x, hx, hn⟩
    rw [hbefore]
    exact ⟨(h.given n hr n rfl).2, (h.given_callEffect hd (revoked_concat.mpr (.inl hr)) n rfl).2⟩
  · rcases hd.entry ho he with ⟨hw, he⟩ | ⟨n, compares, hg, hl, hm⟩
    · rcases h.standing k e he with ⟨hws, hs⟩ | ⟨n, hl, hwrote, hr, hrun⟩
      · refine .inl ⟨fun x hx => ?_, hs⟩
        rcases List.mem_append.mp hx with hx | hx
        · exact hws x hx
        · cases List.mem_singleton.mp hx; exact hw
      · -- an entry hangs on the lease, so that it is not the one that is revoked
        have hm : m.call ≠ .revoke n :=
          fun hm => (ho n (hd.token hm)).2 (k, e) (Assoc.mem_of_find? he) hl
        exact .inr ⟨n, hl, hwrote.earlier hw, fun hn => (revoked_concat.mp hn).elim hr hm,
          hd.running hm hrun⟩
    · obtain ⟨hgranted, hr, hrun⟩ := h.underway i n hg
      have hm' : m.call ≠ .revoke n := by
        rw [show m.call = _ from congrArg Sigma.fst hm]; exact fun h => nomatch h
      exact .inr ⟨n, hl, .now hgranted hm, fun hn => (revoked_concat.mp hn).elim hr hm',
        hd.running hm' hrun⟩

theorem LeaseHistory.concat (h : LeaseHistory s t ms)
    (hd : CallEffect (leasing.after (stepsOf i ms)) t m
    (leasing.next (leasing.after (stepsOf i ms)) m.call m.reply)) : LeaseHistory s m.after
      (ms ++ [(i, m)]) where
  toSpared := h.spared_callEffect hd
  leased := by
    rw [after_stepsOf_concat]
    exact h.leased.callEffect hd
  underway := by
    intro j n hj
    by_cases hij : j = i
    · subst hij
      rw [stepsOf_concat_self, Protocol.after_concat] at hj
      exact hd.underway h hj
    · rw [stepsOf_concat_of_ne hij] at hj
      obtain ⟨hgranted, hr, hrun⟩ := h.underway j n hj
      have hm : m.call ≠ .revoke n := fun hm => h.leased.apart i j (Ne.symm hij) n (hd.token hm) hj
      exact ⟨hgranted.concat _, fun hn => (revoked_concat.mp hn).elim hr hm, hd.running hm hrun⟩
  given := fun _ hn => h.given_callEffect hd hn

theorem leaseHistory {P : Fault → Prop} (hs : Fresh s)
    (h : HistoryOf (fun _ : ι => leasing) (troubled {client} P) s t ms) :
    LeaseHistory s t ms := by
  induction h with
  | nil => exact leaseHistory_nil hs
  | concat h hc hmay ih => exact ih.concat (callEffect hmay hc)

/-- The client, or one of which every call fails. -/
def answering : Option Fault → Client interface Store
  | none => client
  | some f => Session.failing f

/-- Services on one store, in any order and with any calls failing: no revocation removes a lock. -/
theorem revocation_spares_locks (hs : Fresh s) (options : ι → Options) (tasks : ι → Task)
    (turns : List (ι × Option Fault)) :
    let p := (Pool.play ⟨(s, []), fun i => (tasks i).session (service (options i))⟩
      (turns.map fun turn => (turn.1, answering turn.2))).store
    Spared s p.1 p.2 := by
  have hclients : ∀ turn ∈ turns.map fun turn => (turn.1, answering turn.2),
      turn.2 ∈ troubled {client} fun _ => True := by
    rintro _ hm
    obtain ⟨⟨i, f⟩, -, rfl⟩ := List.mem_map.mp hm
    cases f with
    | none => exact .inl rfl
    | some f => exact .inr ⟨f, trivial, rfl⟩
  have hfollowing :=
    Pool.follows_play (s := s) (fun i => follows_task (options i) (tasks i)) _ hclients
  exact (leaseHistory hs hfollowing.history).toSpared

end Tokens

/-- The first of two rivals loses the race and gives its lease back, while the lock of the other one
stays; then the store fails. -/
theorem revocation_spares_locks_rivals :
    let turns :=
  [(false, none), (true, none), (false, none), (true, none), (true, none), (false, none),
    (false, none),
      (false, some .longInteger)]
    let p :=
  (Pool.play ⟨(({} : Store), []), fun i => (Task.operate (rivals i)).session (service {})⟩
      (turns.map fun turn => (turn.1, answering turn.2))).store
    Fresh {} ∧ (account (p.2.map (·.2.step))).revoked = [1] ∧
      (p.1.entries.find? "locks/jobs:nightly").map Entry.lease = some (some 2) ∧
      Spared {} p.1 p.2 := by
  intro turns p
  have hs : Fresh {} := nofun
  exact ⟨hs, by decide +kernel, by decide +kernel,
    revocation_spares_locks hs (fun _ => {}) (fun i => .operate (rivals i)) turns⟩

end Leasehold.KeyValue
