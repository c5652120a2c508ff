import Leasehold.Proofs.Interruption
import Leasehold.Proofs.Leases

/-!
# Leases that are left behind

An operation is granted a lease before it has the text of the record and before it commits. When the
commit is lost the lease is revoked, but nothing revokes it when the record has no text or when the
commit fails: the operation ends there and leaves the lease behind (`LeftBehind`). Every other lease
is attached by a transaction of the operation or revoked (`lease_settled_iff`). `Settled` says so at
every stage.
-/

namespace Leasehold.KeyValue
open Session

section Allows
variable {options : Options} {op : Operation} {n : Nat} {steps : List (Step interface)}
    {step : Step interface}

/-- The calls end with the grant of the lease, or with the failed commit that was to attach it. -/
inductive LeftBehind (n : Nat) : List (Step interface) → Prop
  | unwritten {steps : List (Step interface)} {ttl : Int} :
    LeftBehind n (steps ++ [⟨.grant ttl, .ok n⟩])
  | uncommitted {steps : List (Step interface)} {ttl : Int} {compares : List Compare}
    {key text : String} {f : Fault} :
    LeftBehind n (steps ++ [⟨.grant ttl, .ok n⟩] ++
      [⟨.commit compares [.put key text (some n)] [], .error f⟩])

/-- The lease that may be left behind when a call is the last. -/
def leftBy : Step interface → Option Nat
  | ⟨.grant _, .ok (n : Nat)⟩ => some n
  | ⟨.commit _ [.put _ _ lease] [], .error _⟩ => lease
  | _ => none

theorem LeftBehind.last (h : LeftBehind n (steps ++ [step])) : leftBy step = some n := by
  generalize he : steps ++ [step] = l at h
  cases h with
  | unwritten | uncommitted =>
    obtain ⟨-, hs⟩ := List.append_inj' he rfl
    rw [List.singleton_inj.mp hs]
    rfl

/-- Every lease is attached, given back, or the one that is held. -/
structure Settled (a : Account) (held : Option Nat) : Prop where
  settled : ∀ n ∈ a.granted, some n ∈ a.successes ∨ n ∈ a.revoked ∨ held = some n
  own : ∀ n, some n ∈ a.successes ∨ n ∈ a.revoked → n ∈ a.granted
  held : ∀ n, held = some n → n ∈ a.granted ∧ some n ∉ a.successes ∧ n ∉ a.revoked

namespace Settled
variable {a : Account} {held : Option Nat}

theorem nil : Settled {} none where
  settled := fun _ h => absurd h List.not_mem_nil
  own := fun _ h => h.elim (fun h => absurd h List.not_mem_nil) fun h => absurd h List.not_mem_nil
  held := nofun

theorem congr {b : Account} (h : Settled a held) (hg : b.granted = a.granted)
    (hs : b.successes = a.successes) (hr : b.revoked = a.revoked) : Settled b held :=
  ⟨by rw [hg, hs, hr]; exact h.settled, by rw [hg, hs, hr]; exact h.own,
    by rw [hg, hs, hr]; exact h.held⟩

theorem grant {b : Account} (h : Settled a none) (hn : n ∉ a.granted)
    (hg : b.granted = a.granted ++ [n]) (hs : b.successes = a.successes)
    (hr : b.revoked = a.revoked) : Settled b (some n) where
  settled := by
    intro n' hn'
    rw [hg, List.mem_append, List.mem_singleton] at hn'
    rw [hs, hr]
    rcases hn' with hn' | rfl
    · rcases h.settled n' hn' with h | h | h
      · exact .inl h
      · exact .inr (.inl h)
      · cases h
    · exact .inr (.inr rfl)
  own := by
    rw [hg, hs, hr]
    exact fun n' h' => List.mem_append_left _ (h.own n' h')
  held := by
    rintro _ ⟨rfl⟩
    rw [hg, hs, hr]
    exact ⟨List.mem_append_right _ (List.mem_singleton_self n), fun h' => hn (h.own n (.inl h')),
      fun h' => hn (h.own n (.inr h'))⟩

theorem attach {b : Account} (h : Settled a (some n)) (hg : b.granted = a.granted)
    (hs : b.successes = a.successes ++ [some n]) (hr : b.revoked = a.revoked) : Settled b none where
  settled := by
    intro n' hn'
    rw [hg] at hn'
    rw [hs, hr]
    rcases h.settled n' hn' with h | h | h
    · exact .inl (List.mem_append_left _ h)
    · exact .inr (.inl h)
    · exact .inl (List.mem_append_right _ (List.mem_singleton.mpr h.symm))
  own := by
    intro n'
    rw [hg, hs, hr, List.mem_append, List.mem_singleton]
    rintro ((h' | h') | h')
    · exact h.own n' (.inl h')
    · exact (h.held n' h'.symm).1
    · exact h.own n' (.inr h')
  held := nofun

theorem revoke {b : Account} (h : Settled a (some n)) (hg : b.granted = a.granted)
    (hs : b.successes = a.successes) (hr : b.revoked = a.revoked ++ [n]) : Settled b none where
  settled := by
    intro n' hn'
    rw [hg] at hn'
    rw [hs, hr]
    rcases h.settled n' hn' with h | h | h
    · exact .inl h
    · exact .inr (.inl (List.mem_append_left _ h))
    · exact .inr (.inl (List.mem_append_right _ (List.mem_singleton.mpr (Option.some.inj h).symm)))
  own := by
    intro n'
    rw [hg, hs, hr, List.mem_append, List.mem_singleton]
    rintro (h' | h' | rfl)
    · exact h.own n' (.inl h')
    · exact h.own n' (.inr h')
    · exact (h.held n' rfl).1
  held := nofun

theorem delete {b : Account} (h : Settled a held) (hg : b.granted = a.granted)
    (hs : b.successes = a.successes ++ [none]) (hr : b.revoked = a.revoked) : Settled b held := by
  have hmem (n : Nat) : some n ∈ b.successes ↔ some n ∈ a.successes := by rw [hs]; simp
  exact ⟨by simpa only [hg, hmem, hr] using h.settled, by simpa only [hg, hmem, hr] using h.own,
    by simpa only [hg, hmem, hr] using h.held⟩

end Settled

theorem nodup_granted_init {a : Account} (h : (a.add step).granted.Nodup) : a.granted.Nodup := by
  obtain ⟨call, reply⟩ := step
  cases call with
  | grant =>
    cases reply with
    | ok lease => exact (List.nodup_append.mp h).1
    | error => exact h
  | get | commit | revoke => exact h

theorem settled (h : (protocol options op).Allows steps) (hd : (account steps).granted.Nodup) :
    Settled (account steps) ((protocol options op).after steps).place.lease := by
  refine allows_induction (motive := fun steps p => (account steps).granted.Nodup →
    Settled (account steps) p.place.lease)
    (fun _ => .nil) ?_ h hd
  rintro steps step ⟨lost, place⟩ p' ih hmove hd
  rw [account_concat] at hd ⊢
  have hs := ih (nodup_granted_init hd)
  generalize account steps = a at hs hd ⊢
  have hnew {lease : Nat} (hd : (a.granted ++ [lease]).Nodup) : lease ∉ a.granted := fun hm =>
    (List.nodup_append.mp hd).2.2 lease hm lease (List.mem_singleton_self _) rfl
  cases hmove with
  | absent | found => rw [lease_decided]; exact hs.congr rfl rfl rfl
  | unreadable => exact hs.congr rfl rfl rfl
  | granted | unwritable => exact hs.grant (hnew hd) rfl rfl rfl
  | written => exact hs.attach rfl rfl rfl
  | beaten => exact hs.congr rfl rfl rfl
  | deleted => exact hs.delete rfl rfl rfl
  | forestalled => rw [lease_again]; exact hs.congr rfl rfl rfl
  | revoked => rw [lease_again]; exact hs.revoke rfl rfl rfl
  | failed f hc =>
    cases place with
    | read | grant | put | delete => cases hc; exact hs.congr rfl rfl rfl
    | revoke => cases hc; exact hs.revoke rfl rfl rfl
    | through => cases hc

/-- Whoever is through has left a lease behind if that is how the calls ended, and has failed
then. -/
structure Parted (op : Operation) (v : Verdict) (left : Option Nat)
    (steps : List (Step interface)) : Prop where
  left_iff : ∀ n, left = some n ↔ LeftBehind n steps
  failed : ∀ n, left = some n → v = (op.kind.failed, none)

theorem parted_some {lease : Nat} (h : LeftBehind lease (steps ++ [step])) :
    Parted op (op.kind.failed, none) (some lease) (steps ++ [step]) := by
  refine ⟨fun n => ⟨?_, fun h' => h.last.symm.trans h'.last⟩, fun _ _ => rfl⟩
  rintro ⟨rfl⟩
  exact h

theorem parted_none {v : Verdict} (h : leftBy step = none) :
    Parted op v none (steps ++ [step]) := by
  refine ⟨fun n => ⟨nofun, fun h' => ?_⟩, nofun⟩
  rw [h'.last] at h
  cases h

/-- A record is put right after the lease has been granted, and who is through has parted. -/
def Place.Traced (steps : List (Step interface)) : Place op → Prop
  | .put _ _ _ lease _ => ∃ earlier ttl, steps = earlier ++ [⟨.grant ttl, .ok lease⟩]
  | .through v left => Parted op v left steps
  | _ => True

theorem traced_decided {existing : Option Lock} {revision : Nat} (h : leftBy step = none) :
    (decided op existing revision).Traced (steps ++ [step]) := by
  refine decided_cases ?_ (fun l hl => ?_) fun hd => ?_
  · exact parted_none h
  · trivial
  · trivial

theorem traced_again {lost : Nat} (h : leftBy step = none) :
    (again options op lost).place.Traced (steps ++ [step]) := by
  refine again_cases (fun hlost => ?_) fun hlost => ?_
  · exact parted_none h
  · trivial

theorem traced (h : (protocol options op).Allows steps) :
    ((protocol options op).after steps).place.Traced steps := by
  refine allows_induction (motive := fun steps (p : Stage op) => p.place.Traced steps) trivial ?_ h
  rintro steps step ⟨lost, place⟩ p' ih hmove
  cases hmove with
  | absent | found => exact traced_decided rfl
  | unreadable | written | deleted => exact parted_none rfl
  | granted => exact ⟨steps, _, rfl⟩
  | unwritable => exact parted_some .unwritten
  | beaten => trivial
  | forestalled | revoked => exact traced_again rfl
  | failed f hc =>
    cases place with
    | read | grant | delete | revoke => cases hc; exact parted_none rfl
    | put =>
      cases hc
      obtain ⟨earlier, ttl, rfl⟩ := ih
      exact parted_some .uncommitted
    | through => cases hc

end Allows

/-! ### Operations amid others -/

/-- The store hands out leases one after the other, and so did the calls get them. -/
def Numbered (p : Store × List (Exchange interface Store)) : Prop :=
  (account (p.2.map Exchange.step)).granted.Nodup ∧ ∀ n ∈ (account (p.2.map Exchange.step)).granted,
    n ≤ p.1.granted

theorem ensures_numbered {α : Type} {session : Session interface α} {P : Fault → Prop} {s : Store} :
    Ensures (interfered (troubled {client} P) fun s s' => s.granted ≤ s'.granted)
      (fun _ p => Numbered p) session (s, []) := by
  refine ensures_keeps (fun cl hcl c s t ms hi ho => ?_)
    ⟨.nil, fun _ h => absurd h List.not_mem_nil⟩
  obtain ⟨hd, hle⟩ := hi
  rw [Numbered, List.map_append, List.map_singleton, account_concat]
  generalize account (ms.map Exchange.step) = a at hd hle ⊢
  have hle (n : Nat) (hn : n ∈ a.granted) : n ≤ t.granted := Nat.le_trans (hle n hn) ho
  rcases hcl with rfl | ⟨f, -, rfl⟩
  · cases c with
    | grant ttl =>
      refine ⟨?_, fun n hn => ?_⟩
      · refine List.nodup_append.mpr ⟨hd, List.pairwise_singleton _ _, fun n hn n' hn' => ?_⟩
        rw [List.mem_singleton.mp hn']
        exact Nat.ne_of_lt (Nat.lt_succ_of_le (hle n hn))
      · rcases List.mem_append.mp hn with hn | hn
        · exact Nat.le_succ_of_le (hle n hn)
        · exact Nat.le_of_eq (List.mem_singleton.mp hn)
    | get | revoke | commit =>
      exact ⟨hd, fun n hn => Nat.le_trans (hle n hn) (later_client _ t).granted⟩
  · cases c <;> exact ⟨hd, hle⟩

/-- Every lease of an operation is attached by one of its transactions or revoked, unless the
operation fails right after the grant or at the commit, and leaves the lease behind. -/
theorem lease_settled_iff (options : Options) (op : Operation) (s : Store) :
    Ensures (interfered (troubled {client} fun _ => True) fun s s' => s.granted ≤ s'.granted)
      (fun r p => ∀ n ∈ (account (p.2.map Exchange.step)).granted,
        ((some n ∈ (account (p.2.map Exchange.step)).successes ∨
          n ∈ (account (p.2.map Exchange.step)).revoked) ↔
          ¬ LeftBehind n (p.2.map Exchange.step)) ∧
        (LeftBehind n (p.2.map Exchange.step) → r = .ok (op.answer (op.kind.failed, none))))
      (op.session (service options)) (s, []) := by
  cases h : op.check with
  | error e =>
    rw [op.session_of_error _ h]; exact ensures_fail.mpr fun _ hn => absurd hn List.not_mem_nil
  | ok c =>
    intro r p hx n hn
    obtain ⟨hallows, hended⟩ := (follows_session options op).interfered .nil r p hx
    rw [Ended, h] at hended
    obtain ⟨v, left, rfl, hthrough⟩ := hended
    have hsettled := settled hallows (ensures_numbered _ p hx).1
    have htraced := traced hallows
    rw [hthrough] at hsettled htraced
    obtain ⟨hleft, hfailed⟩ : Parted op v left _ := htraced
    refine ⟨⟨fun hs hl => ?_, fun hl => ?_⟩, fun hl => ?_⟩
    · have hu := (hsettled.held n ((hleft n).mpr hl)).2
      exact hs.elim hu.1 hu.2
    · rcases hsettled.settled n hn with h | h | h
      · exact .inl h
      · exact .inr h
      · exact absurd ((hleft n).mp h) hl
    · rw [hfailed n ((hleft n).mpr hl)]

/-- The lease of a commit that fails stays, attached to nothing and revoked by nobody. -/
theorem not_lease_settled :
    ¬ ∀ (options : Options) (op : Operation) (s : Store), op.kind ≠ .release →
      Ensures (interfered (troubled {client} fun _ => True) Eq)
        (fun _ p => ∀ n ∈ (account (p.2.map Exchange.step)).granted,
          some n ∈ (account (p.2.map Exchange.step)).successes ∨
          n ∈ (account (p.2.map Exchange.step)).revoked)
        (op.session (service options)) (s, []) := by
  intro h
  -- the third call is the commit
  let cl : Client interface (Store × List (Exchange interface Store)) := fun c p =>
    if p.2.length = 2 then disturbed (Session.failing .longInteger) id c p else disturbed
      client id c p
  have hcl (c : Call) (p : Store × List (Exchange interface Store)) :
      ∃ cl' ∈ interfered (troubled {client} fun _ => True) Eq, cl c p = cl' c p := by
    by_cases hp : p.2.length = 2
    · exact ⟨_, ⟨_, .inr ⟨.longInteger, trivial, rfl⟩, id, fun _ => rfl, rfl⟩, if_pos hp⟩
    · exact ⟨_, ⟨_, .inl rfl, id, fun _ => rfl, rfl⟩, if_neg hp⟩
  have hrun := exec_run_of_agree hcl ((rivals false).session (service {})) ({}, []) []
  have hsettled := h {} (rivals false) {} (by decide) _ _ hrun 1 (by decide +kernel)
  exact absurd hsettled (by decide +kernel)

end Leasehold.KeyValue
