import Leasehold.Proofs.Holding
import Leasehold.Proofs.Interruption

/-!
# What a release leaves

A release that succeeds may have removed the record, or left an expired one in place, the releaser's
or someone else's. Either way nothing is there that is not gone (`System.Freed`), and that stays so,
as gone records stay gone and nobody else touches the slot (`System.Meanwhile`). On what is gone
every acquisition and every release succeeds, every renewal fails, and a reader is shown no holder
(`System.FreeFrom`).
-/

namespace Leasehold
open Session Manager

theorem Operation.permits_of_gone {op : Operation} {existing : Option Lock}
    (h : Lock.isGone existing op.now = true) :
    op.permits existing = (op.kind != .renew) := by
  cases hk : op.kind <;> simp [permits, hk, h]

/-- Over what is gone only an acquisition writes. -/
theorem Operation.written_of_gone {op : Operation} {extend : Lock → Int → Int → Lock}
    {existing : Option Lock} {l : Lock} (h : Lock.isGone existing op.now = true)
    (hp : op.permits existing = true) (hw : op.written extend existing = some l) :
    op.kind = .acquire ∧ l = op.lock := by
  rw [permits_of_gone h, bne_iff_ne] at hp
  cases hk : op.kind with
  | acquire =>
    rw [written, hk] at hw
    exact ⟨rfl, (Option.some.inj hw).symm⟩
  | renew => exact absurd hk hp
  | release =>
    rw [written, renewed, hk] at hw
    cases hw

/-- A reader is shown neither a holder nor an expiry of what is gone. -/
theorem Answer.hidden_of_gone {existing : Option Lock} {now : Int}
    (h : Lock.isGone existing now = true) (realm name : Option String) :
    (ofStored realm name existing now).lock.owner = none ∧
    (ofStored realm name existing now).lock.expiry = none := by
  cases existing with
  | none => exact ⟨rfl, rfl⟩
  | some l =>
    have hx : l.isExpired now = true := h
    simp only [ofStored, hx, if_true]
    exact ⟨rfl, rfl⟩

namespace System
variable (S : System)

/-- What may happen while nobody operates on the lock of a slot: lookups, operations on other locks,
whichever races are lost, and passes of the sweeper. -/
inductive Meanwhile (k : S.Slot) (s : S.Store) : S.Store → Prop
  | refl : Meanwhile k s s
  | lookup {s' s'' : S.Store} {realm name : String} {r : Except Error (Option Lock)}
    (h : Meanwhile k s s')
    (hx : Exec S.clients (S.service.find realm name) s' r s'') : Meanwhile k s s''
  | operation {s' s'' : S.Store} {op : Operation} {r : Except Error Answer} (h : Meanwhile k s s')
    (hk : ∀ c, op.check = .ok c → S.slot c.realm c.name ≠ k)
      (hx : Exec S.clients (op.session S.service) s' r s'') :
    Meanwhile k s s''
  | sweep {t : Int} {s' s'' : S.Store} (h : Meanwhile k s s') (hs : S.Sweep t s' s'') :
    Meanwhile k s s''

/-- From `now` on the lock is free: whoever wants to acquires it or releases it, unless the store
cannot hold the new record, nobody renews it, and a reader is shown no holder. -/
structure FreeFrom (s : S.Store) (realm name : Identifier) (now : Int) : Prop where
  operated : ∀ {op : Operation} {c : Claim}, op.check = .ok c → c.realm = realm → c.name = name →
    now ≤ op.now →
    (op.kind = .acquire → S.writable op.lock) → ∀ context, ∃ a,
      ((op.session S.service).run S.client s context).result = .ok a ∧
      a.success = some (op.kind != .renew)
  shown : ∀ {t : Timing} {now' ms : Int}, t.now = .ok now' → t.elapsed = .ok ms →
    now ≤ now' → ∀ context,
    S.Replies s (.get realm name) t context fun a => a.lock.owner = none ∧ a.lock.expiry = none

variable {S}

/-- Under the lock lies nothing, or a record of it that is gone. -/
structure Freed (L : S.Laws) (realm name : String) (now : Int) (s : S.Store) : Prop where
  good : L.good s
  filed : Filed realm name (S.record s (S.slot realm name))
  gone : Lock.isGone (S.record s (S.slot realm name)) now = true

namespace Freed
variable {L : S.Laws} {s s' : S.Store} {now : Int}

theorem of_none {realm name : String} (hg : L.good s) (hs : S.record s (S.slot realm name) = none) :
    Freed L realm name now s :=
  ⟨hg, hs ▸ nofun, by rw [hs]; rfl⟩

/-- Whether it deleted the record or left one that had expired, a release that succeeds has freed
the lock. -/
theorem of_release {op : Operation} {c : Claim} {a : Answer} (hg : L.good s)
    (hk : op.kind = .release) (h : op.check = .ok c)
    (hf : Filed c.realm c.name (S.record s (S.slot c.realm c.name))) (ha : a.success = some true)
    (hx : Exec S.clients (op.session S.service) s (.ok a) s') :
    Freed L c.realm c.name op.now s' := by
  obtain ⟨hgood, u, hu, hanswers⟩ := L.exec_session hg (hx.mono L.clients_subset)
  have hrecord := op.record_of_check h
  rw [← hu] at hf
  cases hanswers.did L (congrArg Record.realm hrecord) (congrArg Record.name hrecord) hf with
  | granted _ hrelease => exact absurd hk hrelease
  | freed _ _ _ _ _ hleft =>
    rcases hleft with hnone | ⟨hsame, hgone⟩
    · exact .of_none hgood hnone
    · exact ⟨hgood, hsame ▸ hf, by rw [hsame]; exact hgone⟩
  | refused hr =>
    rw [hr a rfl] at ha
    cases ha

theorem of_record {realm name : String} (h : Freed L realm name now s) (hg : L.good s')
    (hs : S.record s' (S.slot realm name) = S.record s (S.slot realm name) ∨
      S.record s' (S.slot realm name) = none) :
    Freed L realm name now s' := by
  rcases hs with hs | hs
  · exact ⟨hg, hs ▸ h.filed, by rw [hs]; exact h.gone⟩
  · exact .of_none hg hs

theorem meanwhile {realm name : String} (h : Freed L realm name now s)
    (hm : S.Meanwhile (S.slot realm name) s s') :
    Freed L realm name now s' := by
  induction hm with
  | refl => exact h
  | lookup _ hx ih =>
    obtain ⟨hg, -, hs⟩ := L.exec_find ih.good (hx.mono L.clients_subset)
    exact ih.of_record hg (.inl (congrFun hs _))
  | @operation t t' op r _ hk hx ih =>
    obtain ⟨hg, u, hu, ha⟩ := L.exec_session ih.good (hx.mono L.clients_subset)
    refine ih.of_record hg (.inl ?_)
    cases ha with
    | refused _ _ hs => rw [hs, hu]
    | settled hc _ hs => rw [hs.others _ (hk _ hc).symm, hu]
  | sweep _ hs ih =>
    exact ih.of_record (L.good_sweep ih.good hs) ((record_sweep hs _).imp_right And.left)

theorem freeFrom {realm name : Identifier} (h : Freed L realm name now s) :
    S.FreeFrom s realm name now where
  operated := by
    intro op c hc hr hn hnow hw context
    obtain ⟨hg, hf, hgone⟩ := h
    rw [← hr, ← hn] at hf hgone
    replace hgone := Lock.isGone_mono hgone hnow
    have hwritable : ∀ l, op.permits (S.record s (S.slot c.realm c.name)) = true →
        op.written S.extend (S.record s (S.slot c.realm c.name)) = some l → S.writable l := by
      intro l hp hl
      obtain ⟨hk, rfl⟩ := Operation.written_of_gone hgone hp hl
      exact hw hk
    obtain ⟨v, hv, hconforms⟩ :=
      L.ruled hg hc hf hwritable (exec_run (L.client_mem False) _ s context)
    exact ⟨_, hv, by rw [hconforms.success_answer, Operation.permits_of_gone hgone]⟩
  shown := by
    intro t now' ms ht he hnow context
    have hfound : Ensures {S.client} (fun r _ => r = .ok (S.record s (S.slot realm name)))
      (S.service.find realm name) s :=
      fun r s' hx =>
        (L.exec_find h.good (hx.mono (Set.singleton_subset_iff.mpr (L.client_mem False)))).2.1
    exact (replies_get ht he hfound _).mpr
      (Answer.hidden_of_gone (Lock.isGone_mono h.gone hnow) _ _)

end Freed

end System

/-- Everything in the store is the complete record of a lock with a valid namespace and name, under
the key of that lock. -/
structure Backend.AllComplete (b : Backend) (s : b.system.Store) : Prop where
  good : b.Good s
  own : ∀ k w, b.system.raw s k = some w →
    ∃ (realm name : Identifier) (owner instanceId : String) (lease expiry : Int),
    b.system.read w = .ok (Claim.lock ⟨realm, name, owner, instanceId⟩ (some lease) (some expiry)) ∧
      k = b.system.slot realm name

theorem Backend.AllComplete.filed {b : Backend} (hb : b.Regular) {s : b.system.Store}
    (hs : b.AllComplete s) (realm name : Identifier) :
    System.Filed realm name (b.system.record s (b.system.slot realm name)) := by
  intro l hl
  obtain ⟨w, hw, hread⟩ := Option.bind_eq_some_iff.mp hl
  obtain ⟨realm', name', owner, instanceId, lease, expiry, hlock, hk⟩ := hs.own _ w hw
  obtain ⟨hr, hn⟩ := (b.laws hb).slot_inj (colon_not_mem realm) (colon_not_mem realm') hk
  rw [hlock] at hread
  exact ⟨_, lease, expiry, (Option.some.inj hread).symm, hr.symm, hn.symm⟩

/-- A release that succeeds frees the lock for everyone, from its own time on and as long as nobody
operates on it. -/
theorem release_frees (b : Backend) (hb : b.Regular) {s s₁ s₂ : b.system.Store}
    (hs : b.AllComplete s) {realm name : Identifier} {op : Operation} {c : Claim}
    (hk : op.kind = .release) (hc : op.check = .ok c) (hr : c.realm = realm)
    (hn : c.name = name) {a : Answer}
    (hx : Exec b.system.clients (op.session b.system.service) s (.ok a) s₁)
    (ha : a.success = some true) (hm : b.system.Meanwhile (b.system.slot realm name) s₁ s₂) :
    b.system.FreeFrom s₂ realm name op.now := by
  have hfreed : System.Freed (b.laws hb) c.realm c.name op.now s₁ :=
    .of_release (by rw [b.good_laws hb]; exact hs.good) hk hc
      (by rw [hr, hn]; exact hs.filed hb realm name) ha hx
  rw [hr, hn] at hfreed
  exact (hfreed.meanwhile hm).freeFrom

/-- Ada may release what Bob has let expire. His item stays, and while another lock is taken it is
in nobody's way. -/
theorem release_frees_expired :
    let options : Items.Options := ⟨some "ttl"⟩
    let b : Backend := .items options
    let jobs : Identifier := ⟨"jobs", by decide⟩
    let nightly : Identifier := ⟨"nightly", by decide⟩
    let bob : Claim := ⟨jobs, nightly, "bob", "two"⟩
    let ada : Claim := ⟨jobs, nightly, "ada", "one"⟩
    let eve : Claim := ⟨"jobs", "weekly", "eve", "three"⟩
    let s : Items.Store := [(bob.key, Items.itemOf options (bob.lock (some 10) (some 15)))]
    let release : Operation := ⟨.release, ada.record none none, 20⟩
    let acquire : Operation := ⟨.acquire, eve.record (some 10) (some 31), 21⟩
    let released := (release.session (Items.service options)).run Items.client s []
    let acquired := (acquire.session (Items.service options)).run Items.client released.store []
    b.AllComplete s ∧ released.result = .ok (release.answer (.releasedExpired, none)) ∧
      (b.system.record acquired.store (b.system.slot jobs nightly)).isSome = true ∧
      b.system.FreeFrom acquired.store jobs nightly 20 := by
  intro options b jobs nightly bob ada eve s release acquire released acquired
  have hsep : options.Separate := by
    rintro name ⟨rfl⟩
    decide
  have hbob : Items.Holds (Items.itemOf options (bob.lock (some 10) (some 15))) bob 10 15 :=
    Items.holds_itemOf hsep bob 10 15
  have halone {k : String} {w : Items.Item} (h : Assoc.find? s k = some w) :
      k = bob.key ∧ w = Items.itemOf options (bob.lock (some 10) (some 15)) := by
    obtain h := List.mem_singleton.mp (Assoc.mem_of_find? h)
    exact ⟨congrArg Prod.fst h, congrArg Prod.snd h⟩
  have hstocked : b.AllComplete s := {
    good := fun k w h => by
      obtain ⟨rfl, rfl⟩ := halone h
      exact ⟨bob, 10, 15, hbob, rfl⟩
    own := fun k w h => by
      obtain ⟨rfl, rfl⟩ := halone h
      exact ⟨jobs, nightly, "bob", "two", 10, 15, hbob.ofFields, rfl⟩ }
  have hclient : Items.client ∈ b.system.clients := .inl rfl
  have hrun (op : Operation) (s : Items.Store) :=
    exec_run hclient (op.session (Items.service options)) s []
  have hresult : released.result = .ok (release.answer (.releasedExpired, none)) := rfl
  refine ⟨hstocked, hresult, by decide +kernel, ?_⟩
  have hmeanwhile : b.system.Meanwhile
    (b.system.slot jobs nightly) released.store acquired.store := by
    refine .operation .refl (fun c hc => ?_) (hrun acquire released.store)
    obtain rfl : eve = c := Except.ok.inj hc
    exact (by decide : eve.key ≠ bob.key)
  exact release_frees b hsep hstocked (c := ada) rfl rfl rfl rfl
    (hresult ▸ hrun release s) rfl hmeanwhile

/-! ### Integers of too many digits -/

/-- What was released at the last tick cannot be acquired. -/
theorem not_release_frees_overlong :
    ¬ ∀ (b : Backend) (s s₁ : b.system.Store) (realm name : Identifier)
    (op op' : Operation) (c c' : Claim) (a : Answer) (context : Context), b.Regular →
    b.AllComplete s →
    op.kind = .release → op.check = .ok c → c.realm = realm → c.name = name →
    Exec b.system.clients (op.session b.system.service) s (.ok a) s₁ → a.success = some true →
    op'.kind = .acquire → op'.check = .ok c' → c'.realm = realm → c'.name = name →
    op.now ≤ op'.now →
    (∀ options, b = .documents options → b.system.writable op'.lock) →
    ∃ a', ((op'.session b.system.service).run b.system.client s₁ context).result = .ok a' ∧
    a'.success = some true := by
  intro h
  let jobs : Identifier := ⟨"jobs", by decide⟩
  let nightly : Identifier := ⟨"nightly", by decide⟩
  let ada : Claim := ⟨jobs, nightly, "ada", "one"⟩
  let release : Operation := ⟨.release, ada.record none none, KeyValue.lastTick⟩
  let acquire : Operation :=
    ⟨.acquire, ada.record (some 1) (some (KeyValue.lastTick + 1)), KeyValue.lastTick⟩
  have hempty : (Backend.keyValue {}).AllComplete {} := ⟨nofun, nofun⟩
  have hclient : KeyValue.client ∈ (KeyValue.system {}).clients := .inl rfl
  have hx := exec_run hclient (release.session (KeyValue.service {})) {} []
  obtain ⟨a, ha, hs⟩ :=
    h (.keyValue {}) {} _ jobs nightly release acquire ada ada _
      [] trivial hempty rfl rfl rfl rfl hx rfl
    rfl rfl rfl rfl le_rfl nofun
  have hchecked : acquire.check = .ok ada := rfl
  have hrefused := (KeyValue.laws {}).unwritten hempty.good hchecked nofun rfl rfl
    (KeyValue.not_writable_of_expiry
      (Claim.isRecord_lock _ _ _) rfl KeyValue.isTooLong_lastTick_succ)
    (exec_run ((KeyValue.laws {}).client_mem False) (acquire.session (KeyValue.service {})) {} [])
      ha
  rw [hrefused] at hs
  cases hs

end Leasehold
