import Leasehold.Config.Schema

/-!
# What the schema promises

The settings that the schema lets through are `Sound`: every number is within the bounds of its
field, a word is one of those listed, and the name of the table is one that a table may have. That
holds of whatever a reading yields (`Settings.sound_of_read`), of the defaults for fields and
sections that are left out as of what is written there.
-/

namespace Leasehold.Config

/-! ### Readings -/

/-- Whatever the reading yields is a `P`. -/
def Checked.Yields {α : Type} (P : α → Prop) (r : Checked α) : Prop := ∀ a, r = .ok a → P a

namespace Checked.Yields
variable {α β : Type} {P : α → Prop} {Q : β → Prop}

theorem ok {a : α} (h : P a) : Yields P (.ok a) := by
  rintro _ ⟨⟩
  exact h

theorem issues {found : List Issue} : Yields P (.issues found) := nofun

theorem trivially (r : Checked α) : Yields (fun _ => True) r := fun _ _ => trivial

theorem map {r : Checked α} {f : α → β} (hf : ∀ a, P a → Q (f a)) (hr : Yields P r) :
    Yields Q (f <$> r) := by
  cases r with
  | ok a => exact ok (hf a (hr a rfl))
  | issues found => exact issues

/-- A reading applied to another: what the second one yields may be made use of in what the first
one yields. -/
theorem seq {f : Checked (α → β)} {r : Checked α} (hf : Yields (fun g => ∀ a, P a → Q (g a)) f)
    (hr : Yields P r) :
    Yields Q (f <*> r) := by
  cases f with
  | ok g =>
    cases r with
    | ok a => exact ok (hf g rfl a (hr a rfl))
    | issues found => exact issues
  | issues found => cases r <;> exact issues

end Checked.Yields

section Places
variable {α : Type} {P : α → Prop} {here : At} {name model : String} {default : α}

theorem At.yields_field {read : Value → Except Complaint α} (hread : ∀ v a, read v = .ok a → P a)
    (hdefault : P default) :
    (here.field name read default).Yields P := by
  simp only [At.field]
  split
  · exact .ok hdefault
  · split
    · rename_i hv
      exact .ok (hread _ _ hv)
    · exact .issues

theorem yields_asModel {place : List String} {read : At → Checked α}
    (hread : ∀ here, (read here).Yields P) (v : Value) :
    (asModel model place read v).Yields P := by
  cases v with
  | map fields => exact hread ⟨place, fields⟩
  | _ => exact .issues

theorem At.yields_within {read : At → Checked α} (hread : ∀ here, (read here).Yields P)
    (hdefault : P default) :
    (here.within name model read default).Yields P := by
  simp only [At.within]
  split
  · exact .ok hdefault
  · exact yields_asModel hread _

end Places

/-! ### Values within bounds -/

theorem toIntWithin_ok {low : Int} {high : Option Int} {v : Value} {n : Int}
    (h : toIntWithin low high v = .ok n) :
    low ≤ n ∧ ∀ m ∈ high, n ≤ m := by
  cases hn : toInt v with
  | error c => rw [toIntWithin, hn] at h; cases h
  | ok k =>
    rw [toIntWithin, hn] at h
    simp only [bind, Except.bind] at h
    split at h
    · cases h
    · rename_i hlow
      cases high with
      | none =>
        cases h
        exact ⟨Int.not_lt.mp hlow, nofun⟩
      | some m =>
        dsimp only at h
        split at h
        · cases h
        · rename_i hhigh
          cases h
          refine ⟨Int.not_lt.mp hlow, ?_⟩
          rintro _ ⟨⟩
          exact Int.not_lt.mp hhigh

theorem toWord_ok {words : List String} {v : Value} {w : String} (h : toWord words v = .ok w) :
    w ∈ words := by
  cases v with
  | text s =>
    simp only [toWord] at h
    split at h
    · rename_i hs
      cases h
      exact List.contains_iff_mem.mp hs
    · cases h
  | _ => cases h

/-- A name that has passed the check passes it again. -/
theorem toTableName_ok {v : Value} {name : String} (h : toTableName v = .ok name) :
    Argument.tableNameText name = .ok name := by
  cases hs : toText v with
  | error c => rw [toTableName, hs] at h; cases h
  | ok s =>
    rw [toTableName, hs] at h
    simp only [bind, Except.bind] at h
    split at h
    · rename_i ht
      cases h
      rwa [← Argument.tableNameText_eq_ok ht] at ht
    · cases h

section Numbers
variable {here : At} {name : String} {low default : Int}

theorem yields_atLeast (hdefault : low ≤ default) :
    (here.field name (toIntWithin low none) default).Yields (low ≤ ·) :=
  At.yields_field (fun _ _ h => (toIntWithin_ok h).1) hdefault

theorem yields_between {high : Int} (hdefault : low ≤ default ∧ default ≤ high) :
    (here.field name (toIntWithin low (some high)) default).Yields fun n => low ≤ n ∧ n ≤ high :=
  At.yields_field (fun _ _ h => (toIntWithin_ok h).imp_right (· high rfl)) hdefault

end Numbers

/-! ### Sound settings -/

structure EtcdSection.Sound (s : EtcdSection) : Prop where
  port : 1 ≤ s.port ∧ s.port ≤ maxPort
  retries : 0 ≤ s.maxRetries
  timeout : 1 ≤ s.requestTimeoutMs

structure PostgresSection.Sound (s : PostgresSection) : Prop where
  port : 1 ≤ s.port ∧ s.port ≤ maxPort
  table : Argument.tableNameText s.table = .ok s.table
  pool : 1 ≤ s.poolSize

structure Settings.Sound (s : Settings) : Prop where
  format : s.log.format ∈ formats
  etcd : s.etcd.Sound
  postgres : s.postgres.Sound

/-- Every default passes its own check. -/
theorem sound_default : ({} : Settings).Sound where
  format := by decide
  etcd := ⟨by decide, by decide, by decide⟩
  postgres := ⟨by decide, rfl, by decide⟩

theorem LogSection.yields_format (here : At) : (LogSection.read here).Yields (·.format ∈ formats) :=
  .seq (.map (fun _ _ _ h => h) (.trivially _))
    (At.yields_field (fun _ _ => toWord_ok) sound_default.format)

theorem EtcdSection.yields_sound (here : At) : (EtcdSection.read here).Yields Sound := by
  -- the fields in their order; what the bounded ones yield is put together at the end
  refine .seq (.seq (.seq (.seq (.seq (.seq (.seq (.map ?_
    (.trivially _))
    (yields_between sound_default.etcd.port))
    (.trivially _))
    (yields_atLeast sound_default.etcd.retries))
    (yields_atLeast sound_default.etcd.timeout))
    (.trivially _))
    (.trivially _))
    (.trivially _)
  exact fun host _ port hport root _ retries hretries timeout htimeout user _ password _ tls _ =>
    ⟨hport, hretries, htimeout⟩

theorem PostgresSection.yields_sound (here : At) : (PostgresSection.read here).Yields Sound := by
  refine .seq (.seq (.seq (.seq (.seq (.seq (.seq (.seq (.seq (.map ?_
    (.trivially _))
    (yields_between sound_default.postgres.port))
    (.trivially _))
    (.trivially _))
    (.trivially _))
    (.trivially _))
    (At.yields_field (fun _ _ => toTableName_ok) sound_default.postgres.table))
    (yields_atLeast sound_default.postgres.pool))
    (.trivially _))
    (.trivially _)
  exact fun host _ port hport database _ user _ password _ ssl _ table htable pool hpool server _
    create _ => ⟨hport, htable, hpool⟩

theorem Settings.sound_of_read {v : Value} {settings : Settings}
    (h : Settings.read v = .ok settings) :
    settings.Sound := by
  refine yields_asModel (P := Sound) (fun here => ?_) v settings h
  refine .seq (.seq (.seq (.seq (.seq (.map ?_
    (.trivially _))
    (At.yields_within LogSection.yields_format sound_default.format))
    (.trivially _))
    (.trivially _))
    (At.yields_within EtcdSection.yields_sound sound_default.etcd))
    (At.yields_within PostgresSection.yields_sound sound_default.postgres)
  exact fun backend _ log hformat firestore _ dynamodb _ etcd hetcd postgres hpostgres =>
    ⟨hformat, hetcd, hpostgres⟩

theorem Settings.sound_of_ofValue {v : Value} {settings : Settings}
    (h : Settings.ofValue v = .ok settings) :
    settings.Sound := by
  simp only [Settings.ofValue] at h
  split at h
  · rename_i hr
    cases h
    exact sound_of_read hr
  · cases h

end Leasehold.Config
