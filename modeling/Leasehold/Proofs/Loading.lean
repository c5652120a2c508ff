import Leasehold.Config.Load
import Leasehold.Proofs.Overlay
import Leasehold.Proofs.Schema
import Leasehold.Proofs.Yaml.Keys

/-!
# What becomes of settings that are loaded

Settings are loaded in stages: a file is read, decoded and parsed, and its root must be a map; with
the file of the environment on top the fields must pass the schema. A result is an answer, an error
of the service that tells the stage, or an error of another kind, and `Classified` says of what it
is each of them. That carries over from stage to stage (`Classified.bind`), so that the first stage
that does not go through decides (`load_classified`). In the fields that come out of the files no
key stands twice (`Merged.distinct`).
-/

namespace Leasehold.Config

/-- What the errors of the service tell apart. -/
inductive Stage where
  | reading
  | parsing
  | validating
deriving DecidableEq, Repr

def Stage.code : Stage → String
  | .reading => "READ_FILE_ERROR"
  | .parsing => "PARSE_YAML_ERROR"
  | .validating => "VALIDATION_ERROR"

/-- The stage that an error of the service tells. No other error tells one. -/
def stage? : Error → Option Stage
  | .service code _ _ => [Stage.reading, .parsing, .validating].find? (·.code = code)
  | _ => none

theorem stage?_service (stage : Stage) (text : String) (cause : Option Cause) :
    stage? (.service stage.code text cause) = some stage := by
  cases stage <;> simp [stage?, Stage.code]

/-! ### Results by kind -/

/-- When the result is which answer, when it is an error of which stage, and when it is an error of
another kind. -/
structure Classified {α : Type} (Fine : α → Prop) (Fails : Stage → Prop) (Escapes : Prop)
    (r : Except Error α) : Prop where
  fine : ∀ a, r = .ok a ↔ Fine a
  fails : ∀ stage, (∃ e, r = .error e ∧ stage? e = some stage) ↔ Fails stage
  escapes : (∃ e, r = .error e ∧ stage? e = none) ↔ Escapes

namespace Classified
variable {α β : Type} {F F' : α → Prop} {S S' : Stage → Prop} {E E' : Prop} {r : Except Error α}

theorem congr (h : Classified F S E r) (hF : ∀ a, F a ↔ F' a) (hS : ∀ stage, S stage ↔ S' stage)
    (hE : E ↔ E') :
    Classified F' S' E' r :=
  ⟨fun a => (h.fine a).trans (hF a), fun stage => (h.fails stage).trans (hS stage),
    h.escapes.trans hE⟩

theorem of_ok (a : α) : Classified (· = a) (fun _ => False) False (.ok a) :=
  ⟨fun b => by simp [eq_comm], fun _ => by simp, by simp⟩

theorem of_fails {e : Error} {stage : Stage} (h : stage? e = some stage) :
    Classified (fun _ : α => False) (· = stage) False (.error e) :=
  ⟨fun _ => by simp, fun _ => by simp [h, eq_comm], by simp [h]⟩

theorem of_escapes {e : Error} (h : stage? e = none) :
    Classified (fun _ : α => False) (fun _ => False) True (.error e) :=
  ⟨fun _ => by simp, fun _ => by simp [h], by simp [h]⟩

/-- A stage, and what follows on what it gives. -/
theorem bind {F' : α → β → Prop} {S' : α → Stage → Prop} {E' : α → Prop} {k : α → Except Error β}
    (h : Classified F S E r) (hk : ∀ a, Classified (F' a) (S' a) (E' a) (k a)) :
    Classified (fun b => ∃ a, F a ∧ F' a b) (fun stage => S stage ∨ ∃ a, F a ∧ S' a stage)
      (E ∨ ∃ a, F a ∧ E' a) (r.bind k) := by
  cases r with
  | ok a =>
    have hF (a' : α) : F a' ↔ a' = a := by simp [← h.fine, eq_comm]
    have hS (stage : Stage) : ¬ S stage := by simp [← h.fails]
    have hE : ¬ E := by simp [← h.escapes]
    exact (hk a).congr (fun b => by simp [hF]) (fun stage => by simp [hF, hS]) (by simp [hF, hE])
  | error e =>
    have hF (a : α) : ¬ F a := by simp [← h.fine]
    refine ⟨fun b => by simp [Except.bind, hF], fun stage => ?_, ?_⟩
    · simp [Except.bind, hF, ← h.fails]
    · simp [Except.bind, hF, ← h.escapes]

end Classified

/-! ### One file -/

section File
variable (files : Files) (path : Path)

/-- The path leads to a file of these octets. -/
def Holds (octets : List UInt8) : Prop :=
  path.hasZero = false ∧ files.find path = .ok (.file octets)

/-- The file is UTF-8 and has the text. -/
def Spells (text : List Char) : Prop :=
  ∃ octets, Holds files path octets ∧ Text.Utf8.decode octets = .ok text

/-- The text of the file is a document of the value. -/
def Says (v : Value) : Prop :=
  ∃ text, Spells files path text ∧ Yaml.load (Text.Utf8.unifyLines text) = .ok v

/-- The document is a map of the fields, or has a value that is not truthy and counts as an empty
map. -/
def Gives (fields : Value.Fields) : Prop :=
  ∃ v, Says files path v ∧ (v = .map fields ∨ v.isTruthy = false ∧ fields = [])

/-- The file is refused at the stage. -/
inductive Refused : Stage → Prop
  | unreadable (hz : path.hasZero = false) (h : ∀ octets, files.find path ≠ .ok (.file octets)) :
    Refused .reading
  | malformed {text : List Char} (h : Spells files path text)
      (hl : Yaml.load (Text.Utf8.unifyLines text) = .error .markup) : Refused .parsing
  | rootless {v : Value} (h : Says files path v) (ht : v.isTruthy = true)
    (hm : ∀ fields, v ≠ .map fields) : Refused .parsing

/-- Reading the file ends in an error that is not the service's. -/
inductive Escaped : Prop
  | zero (h : path.hasZero = true)
  | undecodable {octets : List UInt8} (h : Holds files path octets)
    (hd : ∀ text, Text.Utf8.decode octets ≠ .ok text)
  | fault {text : List Char} {f : Fault} (h : Spells files path text)
      (hl : Yaml.load (Text.Utf8.unifyLines text) = .error (.fault f))

variable {files path} in
/-- In a file no key stands twice. -/
theorem Gives.distinct {fields : Value.Fields} (h : Gives files path fields) :
    (Value.map fields).Distinct := by
  obtain ⟨v, ⟨text, -, hv⟩, rfl | ⟨-, rfl⟩⟩ := h
  · exact Yaml.distinct_load _ _ hv
  · exact Value.distinct_map List.nodup_nil nofun

theorem classified_read : Classified (Holds files path)
    (fun stage => stage = .reading ∧ path.hasZero = false ∧ ∀ octets,
      files.find path ≠ .ok (.file octets))
    (path.hasZero = true) (files.read path) := by
  rw [Files.read]
  cases hz : path.hasZero with
  | true =>
    exact (Classified.of_escapes rfl).congr (fun _ => by simp [Holds, hz])
      (fun _ => by simp) (by simp)
  | false =>
    cases hf : files.find path with
    | ok content =>
      cases content with
      | file octets =>
        exact (Classified.of_ok octets).congr (fun _ => by simp [Holds, hz, hf, eq_comm])
          (fun _ => by simp) (by simp)
      | directory =>
        exact (Classified.of_fails (stage?_service .reading ..)).congr
          (fun _ => by simp [Holds, hf]) (fun _ => by simp)
          (by simp)
    | error e =>
      exact (Classified.of_fails (stage?_service .reading ..)).congr (fun _ => by simp [Holds, hf])
        (fun _ => by simp)
        (by simp)

theorem classified_decode (octets : List UInt8) :
    Classified (fun text => Text.Utf8.decode octets = .ok text)
    (fun _ => False) (∀ text, Text.Utf8.decode octets ≠ .ok text) (decode octets) := by
  rw [decode]
  cases Text.Utf8.decode octets with
  | ok text =>
    exact (Classified.of_ok text).congr (fun _ => by simp [eq_comm]) (fun _ => .rfl) (by simp)
  | error e => exact (Classified.of_escapes rfl).congr (fun _ => by simp) (fun _ => .rfl) (by simp)

theorem classified_parse (text : List Char) :
    Classified (fun v => Yaml.load (Text.Utf8.unifyLines text) = .ok v)
    (fun stage => stage = .parsing ∧ Yaml.load (Text.Utf8.unifyLines text) = .error .markup)
    (∃ f, Yaml.load (Text.Utf8.unifyLines text) = .error (.fault f)) (parse path text) := by
  rw [parse]
  cases Yaml.load (Text.Utf8.unifyLines text) with
  | ok v =>
    exact (Classified.of_ok v).congr (fun _ => by simp [eq_comm]) (fun _ => by simp) (by simp)
  | error trouble =>
    cases trouble with
    | markup =>
      exact (Classified.of_fails (stage?_service .parsing ..)).congr (fun _ => by simp)
        (fun _ => by simp) (by simp)
    | fault f =>
      exact (Classified.of_escapes rfl).congr (fun _ => by simp) (fun _ => by simp) (by simp)

theorem classified_root (v : Value) :
    Classified (fun fields => v = .map fields ∨ v.isTruthy = false ∧ fields = [])
    (fun stage => stage = .parsing ∧ v.isTruthy = true ∧ ∀ fields, v ≠ .map fields) False
      (root path v) := by
  unfold root
  cases ht : v.isTruthy with
  | false =>
    have hmap {fields : Value.Fields} (h : v = .map fields) : fields = [] := by
      rw [h, Value.isTruthy] at ht
      simpa using ht
    exact (Classified.of_ok []).congr
      (fun _ => ⟨fun h => .inr ⟨rfl, h⟩, fun h => h.elim hmap (·.2)⟩) (fun _ => by simp) .rfl
  | true =>
    cases v with
    | map fields =>
      exact (Classified.of_ok fields).congr (fun _ => by simp [eq_comm]) (fun _ => by simp) .rfl
    | _ =>
      exact (Classified.of_fails (stage?_service .parsing ..)).congr (fun _ => by simp)
        (fun _ => by simp) .rfl

theorem classified_readFile :
    Classified (Gives files path) (Refused files path) (Escaped files path)
    (readFile files path) := by
  -- what fails or escapes at a stage has been through those before it
  refine ((classified_read files path).bind
    fun octets => (classified_decode octets).bind fun text =>
    (classified_parse path text).bind (classified_root path)).congr (fun fields => ?_)
      (fun stage => ?_) ?_
  · constructor
    · rintro ⟨octets, ho, text, ht, v, hv, h⟩
      exact ⟨v, ⟨text, ⟨octets, ho, ht⟩, hv⟩, h⟩
    · rintro ⟨v, ⟨text, ⟨octets, ho, ht⟩, hv⟩, h⟩
      exact ⟨octets, ho, text, ht, v, hv, h⟩
  · constructor
    · rintro (⟨rfl, hz, h⟩ | ⟨octets, ho, ⟨⟨⟩⟩ | ⟨text, ht, ⟨rfl, hl⟩ | ⟨v, hv, rfl, htruthy, hm⟩⟩⟩)
      · exact .unreadable hz h
      · exact .malformed ⟨octets, ho, ht⟩ hl
      · exact .rootless ⟨text, ⟨octets, ho, ht⟩, hv⟩ htruthy hm
    · rintro (⟨hz, h⟩ | ⟨⟨octets, ho, ht⟩, hl⟩ | ⟨⟨text, ⟨octets, ho, ht⟩, hv⟩, htruthy, hm⟩)
      · exact .inl ⟨rfl, hz, h⟩
      · exact .inr ⟨octets, ho, .inr ⟨_, ht, .inl ⟨rfl, hl⟩⟩⟩
      · exact .inr ⟨octets, ho, .inr ⟨text, ht, .inr ⟨_, hv, rfl, htruthy, hm⟩⟩⟩
  · constructor
    · rintro (hz | ⟨octets, ho, hd | ⟨text, ht, ⟨f, hl⟩ | ⟨v, hv, ⟨⟩⟩⟩⟩)
      · exact .zero hz
      · exact .undecodable ho hd
      · exact .fault ⟨octets, ho, ht⟩ hl
    · rintro (hz | ⟨ho, hd⟩ | ⟨⟨octets, ho, ht⟩, hl⟩)
      · exact .inl hz
      · exact .inr ⟨_, ho, .inl hd⟩
      · exact .inr ⟨octets, ho, .inr ⟨_, ht, .inl ⟨_, hl⟩⟩⟩

end File

/-! ### The file of the environment -/

section Environment
variable (files : Files) (path : Path)

/-- The path leads to a file or a directory. -/
def Present : Prop := path.hasZero = false ∧ ∃ content, files.find path = .ok content

/-- The path leads nowhere. -/
def Absent : Prop := path.hasZero = true ∨ ∃ e, files.find path = .error e ∧ e ≠ .nameTooLong

/-- The path is too long to be looked up. -/
def Overlong : Prop := path.hasZero = false ∧ files.find path = .error .nameTooLong

theorem classified_has :
    Classified (fun there => (there = true ∧ Present files path) ∨
      (there = false ∧ Absent files path))
    (fun _ => False) (Overlong files path) (files.has path) := by
  rw [Files.has]
  cases hz : path.hasZero with
  | true =>
    exact (Classified.of_ok false).congr (fun _ => by simp [Present, Absent, hz]) (fun _ => .rfl)
      (by simp [Overlong, hz])
  | false =>
    cases hf : files.find path with
    | ok content =>
      exact (Classified.of_ok true).congr (fun _ => by simp [Present, Absent, hz, hf])
        (fun _ => .rfl)
        (by simp [Overlong, hf])
    | error e =>
      cases e with
      | nameTooLong =>
        exact (Classified.of_escapes rfl).congr (fun _ => by simp [Present, Absent, hz, hf])
          (fun _ => .rfl)
          (by simp [Overlong, hz, hf])
      | _ =>
        exact (Classified.of_ok false).congr (fun _ => by simp [Present, Absent, hf, hz])
          (fun _ => .rfl)
          (by simp [Overlong, hf])

/-- The fields hold maps inside one another on a path that calls cannot follow to its end. -/
def TooDeep (lower upper : Value.Fields) : Prop :=
  ∃ path, path.length = maxCalls ∧ Both (.map lower) (.map upper) path

/-- The fields of the base file, with those of the environment's file laid over them where it is
there. -/
inductive Laid (lower : Value.Fields) : Option Path → Value.Fields → Prop
  | unnamed : Laid lower none lower
  | absent {path : Path} (h : Absent files path) : Laid lower (some path) lower
  | present {path : Path} {upper : Value.Fields} (hp : Present files path)
    (h : Gives files path upper)
      (hd : ¬ TooDeep lower upper) : Laid lower (some path) (overlayFields lower upper)

/-- Laying the environment's file over the base ends in an error that is not the service's. -/
inductive Unlaid (lower : Value.Fields) : Prop
  | file (h : Escaped files path)
  | merging {upper : Value.Fields} (h : Gives files path upper) (hd : TooDeep lower upper)

/-- The part of the loading that follows on the base file. -/
def layered (lower : Value.Fields) : Option Path → Except Error Value.Fields
  | none => .ok lower
  | some path => (files.has path).bind fun there =>
    if there then (readFile files path).bind (merge lower) else .ok lower

theorem readAll_eq (base : Path) (env : Option Path) :
    readAll files base env = (readFile files base).bind fun lower => layered files lower env := by
  cases env <;> rfl

theorem classified_merge (lower upper : Value.Fields) :
    Classified (fun fields => meets maxCalls (.map lower) (.map upper) = false ∧
      fields = overlayFields lower upper)
      (fun _ => False) (meets maxCalls (.map lower) (.map upper) = true) (merge lower upper) := by
  rw [merge]
  cases meets maxCalls (.map lower) (.map upper) with
  | true => exact (Classified.of_escapes rfl).congr (fun _ => by simp) (fun _ => .rfl) (by simp)
  | false => exact (Classified.of_ok _).congr (fun _ => by simp) (fun _ => .rfl) (by simp)

variable {files path} in
/-- In fields that a file gives no key hides another, so that all paths are found. -/
theorem Gives.meets_iff {upper : Value.Fields} (h : Gives files path upper) (lower : Value.Fields) :
    meets maxCalls (.map lower) (.map upper) = true ↔ TooDeep lower upper :=
  Config.meets_iff h.distinct

theorem classified_above (lower : Value.Fields) : Classified
    (fun fields => ∃ upper, Gives files path upper ∧ ¬ TooDeep lower upper ∧
      fields = overlayFields lower upper)
    (Refused files path) (Unlaid files path lower) ((readFile files path).bind (merge lower)) := by
  refine ((classified_readFile files path).bind (classified_merge lower)).congr (fun fields => ?_)
    (fun _ => by simp)
    ⟨?_, ?_⟩
  · refine exists_congr fun upper => and_congr_right fun hu => ?_
    rw [← hu.meets_iff, Bool.not_eq_true]
  · rintro (h | ⟨upper, hu, hd⟩)
    · exact .file h
    · exact .merging hu ((hu.meets_iff lower).mp hd)
  · rintro (h | ⟨hu, hd⟩)
    · exact .inl h
    · exact .inr ⟨_, hu, (hu.meets_iff lower).mpr hd⟩

theorem classified_there (lower : Value.Fields) (there : Bool) : Classified
    (fun fields => if there then
      ∃ upper, Gives files path upper ∧ ¬ TooDeep lower upper ∧ fields = overlayFields lower upper
    else fields = lower)
    (fun stage => there = true ∧ Refused files path stage) (there = true ∧ Unlaid files path lower)
    (if there then (readFile files path).bind (merge lower) else .ok lower) := by
  cases there with
  | true =>
    exact (classified_above files path lower).congr (fun _ => .rfl) (fun _ => by simp) (by simp)
  | false => exact (Classified.of_ok lower).congr (fun _ => .rfl) (fun _ => by simp) (by simp)

theorem classified_layered (lower : Value.Fields) (env : Option Path) :
    Classified (Laid files lower env)
    (fun stage => ∃ path, env = some path ∧ Present files path ∧ Refused files path stage)
    (∃ path, env = some path ∧ (Overlong files path ∨ Present files path ∧ Unlaid files path lower))
    (layered files lower env) := by
  cases env with
  | none =>
    refine (Classified.of_ok lower).congr (fun fields => ⟨?_, ?_⟩) (fun _ => by simp) (by simp)
    · rintro rfl
      exact .unnamed
    · rintro ⟨⟩
      rfl
  | some path =>
    refine ((classified_has files path).bind (classified_there files path lower)).congr
      (fun fields => ⟨?_, ?_⟩)
      (fun stage => ⟨?_, ?_⟩) ⟨?_, ?_⟩
    · rintro ⟨there, ⟨rfl, hp⟩ | ⟨rfl, ha⟩, h⟩
      · obtain ⟨upper, hu, hd, rfl⟩ := h
        exact .present hp hu hd
      · obtain rfl : fields = lower := h
        exact .absent ha
    · rintro (_ | ha | ⟨hp, hu, hd⟩)
      · exact ⟨false, .inr ⟨rfl, ha⟩, rfl⟩
      · exact ⟨true, .inl ⟨rfl, hp⟩, _, hu, hd, rfl⟩
    · rintro (⟨⟨⟩⟩ | ⟨there, ⟨-, hp⟩ | ⟨rfl, -⟩, ht, h⟩)
      · exact ⟨path, rfl, hp, h⟩
      · cases ht
    · rintro ⟨_, ⟨⟩, hp, h⟩
      exact .inr ⟨true, .inl ⟨rfl, hp⟩, rfl, h⟩
    · rintro (ho | ⟨there, ⟨-, hp⟩ | ⟨rfl, -⟩, ht, h⟩)
      · exact ⟨path, rfl, .inl ho⟩
      · exact ⟨path, rfl, .inr ⟨hp, h⟩⟩
      · cases ht
    · rintro ⟨_, ⟨⟩, ho | ⟨hp, h⟩⟩
      · exact .inl ho
      · exact .inr ⟨true, .inl ⟨rfl, hp⟩, rfl, h⟩

end Environment

/-! ### All files -/

section All
variable (files : Files) (base : Path) (env : Option Path)

/-- The files give the fields, that of the environment on top of the base file. -/
def Merged (fields : Value.Fields) : Prop :=
  ∃ lower, Gives files base lower ∧ Laid files lower env fields

variable {files base env} in
/-- Nor does one stand twice when the files have been laid over one another. -/
theorem Merged.distinct {fields : Value.Fields} (h : Merged files base env fields) :
    (Value.map fields).Distinct := by
  obtain ⟨lower, hlower, hlaid⟩ := h
  cases hlaid with
  | unnamed => exact hlower.distinct
  | absent => exact hlower.distinct
  | present _ hupper _ =>
    rw [← overlay_map]
    exact distinct_overlay hlower.distinct hupper.distinct

/-- The fields have the section of their backend and pass the schema as the settings. -/
def Valid (fields : Value.Fields) (settings : Settings) : Prop :=
  Settings.read (.map fields) = .ok settings ∧
    (settings.backend = .memory ∨ ∃ fields', Assoc.find? fields settings.backend.name =
      some (.map fields'))

/-- The first stage that does not go through is this one. -/
inductive FailsFirst : Stage → Prop
  | base {stage : Stage} (h : Refused files base stage) : FailsFirst stage
  | env {lower : Value.Fields} {path : Path} {stage : Stage} (hb : Gives files base lower)
    (he : env = some path)
      (hp : Present files path) (h : Refused files path stage) : FailsFirst stage
  | settings {fields : Value.Fields} (h : Merged files base env fields)
    (hv : ∀ settings, ¬ Valid fields settings) :
      FailsFirst .validating

/-- Before a stage fails, loading ends in an error that is not the service's. -/
inductive EscapesFirst : Prop
  | base (h : Escaped files base)
  | lookup {lower : Value.Fields} {path : Path} (hb : Gives files base lower) (he : env = some path)
      (h : Overlong files path)
  | env {lower : Value.Fields} {path : Path} (hb : Gives files base lower) (he : env = some path)
      (hp : Present files path) (h : Unlaid files path lower)

end All

/-! ### The settings in the fields -/

section Validation
variable {fields : Value.Fields} {settings : Settings}

theorem toBackend_eq_ok {v : Value} {b : Backend} (h : toBackend v = .ok b) : v = .text b.name := by
  cases v with
  | text s =>
    simp only [toBackend] at h
    split at h
    · rename_i hb
      cases h
      rw [Backend.ofName?, List.find?_eq_some_iff_append] at hb
      rw [of_decide_eq_true hb.1]
    · cases h
  | _ => cases h

/-- The backend of the settings is the one that the fields name, and memory where they name none. -/
theorem backend_of_read (h : Settings.read (.map fields) = .ok settings) :
    Assoc.find? fields "backend" = some (.text settings.backend.name) ∨
      Assoc.find? fields "backend" = none ∧ settings.backend = .memory := by
  have hfield : ((⟨[], fields⟩ : At).field "backend" toBackend .memory).Yields fun b =>
      Assoc.find? fields "backend" = some (.text b.name) ∨ Assoc.find? fields "backend" = none ∧
        b = .memory := by
    simp only [At.field]
    split
    · rename_i hf
      exact .ok (.inr ⟨hf, rfl⟩)
    · rename_i hf
      split
      · rename_i hv
        exact .ok (.inl (hf.trans (congrArg some (toBackend_eq_ok hv))))
      · exact .issues
  -- the backend is what is read first, with five sections after it
  have hread : (Settings.readFields ⟨[], fields⟩).Yields fun s =>
      Assoc.find? fields "backend" = some (.text s.backend.name) ∨
        Assoc.find? fields "backend" = none ∧ s.backend = .memory :=
    .seq (.seq (.seq (.seq (.seq (.map (fun _ hb _ _ _ _ _ _ _ _ _ _ => hb)
      hfield) (.trivially _)) (.trivially _)) (.trivially _)) (.trivially _)) (.trivially _)
  exact hread settings h

theorem Backend.name_eq_memory {b : Backend} : b.name = "memory" ↔ b = .memory := by
  cases b <;> decide

theorem requireSection_iff (h : Settings.read (.map fields) = .ok settings) :
    requireSection fields = .ok () ↔
    settings.backend = .memory ∨ ∃ fields', Assoc.find? fields settings.backend.name =
      some (.map fields') := by
  rcases backend_of_read h with hb | ⟨hb, hmemory⟩
  · simp only [requireSection, hb, Backend.name_eq_memory]
    by_cases hmemory : settings.backend = .memory
    · simp only [hmemory, if_true, true_or]
    · simp only [hmemory, if_false, false_or]
      split
      · rename_i fields' hf
        exact iff_of_true rfl ⟨fields', hf⟩
      · rename_i hf
        refine iff_of_false (by rintro ⟨⟩) ?_
        rintro ⟨fields', hf'⟩
        exact hf fields' hf'
  · simp only [requireSection, hb, hmemory, true_or]

theorem stage?_of_requireSection {e : Error} (h : requireSection fields = .error e) :
    stage? e = some .validating := by
  simp only [requireSection] at h
  repeat' split at h
  all_goals cases h
  exact stage?_service .validating ..

theorem classified_settle (fields : Value.Fields) : Classified (Valid fields)
    (fun stage => stage = .validating ∧ ∀ settings, ¬ Valid fields settings) False
      (settle fields) := by
  cases hs : requireSection fields with
  | error e =>
    have hv (settings : Settings) : ¬ Valid fields settings := by
      rintro ⟨hr, hsection⟩
      rw [(requireSection_iff hr).mpr hsection] at hs
      cases hs
    have hsettle : settle fields = .error e := by
      rw [settle, hs]
      rfl
    rw [hsettle]
    exact (Classified.of_fails (stage?_of_requireSection hs)).congr (fun _ => by simp [hv])
      (fun _ => by simp [hv]) .rfl
  | ok =>
    cases hr : Settings.read (.map fields) with
    | ok settings =>
      have hsettle : settle fields = .ok settings := by
        rw [settle, hs]
        simp only [bind, Except.bind, hr]
        rfl
      have hv (settings' : Settings) : Valid fields settings' ↔ settings' = settings := by
        constructor
        · rintro ⟨hr', -⟩
          rw [hr] at hr'
          cases hr'
          rfl
        · rintro rfl
          exact ⟨hr, (requireSection_iff hr).mp hs⟩
      rw [hsettle]
      exact (Classified.of_ok settings).congr (fun _ => (hv _).symm) (fun _ => by simp [hv]) .rfl
    | issues found =>
      have hv (settings : Settings) : ¬ Valid fields settings := by
        rintro ⟨hr', -⟩
        rw [hr] at hr'
        cases hr'
      have hsettle : settle fields = .error (.badConfig Settings.model found) := by
        rw [settle, hs]
        simp only [bind, Except.bind, hr]
        rfl
      rw [hsettle]
      exact (Classified.of_fails (stage?_service .validating ..)).congr (fun _ => by simp [hv])
        (fun _ => by simp [hv]) .rfl

end Validation

/-- Settings are loaded just from valid files. Otherwise the first stage that does not go through
decides the error, and it is one of the service's own unless a path, the octets or the markup cannot
be dealt with at all. -/
theorem load_classified (files : Files) (base : Path) (env : Option Path) :
    Classified (fun settings => ∃ fields, Merged files base env fields ∧ Valid fields settings)
      (FailsFirst files base env) (EscapesFirst files base env) (load files base env) := by
  have hload : load files base env =
      ((readFile files base).bind fun lower => layered files lower env).bind settle := by
    rw [← readAll_eq]
    rfl
  rw [hload]
  refine (((classified_readFile files base).bind
    fun lower => classified_layered files lower env).bind
    classified_settle).congr (fun _ => .rfl) (fun stage => ⟨?_, ?_⟩) ⟨?_, ?_⟩
  · rintro ((h | ⟨lower, hl, path, rfl, hp, h⟩) | ⟨fields, hm, rfl, hv⟩)
    · exact .base h
    · exact .env hl rfl hp h
    · exact .settings hm hv
  · rintro (h | ⟨hl, rfl, hp, h⟩ | ⟨hm, hv⟩)
    · exact .inl (.inl h)
    · exact .inl (.inr ⟨_, hl, _, rfl, hp, h⟩)
    · exact .inr ⟨_, hm, rfl, hv⟩
  · rintro ((h | ⟨lower, hl, path, rfl, h | ⟨hp, h⟩⟩) | ⟨fields, hm, ⟨⟩⟩)
    · exact .base h
    · exact .lookup hl rfl h
    · exact .env hl rfl hp h
  · rintro (h | ⟨hl, rfl, h⟩ | ⟨hl, rfl, hp, h⟩)
    · exact .inl (.inl h)
    · exact .inl (.inr ⟨_, hl, _, rfl, .inl h⟩)
    · exact .inl (.inr ⟨_, hl, _, rfl, .inr ⟨hp, h⟩⟩)

/-- A file that is not UTF-8 ends in an error of another kind, and the root of a document that is
loaded need not be a map or null: an empty list passes. -/
theorem not_load_own_errors :
    (¬ ∀ files base env e, load files base env = .error e → ∃ stage, stage? e = some stage) ∧
      ¬ ∀ files base env settings, load files base env = .ok settings →
        ∃ v, Says files base v ∧ (v = .null ∨ ∃ fields, v = .map fields) := by
  constructor
  · intro h
    have hload : load [(["base.yaml"], .file [0xff])] ⟨"", ["base.yaml"]⟩ none =
        .error (.undecodable
          "'utf-8' codec can't decode byte 0xff in position 0: invalid start byte") := by rfl
    obtain ⟨stage, hs⟩ := h _ _ _ _ hload
    cases hs
  · intro h
    let files : Files := [(["base.yaml"], .file [0x5b, 0x5d])]
    let path : Path := ⟨"", ["base.yaml"]⟩
    have hread : (load files path none).toOption.isSome = true := by decide +kernel
    have hfind : files.find path = .ok (.file [0x5b, 0x5d]) := rfl
    have hdecode : Text.Utf8.decode [0x5b, 0x5d] = .ok ['[', ']'] := rfl
    have hkind : (Yaml.load (Text.Utf8.unifyLines ['[', ']'])).toOption.map Value.kind =
      some "list" := by decide +kernel
    cases hload : load files path none with
    | error e => rw [hload] at hread; cases hread
    | ok settings =>
      obtain ⟨v, ⟨text, ⟨octets, ⟨-, ho⟩, ht⟩, hv⟩, hroot⟩ := h _ _ _ _ hload
      cases hfind.symm.trans ho
      cases hdecode.symm.trans ht
      rw [hv] at hkind
      have hlist : v.kind = "list" := Option.some.inj hkind
      rcases hroot with rfl | ⟨fields, rfl⟩ <;> simp [Value.kind] at hlist

end Leasehold.Config
