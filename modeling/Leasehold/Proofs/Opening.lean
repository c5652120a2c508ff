import Leasehold.Opening
import Leasehold.Proofs.Schema
import Leasehold.Proofs.Session.Relays

/-!
# How an opening ends

The service of an opened backend checks its options again, and the options of sound settings pass
(`options_eq`). So opening a backend is a session that relays its calls, those that make the client
and, where asked for, the table (`callsOf`): settings that the schema lets through open the backend
that they name, unless a call fails or no number is as large as the timeout (`opening_settled`).
-/

namespace Leasehold

/-! ### Options that pass again -/

namespace Config

theorem EtcdSection.Sound.options_eq {s : EtcdSection} (h : s.Sound) :
    s.options = .ok ⟨s.keyRoot, s.maxRetries.toNat⟩ := by
  rw [EtcdSection.options, KeyValue.retriesOf, if_neg (Int.not_lt.mpr h.retries)]
  rfl

theorem PostgresSection.Sound.options_eq {s : PostgresSection} (h : s.Sound) :
    s.options = .ok ⟨s.table, s.useServerTime⟩ := by
  rw [PostgresSection.options, h.table]
  rfl

/-- The backend that the settings ask for, with the options that they give. -/
def Settings.chosen (s : Settings) : Leasehold.Backend :=
  match s.backend with
  | .memory => .memory
  | .firestore => .documents s.firestore.options
  | .dynamodb => .items s.dynamodb.options
  | .etcd => .keyValue ⟨s.etcd.keyRoot, s.etcd.maxRetries.toNat⟩
  | .postgres => .table ⟨s.postgres.table, s.postgres.useServerTime⟩

theorem Settings.name_chosen (s : Settings) : s.chosen.name = s.backend.name := by
  rw [Settings.chosen]
  cases s.backend <;> rfl

end Config

namespace Opening
open Config Session

section Services
variable {settings : Settings}

theorem relays_firestore (s : FirestoreSection) :
    (openFirestore s).Relays (· = s.options) .fault [firestoreClient s] :=
  (Relays.ask _).bind fun _ _ => ⟨rfl, rfl⟩

theorem relays_dynamoDb (s : DynamoDbSection) :
    (openDynamoDb s).Relays (· = s.options) .fault [dynamoDbResource s, dynamoDbTable s] :=
  (Relays.ask _).bind fun _ _ => (Relays.ask _).bind fun _ _ => ⟨rfl, rfl⟩

theorem relays_etcd {s : EtcdSection} (h : s.Sound) {timeout : Float}
    (ht : seconds s.requestTimeoutMs = .ok timeout) :
    (openEtcd s).Relays (· = ⟨s.keyRoot, s.maxRetries.toNat⟩) .fault [etcdClient s timeout] := by
  rw [openEtcd, ht, h.options_eq]
  exact (Relays.ask _).bind fun _ _ => ⟨rfl, rfl⟩

/-- The calls for the SQL table: its pool is made, and the table itself if asked for. -/
def tableCalls (s : PostgresSection) : List Call :=
  postgresPool s :: if s.createTable then [.prepare ⟨s.table, .create⟩] else []

theorem relays_postgres {s : PostgresSection} (h : s.Sound) :
    (openPostgres s).Relays (· = ⟨s.table, s.useServerTime⟩) .fault (tableCalls s) := by
  rw [openPostgres, h.options_eq]
  refine (Relays.ask _).bind fun _ _ => ?_
  cases s.createTable with
  | true => exact (Relays.ask _).bind fun _ _ => ⟨rfl, rfl⟩
  | false => exact ⟨rfl, rfl⟩

/-- The calls by which settings open their backend, in their order. -/
def callsOf (settings : Settings) : List Call :=
  match settings.backend with
  | .memory => []
  | .firestore => [firestoreClient settings.firestore]
  | .dynamodb => [dynamoDbResource settings.dynamodb, dynamoDbTable settings.dynamodb]
  | .etcd => (seconds settings.etcd.requestTimeoutMs).toOption.toList.map (etcdClient settings.etcd)
  | .postgres => tableCalls settings.postgres

/-- There is no number for the timeout of the client. -/
def Endless (settings : Settings) (f : Fault) : Prop :=
  settings.backend = .etcd ∧ seconds settings.etcd.requestTimeoutMs = .error f

theorem relays_service (h : settings.Sound) (ht : ∀ f, ¬ Endless settings f) :
    (openService settings settings.backend).Relays (· = settings.chosen) .fault
      (callsOf settings) := by
  rw [Settings.chosen, callsOf]
  cases hb : settings.backend with
  | memory => exact ⟨rfl, rfl⟩
  | firestore => exact (relays_firestore _).map fun _ ha => congrArg _ ha
  | dynamodb => exact (relays_dynamoDb _).map fun _ ha => congrArg _ ha
  | etcd =>
    cases hx : seconds settings.etcd.requestTimeoutMs with
    | error f => exact absurd ⟨hb, hx⟩ (ht f)
    | ok timeout => exact (relays_etcd h.etcd hx).map fun _ ha => congrArg _ ha
  | postgres => exact (relays_postgres h.postgres).map fun _ ha => congrArg _ ha

theorem relays_backend (h : settings.Sound) (ht : ∀ f, ¬ Endless settings f) :
    (openBackend settings settings.backend).Relays (· = settings.chosen)
      (.notOpened settings.backend.name) (callsOf settings) :=
  List.append_nil (callsOf settings) ▸
    ((relays_service h ht).rescue (g := failed settings.backend)).bind fun _ ha => ⟨rfl, ha⟩

theorem openBackend_of_endless {f : Fault} (h : Endless settings f) :
    openBackend settings settings.backend = .fail (.notOpened settings.backend.name f) := by
  rw [openBackend, h.1, openService, openEtcd, h.2]
  rfl

end Services

theorem fault_of_notOpened {name name' : String} {f f' : Fault}
    (h : Error.notOpened name f = .notOpened name' f') :
    f = f' := by
  injection h with _ _ hcause
  exact Cause.fault.inj (Option.some.inj hcause)

/-- The fault comes from the last call, all calls before it having been served, or, before any call,
from the timeout. -/
inductive Raised (settings : Settings) (f : Fault) : List (Step interface) → Prop
  | call {steps : List (Step interface)} {c : Call} (hs : Smooth steps)
      (hc : steps.map Sigma.fst ++ [c] <+: callsOf settings) : Raised settings f
        (steps ++ [⟨c, .error f⟩])
  | timeout (h : Endless settings f) : Raised settings f []

/-- How an opening may end after its calls. -/
inductive Settled (settings : Settings) : List (Step interface) → Except Error Backend → Prop
  | opened {steps : List (Step interface)} (hs : Smooth steps)
    (hc : steps.map Sigma.fst = callsOf settings) :
    Settled settings steps (.ok settings.chosen)
  | failed {steps : List (Step interface)} {f : Fault} (hf : Raised settings f steps) :
    Settled settings steps (.error (.notOpened settings.backend.name f))

section Settled
variable {settings : Settings} {steps : List (Step interface)} {r : Except Error Backend}

theorem Settled.of_relayed (h : Relayed (· = settings.chosen) (.notOpened settings.backend.name)
    (callsOf settings) steps r) : Settled settings steps r := by
  cases h with
  | answered hs hc ha =>
    rw [ha]
    exact .opened hs hc
  | broken hs hc => exact .failed (.call hs hc)

theorem Settled.ne_invalidConfig (h : Settled settings steps r) (text : String) :
    r ≠ .error (.invalidConfig text) := by
  cases h with
  | opened hs hc => nofun
  | failed hf =>
    intro heq
    injection heq with heq
    injection heq with hcode
    exact absurd hcode (by decide)

theorem settled_of_sound (h : settings.Sound) {σ : Type} (client : Client interface σ) (s : σ)
    (context : Context) :
    let r := (openNamed settings settings.backend.name).run (recorded client) (s, []) context
    Settled settings r.store.2 r.result := by
  rw [openNamed, Config.Backend.ofName?_name]
  dsimp only
  by_cases ht : ∃ f, Endless settings f
  · obtain ⟨f, hf⟩ := ht
    rw [openBackend_of_endless hf]
    exact .failed (.timeout hf)
  · exact .of_relayed ((relays_backend h (not_exists.mp ht)).run client smooth_nil s context)

end Settled

/-- Settings that the schema lets through open the backend that they name, by all its calls, or end
in an error of its initialization with the fault that was raised. The checks of the service refuse
nothing. -/
theorem opening_settled {data : Value} {settings : Settings}
    (h : Settings.ofValue data = .ok settings) {σ : Type} (client : Client interface σ) (s : σ)
    (context : Context) :
    let r := (openNamed settings settings.backend.name).run (recorded client) (s, []) context
    ((∃ b, r.result = .ok b ∧ b.name = settings.backend.name ∧ b = settings.chosen ∧
      Smooth r.store.2 ∧
        r.store.2.map Sigma.fst = callsOf settings) ∨
      ∃ f, r.result = .error (.notOpened settings.backend.name f) ∧ Raised settings f r.store.2) ∧
    ∀ text, r.result ≠ .error (.invalidConfig text) := by
  intro r
  have hr : Settled settings r.store.2 r.result :=
    settled_of_sound (Settings.sound_of_ofValue h) client s context
  refine ⟨?_, hr.ne_invalidConfig⟩
  generalize r.store.2 = steps, r.result = result at hr
  cases hr with
  | opened hs hc => exact .inl ⟨_, rfl, settings.name_chosen, rfl, hs, hc⟩
  | failed hf => exact .inr ⟨_, rfl, hf⟩

/-- A table that cannot be created. -/
theorem opening_settled_refused :
    let data : Value := .map [("backend", .text "postgres"),
      ("postgres", .map [("table", .text "locks_2"), ("pool_size", .text " 4 "),
        ("create_table", .text "Yes")])]
    let refusal : Fault := .reported .database none "permission denied"
    let client : Client interface Unit := fun
      | .connect .., s => (.ok (), s)
      | .prepare .., s => (.error refusal, s)
    ∃ settings, Settings.ofValue data = .ok settings ∧
      let r := (openNamed settings settings.backend.name).run (recorded client) ((), []) []
      r.result = .error (.notOpened "postgres" refusal) ∧ Raised settings refusal r.store.2 := by
  intro data refusal client
  cases hdata : Settings.ofValue data with
  | error e => cases hdata
  | ok settings =>
    refine ⟨settings, rfl, ?_⟩
    have hresult : ((openNamed settings settings.backend.name).run (recorded client)
      ((), []) []).result =
        .error (.notOpened "postgres" refusal) := by
      cases hdata
      rfl
    obtain ⟨⟨b, hb, -⟩ | ⟨f, hf, hraised⟩, -⟩ := opening_settled hdata client () []
    · cases hresult.symm.trans hb
    · obtain rfl := fault_of_notOpened (Except.error.inj (hresult.symm.trans hf))
      exact ⟨hresult, hraised⟩

end Opening

end Leasehold
