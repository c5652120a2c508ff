import Leasehold.Config.Coerce
import Leasehold.Lock.Argument

/-! # The schema of settings

Settings come in sections, one per backend and one for the log. Every field has a default, so that
any map is read; keys that no field has are ignored. All issues of a document are found at once, in
the order of the fields. -/

namespace Leasehold.Config

/-- A reading that collects every issue. -/
inductive Checked (α : Type) where
  | ok (a : α)
  | issues (found : List Issue)

namespace Checked

instance : Functor Checked where
  map f
    | .ok a => .ok (f a)
    | .issues found => .issues found

/-- Applies one reading to another; the issues of both are kept. -/
def apply {α β : Type} : Checked (α → β) → Checked α → Checked β
  | .ok f, .ok a => .ok (f a)
  | .ok _, .issues found => .issues found
  | .issues found, .ok _ => .issues found
  | .issues found, .issues more => .issues (found ++ more)

instance : Seq Checked where
  seq f a := f.apply (a ())

end Checked

/-- A place in a document, and the map that stands there. -/
structure At where
  place : List String
  fields : Value.Fields

/-- The field `name`, or its default when it is not there. -/
def At.field {α : Type} (here : At) (name : String) (read : Value → Except Complaint α)
    (default : α) : Checked α :=
  match Assoc.find? here.fields name with
  | none => .ok default
  | some v => match read v with
    | .ok a => .ok a
    | .error c => .issues [⟨here.place ++ [name], c.type, c.text⟩]

/-- A map at `place`, read as the model of that name. -/
def asModel {α : Type} (model : String) (place : List String) (read : At → Checked α) (v : Value) :
    Checked α :=
  match v with
  | .map fields => read ⟨place, fields⟩
  | _ => let c := Complaint.mapOf model; .issues [⟨place, c.type, c.text⟩]

/-- The section `name`, or its defaults when it is not there. -/
def At.within {α : Type} (here : At) (name model : String) (read : At → Checked α) (default : α) :
    Checked α :=
  match Assoc.find? here.fields name with
  | none => .ok default
  | some v => asModel model (here.place ++ [name]) read v

structure LogSection where
  level : String := "INFO"
  format : String := "json"

def formats : List String := ["json", "text"]

def LogSection.read (here : At) : Checked LogSection :=
  LogSection.mk <$> here.field "level" toText "INFO"
    <*> here.field "format" (toWord formats) "json"

def LogSection.toValue (s : LogSection) : Value :=
  .map [("level", .text s.level), ("format", .text s.format)]

structure FirestoreSection where
  project : Option String := none
  database : String := "(default)"
  collection : String := "locks"
  ttlField : Option String := some "ttl"

def FirestoreSection.read (here : At) : Checked FirestoreSection :=
  FirestoreSection.mk <$> here.field "project" toOptionalText none
    <*> here.field "database" toText "(default)"
    <*> here.field "collection" toText "locks"
    <*> here.field "ttl_field" toOptionalText (some "ttl")

def FirestoreSection.toValue (s : FirestoreSection) : Value :=
  .map [("project", .ofText? s.project), ("database", .text s.database), ("collection", .text s.collection),
        ("ttl_field", .ofText? s.ttlField)]

structure DynamoDbSection where
  tableName : String := "locks"
  region : String := "us-east-1"
  endpointUrl : Option String := none
  accessKeyId : Option String := none
  secretAccessKey : Option String := none
  ttlAttribute : Option String := none

def DynamoDbSection.read (here : At) : Checked DynamoDbSection :=
  DynamoDbSection.mk <$> here.field "table_name" toText "locks"
    <*> here.field "region" toText "us-east-1"
    <*> here.field "endpoint_url" toOptionalText none
    <*> here.field "access_key_id" toOptionalText none
    <*> here.field "secret_access_key" toOptionalText none
    <*> here.field "ttl_attribute" toOptionalText none

def DynamoDbSection.toValue (s : DynamoDbSection) : Value :=
  .map [("table_name", .text s.tableName), ("region", .text s.region),
    ("endpoint_url", .ofText? s.endpointUrl),
        ("access_key_id", .ofText? s.accessKeyId), ("secret_access_key", .ofText? s.secretAccessKey),
        ("ttl_attribute", .ofText? s.ttlAttribute)]

structure TlsSection where
  enabled : Bool := false
  caCertPath : Option String := none
  clientCertPath : Option String := none
  clientKeyPath : Option String := none

def TlsSection.read (here : At) : Checked TlsSection :=
  TlsSection.mk <$> here.field "enabled" toBool false
    <*> here.field "ca_cert_path" toOptionalText none
    <*> here.field "client_cert_path" toOptionalText none
    <*> here.field "client_key_path" toOptionalText none

def TlsSection.toValue (s : TlsSection) : Value :=
  .map [("enabled", .bool s.enabled), ("ca_cert_path", .ofText? s.caCertPath),
        ("client_cert_path", .ofText? s.clientCertPath), ("client_key_path", .ofText? s.clientKeyPath)]

structure EtcdSection where
  host : String := "localhost"
  port : Int := 2379
  keyRoot : String := "locks/"
  maxRetries : Int := 3
  requestTimeoutMs : Int := 5000
  username : Option String := none
  password : Option String := none
  tls : TlsSection := {}

def maxPort : Int := 65535

def EtcdSection.read (here : At) : Checked EtcdSection :=
  EtcdSection.mk <$> here.field "host" toText "localhost"
    <*> here.field "port" (toIntWithin 1 (some maxPort)) 2379
    <*> here.field "key_prefix" toText "locks/"
    <*> here.field "max_retries" (toIntWithin 0 none) 3
    <*> here.field "request_timeout_ms" (toIntWithin 1 none) 5000
    <*> here.field "username" toOptionalText none
    <*> here.field "password" toOptionalText none
    <*> here.within "tls" "EtcdTlsSection" TlsSection.read {}

def EtcdSection.toValue (s : EtcdSection) : Value :=
  .map [("host", .text s.host), ("port", .int s.port), ("key_prefix", .text s.keyRoot),
        ("max_retries", .int s.maxRetries), ("request_timeout_ms", .int s.requestTimeoutMs),
        ("username", .ofText? s.username), ("password", .ofText? s.password), ("tls", s.tls.toValue)]

structure PostgresSection where
  host : String := "localhost"
  port : Int := 5432
  database : String := "lockservice"
  user : String := "postgres"
  password : Option String := none
  ssl : Bool := false
  table : String := "locks"
  poolSize : Int := 10
  useServerTime : Bool := false
  createTable : Bool := false

def toTableName (v : Value) : Except Complaint String := do
  let s ← toText v
  match Argument.tableNameText s with
  | .ok t => return t
  | .error e => throw (.value e.message)

def PostgresSection.read (here : At) : Checked PostgresSection :=
  PostgresSection.mk <$> here.field "host" toText "localhost"
    <*> here.field "port" (toIntWithin 1 (some maxPort)) 5432
    <*> here.field "database" toText "lockservice"
    <*> here.field "user" toText "postgres"
    <*> here.field "password" toOptionalText none
    <*> here.field "ssl" toBool false
    <*> here.field "table" toTableName "locks"
    <*> here.field "pool_size" (toIntWithin 1 none) 10
    <*> here.field "use_server_time" toBool false
    <*> here.field "create_table" toBool false

def PostgresSection.toValue (s : PostgresSection) : Value :=
  .map [("host", .text s.host), ("port", .int s.port), ("database", .text s.database),
    ("user", .text s.user),
        ("password", .ofText? s.password), ("ssl", .bool s.ssl), ("table", .text s.table),
        ("pool_size", .int s.poolSize), ("use_server_time", .bool s.useServerTime),
        ("create_table", .bool s.createTable)]

inductive Backend where
  | memory
  | firestore
  | dynamodb
  | etcd
  | postgres
deriving DecidableEq, Repr

namespace Backend

def all : List Backend := [memory, firestore, dynamodb, etcd, postgres]

def name : Backend → String
  | memory => "memory"
  | firestore => "firestore"
  | dynamodb => "dynamodb"
  | etcd => "etcd"
  | postgres => "postgres"

def ofName? (s : String) : Option Backend := all.find? fun b => b.name = s

theorem ofName?_name (b : Backend) : ofName? b.name = some b := by cases b <;> decide +kernel

end Backend

def toBackend (v : Value) : Except Complaint Backend :=
  let complaint := Complaint.oneOf (Backend.all.map Backend.name)
  match v with
  | .text s => match Backend.ofName? s with
    | some b => .ok b
    | none => .error complaint
  | _ => .error complaint

structure Settings where
  backend : Backend := .memory
  log : LogSection := {}
  firestore : FirestoreSection := {}
  dynamodb : DynamoDbSection := {}
  etcd : EtcdSection := {}
  postgres : PostgresSection := {}

def Settings.model : String := "LockServiceConfig"

def Settings.readFields (here : At) : Checked Settings :=
  Settings.mk <$> here.field "backend" toBackend .memory
    <*> here.within "log" "LogSection" LogSection.read {}
    <*> here.within "firestore" "FirestoreSection" FirestoreSection.read {}
    <*> here.within "dynamodb" "DynamoDbSection" DynamoDbSection.read {}
    <*> here.within "etcd" "EtcdSection" EtcdSection.read {}
    <*> here.within "postgres" "PostgresSection" PostgresSection.read {}

def Settings.read (v : Value) : Checked Settings := asModel model [] readFields v

def Settings.toValue (s : Settings) : Value :=
  .map [("backend", .text s.backend.name), ("log", s.log.toValue), ("firestore", s.firestore.toValue),
        ("dynamodb", s.dynamodb.toValue), ("etcd", s.etcd.toValue), ("postgres", s.postgres.toValue)]

def Settings.ofValue (v : Value) : Except Error Settings :=
  match Settings.read v with
  | .ok s => .ok s
  | .issues found => .error (.schema Settings.model found)

def LogSection.ofValue (v : Value) : Except Error LogSection :=
  match asModel "LogSection" [] LogSection.read v with
  | .ok s => .ok s
  | .issues found => .error (.schema "LogSection" found)

/-- A backend other than memory must have its section, so that nobody works on a store by defaults
alone. -/
def requireSection (fields : Value.Fields) : Except Error Unit :=
  match Assoc.find? fields "backend" with
  | some (.text b) =>
    if b = "memory" then .ok ()
    else match Assoc.find? fields b with
      | some (.map _) => .ok ()
      | _ => .error (.sectionRequired b)
  | _ => .ok ()

/-- The same for a document, which must be a map. -/
def requireSectionIn (document : Value) : Except Error Unit :=
  match document with
  | .map fields => requireSection fields
  | v => .error (.fault (.withoutMember v.kind "get"))

end Leasehold.Config
