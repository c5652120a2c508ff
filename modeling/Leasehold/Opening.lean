import Leasehold.Backend
import Leasehold.Config.Schema

/-! # Opening a backend

Settings name a backend; opening it connects a client, makes a service of it and, for the SQL table,
creates the table when asked to. A service checks its options itself. A fault on the way is an error
of the backend's initialization. -/

namespace Leasehold

namespace Config

def FirestoreSection.options (s : FirestoreSection) : Documents.Options := ⟨s.collection, s.ttlField⟩

def DynamoDbSection.options (s : DynamoDbSection) : Items.Options := ⟨s.ttlAttribute⟩

def EtcdSection.options (s : EtcdSection) : Except Error KeyValue.Options := do
  return ⟨s.keyRoot, ← KeyValue.retriesOf s.maxRetries⟩

def PostgresSection.options (s : PostgresSection) : Except Error Table.Options := do
  return ⟨← Argument.tableNameText s.table, s.useServerTime⟩

end Config

namespace Opening

open Config

inductive Call where
  /-- Makes a client, or a part of one. -/
  | connect (client : String) (args : List Value) (options : Value.Fields)
  /-- Readies the table. -/
  | prepare (call : Table.Call)

def Reply (_ : Call) : Type := Unit

abbrev interface : Interface := ⟨Call, Reply⟩

def make (call : Call) : Session interface Unit := Session.ask (I := interface) call

def firestoreClient (s : FirestoreSection) : Call :=
  .connect "AsyncClient" [] [("project", .ofText? s.project), ("database", .text s.database)]

def openFirestore (s : FirestoreSection) : Session interface Documents.Options := do
  make (firestoreClient s)
  return s.options

def dynamoDbResource (s : DynamoDbSection) : Call :=
  .connect "boto3.resource" [.text "dynamodb"]
    [("region_name", .text s.region), ("endpoint_url", .ofText? s.endpointUrl),
     ("aws_access_key_id", .ofText? s.accessKeyId), ("aws_secret_access_key", .ofText? s.secretAccessKey)]

def dynamoDbTable (s : DynamoDbSection) : Call := .connect "Table" [.text s.tableName] []

def openDynamoDb (s : DynamoDbSection) : Session interface Items.Options := do
  make (dynamoDbResource s)
  make (dynamoDbTable s)
  return s.options

def seconds (milliseconds : Int) : Except Fault Float :=
  let x := Number.floatOfDecimal milliseconds.toNat (-3)
  if x.isInf then .error .quotientTooLarge else .ok x

/-- A path of a certificate, unless certificates are switched off. -/
def certificate (tls : TlsSection) (path : Option String) : Value :=
  .ofText? (if tls.enabled then path else none)

def etcdClient (s : EtcdSection) (timeout : Float) : Call :=
  let tls := s.tls
  .connect "etcd3.client" []
    [("host", .text s.host), ("port", .int s.port), ("timeout", .float timeout),
      ("user", .ofText? s.username),
     ("password", .ofText? s.password), ("ca_cert", certificate tls tls.caCertPath),
     ("cert_cert", certificate tls tls.clientCertPath), ("cert_key", certificate tls tls.clientKeyPath)]

def openEtcd (s : EtcdSection) : Session interface KeyValue.Options := do
  let timeout ← Session.ofReading (seconds s.requestTimeoutMs)
  make (etcdClient s timeout)
  Session.ofExcept s.options

def postgresPool (s : PostgresSection) : Call :=
  .connect "asyncpg.create_pool" []
    [("host", .text s.host), ("port", .int s.port), ("database", .text s.database), ("user", .text s.user),
     ("password", .ofText? s.password), ("ssl", if s.ssl then .text "require" else .null),
     ("min_size", .int 1),
     ("max_size", .int s.poolSize)]

def openPostgres (s : PostgresSection) : Session interface Table.Options := do
  make (postgresPool s)
  let options ← Session.ofExcept s.options
  if s.createTable then make (.prepare ⟨options.table, .create⟩)
  return options

def openService (s : Settings) : Config.Backend → Session interface Backend
  | .memory => .done .memory
  | .firestore => .documents <$> openFirestore s.firestore
  | .dynamodb => .items <$> openDynamoDb s.dynamodb
  | .etcd => .keyValue <$> openEtcd s.etcd
  | .postgres => .table <$> openPostgres s.postgres

def failed (backend : Config.Backend) : Error → Error
  | .fault f => .notOpened backend.name f
  | e => e

def openedEntry (backend : Backend) : Log.Entry :=
  ⟨.info, "lock backend initialized", [("lock_backend", .text backend.name)]⟩

def openBackend (s : Settings) (backend : Config.Backend) : Session interface Backend := do
  let opened ← (openService s backend).rescue (fun _ => true) fun e => .fail (failed backend e)
  Session.log (openedEntry opened)
  return opened

def openNamed (s : Settings) (name : String) : Session interface Backend :=
  match Config.Backend.ofName? name with
  | some backend => openBackend s backend
  | none => .fail (.invalidConfig ("Unknown lock backend: " ++ name))

/-- Creating a client always succeeds; the table is readied in the store. -/
def client : Session.Client interface Table.Store
  | .connect .., s => (.ok (), s)
  | .prepare call, s => let (reply, s') := Table.client call s; (reply.map fun _ => (), s')

end Opening

end Leasehold
