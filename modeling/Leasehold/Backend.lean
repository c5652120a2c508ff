import Leasehold.Service.Documents
import Leasehold.Service.Items
import Leasehold.Service.KeyValue
import Leasehold.Service.Memory
import Leasehold.Service.Table

/-! # Backends

The five kinds of lock services, each with the options that its service goes by. -/

namespace Leasehold

/-- A backend with its options. -/
inductive Backend where
  | memory
  | keyValue (options : KeyValue.Options)
  | table (options : Table.Options)
  | items (options : Items.Options)
  | documents (options : Documents.Options)

/-- The name that its service goes by. -/
def Backend.name : Backend → String
  | memory => Memory.service.name
  | keyValue options => (KeyValue.service options).name
  | table options => (Table.service options).name
  | items options => (Items.service options).name
  | documents options => (Documents.service options).name

end Leasehold
