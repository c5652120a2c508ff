import Leasehold.Backend
import Leasehold.Proofs.Service.Documents
import Leasehold.Proofs.Service.Items
import Leasehold.Proofs.Service.KeyValue
import Leasehold.Proofs.Service.Memory
import Leasehold.Proofs.Service.Table

/-!
# The five backends

What holds of every backend is stated for `Backend`, and proved from the laws of its system.
-/

namespace Leasehold

namespace Backend

def system : Backend → System
  | memory => Memory.system
  | keyValue options => KeyValue.system options
  | table options => Table.system options
  | items options => Items.system options
  | documents options => Documents.system options

/-- The SQL table goes by the caller's clock, and the field of a sweeper is none that is stored
anyway. -/
def Regular : Backend → Prop
  | table options => options.useServerTime = false
  | items options => options.Separate
  | documents options => options.Separate
  | _ => True

/-- The backends that read the record, decide and then write. -/
def ReadsFirst : Backend → Prop
  | memory | keyValue _ | documents _ => True
  | table _ | items _ => False

def laws : (b : Backend) → b.Regular → b.system.Laws
  | memory, _ => Memory.laws
  | keyValue options, _ => KeyValue.laws options
  | table _, h => Table.laws h
  | items _, h => Items.laws h
  | documents _, h => Documents.laws h

end Backend

end Leasehold
