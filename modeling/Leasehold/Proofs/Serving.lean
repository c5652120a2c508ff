import Leasehold.Proofs.Backend
import Leasehold.Proofs.Twin.Documents
import Leasehold.Proofs.Twin.Items
import Leasehold.Proofs.Twin.KeyValue
import Leasehold.Proofs.Twin.Memory
import Leasehold.Proofs.Twin.Table

/-!
# Visits

A visit is a request with all that it reads from its surroundings. Served on a store it runs to its
end: no call fails and nobody interferes. A lookup of any service comes to a reading of its store
(`Backend.twin_find`).
-/

namespace Leasehold
open Session Manager

/-- The lock that a request is about. -/
def Manager.Ask.lock : Ask → Identifier × Identifier
  | .get realm name => (realm, name)
  | .operate _ realm name .. => (realm, name)

/-- A request, its readings of clock and timer, and what the clock of an SQL server shows
meanwhile. -/
structure TimedAsk where
  ask : Ask
  timing : Timing
  serverNow : Int

namespace Backend

/-- The store when the clock of its server shows `now`. Only an SQL server has one. -/
def atServerTime : (b : Backend) → (now : Int) → b.system.Store → b.system.Store
  | table _, now, s => { s with serverNow := now }
  | memory, _, s | keyValue _, _, s | items _, _, s | documents _, _, s => s

/-- The manager serves a request. -/
def serve (b : Backend) (v : TimedAsk) (s : b.system.Store) (context : Context) :
    Run b.system.Store Answer :=
  (v.ask.session b.system.service v.timing).run b.system.client
    (b.atServerTime v.serverNow s) context

def slotOf (b : Backend) (v : TimedAsk) : b.system.Slot := b.system.slot v.ask.lock.1 v.ask.lock.2

/-- What a lookup makes of the store. -/
def reading : (b : Backend) → b.system.Store → (realm name : String) → Except Fault (Option Lock)
  | memory, s, realm, name => .ok (Assoc.find? s (Lock.keyOf realm name))
  | keyValue options, s, realm, name =>
    (KeyValue.looked s (KeyValue.keyOf options realm name)).map Prod.fst
  | table _, s, realm, name => Table.reading (Assoc.find? s.rows (realm, name))
  | items _, s, realm, name => Items.reading (Assoc.find? s (Lock.keyOf realm name))
  | documents options, s, realm, name =>
    Documents.reading (Assoc.find? s (Documents.pathOf options realm name))

theorem twin_find {b : Backend} {Γ : Context → Context → Prop}
    {T : b.system.Store → b.system.Store → Prop} {s s' : b.system.Store}
    {R : Option Lock → Option Lock → Prop} {realm name : String} (hT : T s s') (hnone : R none none)
    (h : Alike R (b.reading s realm name) (b.reading s' realm name)) :
    Twin Γ T b.system.client (fun l l' _ _ => R l l') (b.system.service.find realm name)
      (b.system.service.find realm name) s s' := by
  cases b with
  | memory => cases h with | ok h => exact Memory.twin_find hT h
  | keyValue options => exact KeyValue.twin_find hT hnone (Alike.of_map h)
  | table options => exact Table.twin_find hT hnone h
  | items options => exact Items.twin_find hT hnone h
  | documents options => exact Documents.twin_find hT hnone h

end Backend

end Leasehold
