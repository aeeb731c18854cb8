import RailNode.Configuration.Identity
import RailNode.Configuration.NodeVariables
import RailNode.Configuration.EventTable

/-
  Factory reset and start-up. A virgin store, in which mode and node number are erased, is reset
  at start-up, and the device restarts. A negotiation that a restart cut short is undone: a node
  that had a number is in normal mode again.
-/
namespace RailNode.Configuration

/-- Erases the store and writes the factory identity. -/
def factoryReset (c : Configuration) : Configuration :=
  c.erase
    |>.setMode .uninitialised
    |>.setNodeNumber 0
    |>.setAddress .unassigned
    |>.setFlags defaultFlags
    |>.clearNodeVariables
    |>.write resetMarkerAddress resetPerformed
    |>.setLearning false
    |>.clearIndex

/-- Whether the store has never been written, or looks like it. -/
def isVirgin (c : Configuration) : Bool :=
  c.store.read modeAddress == Store.erased && c.readWord nodeNumberAddress == 0xffff

/-- The mode in which a node starts, from the stored mode and its number. -/
def startMode (stored : UInt8) (number : UInt16) : Mode :=
  match Mode.ofByte? stored with
  | some .normal => .normal
  | some .setup => if number = 0 then .uninitialised else .normal
  | _ => .uninitialised

/-- Reads the identity from the store and indexes the events. -/
def load (c : Configuration) : Configuration :=
  let number := c.readWord nodeNumberAddress
  reindexAll
    { c with
      nodeNumber := number
      mode := startMode (c.store.read modeAddress) number
      address := .truncate (c.store.read busAddressAddress)
      flags := c.store.read flagsAddress
      learning := false }

/-- The outcome of a start. -/
inductive Start where
  | ready (c : Configuration)
  /-- The store was virgin; it has been reset and the device must restart. -/
  | restart (c : Configuration)

def start (c : Configuration) : Start :=
  if c.isVirgin then .restart c.factoryReset else .ready c.load

end RailNode.Configuration
