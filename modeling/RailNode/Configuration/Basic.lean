import RailNode.Address
import RailNode.Event
import RailNode.Layout
import RailNode.Mode

/-
  The configuration of a node: its store, a copy of its identity, and an index of the event table.
  Every change of the store goes through `write`, `writeBytes` and `erase`, which keep the layout
  valid.
-/
namespace RailNode

/-- The configuration of a node over a store that its layout fits. -/
structure Configuration where
  layout : Layout
  store : Store
  mode : Mode
  nodeNumber : UInt16
  address : BusAddress
  /-- The heartbeat and acknowledge bits, and whatever else the stored byte held. -/
  flags : UInt8
  /-- Learn mode. It is not stored. -/
  learning : Bool
  /-- For each slot the hash of its event, or 0 if the slot is free. -/
  index : Vector UInt8 layout.slots
  fits : layout.error? store.capacity = none

namespace Configuration

/-! ## Places of the identity -/

def modeAddress : Nat := 0
def busAddressAddress : Nat := 1
def nodeNumberAddress : Nat := 2
def flagsAddress : Nat := 4
def resetMarkerAddress : Nat := 5

/-- The reset marker after a factory reset. -/
def resetPerformed : UInt8 := 0x99

/-- The flag for the heartbeat. -/
def heartbeatFlag : UInt8 := 0x01

/-- The flag for the acknowledgement of events. -/
def acknowledgeFlag : UInt8 := 0x02

/-- The flags after a factory reset. -/
def defaultFlags : UInt8 := heartbeatFlag

/-- A configuration over a store from which nothing has been read yet. -/
def ofStore (layout : Layout) (store : Store) : Except LayoutError Configuration :=
  match h : layout.error? store.capacity with
  | some e => .error e
  | none =>
    .ok
      { layout, store
        mode := .uninitialised
        nodeNumber := 0
        address := .unassigned
        flags := defaultFlags
        learning := false
        index := Vector.replicate layout.slots 0
        fits := h }

/-! ## Access to the store -/

/-- Writes a byte of the store. -/
def write (c : Configuration) (address : Nat) (value : UInt8) : Configuration :=
  { c with
    store := c.store.write address value
    fits := by rw [Store.capacity_write]; exact c.fits }

/-- Writes several bytes of the store. -/
def writeBytes (c : Configuration) (address : Nat) (values : List UInt8) : Configuration :=
  { c with
    store := c.store.writeBytes address values
    fits := by rw [Store.capacity_writeBytes]; exact c.fits }

/-- Erases the store. -/
def erase (c : Configuration) : Configuration :=
  { c with
    store := c.store.erase
    fits := by rw [Store.capacity_erase]; exact c.fits }

/-- Reads a word of the store. -/
def readWord (c : Configuration) (address : Nat) : UInt16 :=
  Word.ofBytes (c.store.readBytes address 2)

end Configuration

end RailNode
