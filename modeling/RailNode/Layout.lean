import RailNode.Store

/-
  Where a node keeps its data in the store: the identity in the first ten bytes, then the node
  variables and the table of learned events, in either order and with gaps if need be.
-/
namespace RailNode

/-- The sizes and places of the two variable regions. -/
structure Layout where
  nodeVariableCount : UInt8
  nodeVariableStart : Nat
  eventCount : UInt8
  eventVariableCount : UInt8
  eventStart : Nat
deriving DecidableEq, Repr

/-- Why a layout cannot be used. -/
inductive LayoutError where
  /-- The regions overlap each other or the identity. -/
  | overlap
  | tooManyEventVariables
  /-- The store is too small. -/
  | outOfCapacity
deriving DecidableEq, Repr

namespace Layout

/-- The size of the identity at the start of the store. -/
def identitySize : Nat := 10

/-- The bytes of an event record before its variables. -/
def recordHeaderSize : Nat := 4

/-- The most variables that an event may have. -/
def maxEventVariables : Nat := 20

/-- The layout without gaps: the identity, the node variables, the events. -/
def compact (nodeVariables events eventVariables : UInt8) : Layout :=
  { nodeVariableCount := nodeVariables
    nodeVariableStart := identitySize
    eventCount := events
    eventVariableCount := eventVariables
    eventStart := identitySize + nodeVariables.toNat }

/-- Room for 16 node variables and 64 events with 4 variables each. -/
def standard : Layout := compact 16 64 4

/-- The number of node variables. -/
def nodeVariables (l : Layout) : Nat := l.nodeVariableCount.toNat

/-- The number of slots for events. -/
def slots (l : Layout) : Nat := l.eventCount.toNat

/-- The number of variables of an event. -/
def eventVariables (l : Layout) : Nat := l.eventVariableCount.toNat

/-- The size of an event record. -/
def recordSize (l : Layout) : Nat := recordHeaderSize + l.eventVariables

def nodeVariableEnd (l : Layout) : Nat := l.nodeVariableStart + l.nodeVariables

def eventEnd (l : Layout) : Nat := l.eventStart + l.slots * l.recordSize

/-- The address of the node variable with an index from 1 on. -/
def nodeVariableAddress (l : Layout) (index : Nat) : Nat := l.nodeVariableStart + index - 1

/-- The address of an event record. -/
def recordAddress (l : Layout) (slot : Nat) : Nat := l.eventStart + slot * l.recordSize

/-- The address of the variable of an event with an index from 1 on. -/
def eventVariableAddress (l : Layout) (slot index : Nat) : Nat :=
  l.recordAddress slot + recordHeaderSize + index - 1

/-- Whether a region begins inside the identity or the regions share a byte. An empty region
    inside the other counts as an overlap too. -/
def overlaps (l : Layout) : Bool :=
  l.nodeVariableStart < identitySize || l.eventStart < identitySize ||
    (l.nodeVariableStart < l.eventEnd && l.eventStart < l.nodeVariableEnd)

/-- What is wrong with a layout for a store of this capacity, if anything. -/
def error? (l : Layout) (capacity : Nat) : Option LayoutError :=
  if l.overlaps then some .overlap
  else if maxEventVariables < l.eventVariables then some .tooManyEventVariables
  else if capacity < l.eventEnd || capacity < l.nodeVariableEnd then some .outOfCapacity
  else none

end Layout

end RailNode
