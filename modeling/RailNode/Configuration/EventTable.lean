import RailNode.Configuration.Basic

/-
  The table of learned events. A record starts with the four bytes of the identity of its event,
  all erased in a free slot. The index holds a hash for each slot; since hashes collide, a match
  is checked against the record. `writeEvent` and `clearEvent` leave the index to `reindex`.
-/
namespace RailNode

/-- Why an access to the event table failed. -/
inductive EventError where
  | notFound
  | tableFull
  | invalidSlot
  | invalidVariable
deriving DecidableEq, Repr

namespace Configuration

/-! ## Records -/

/-- The identity in a slot; in a free slot that of erased bytes. -/
def event (c : Configuration) (slot : Nat) : Except EventError EventId :=
  if slot < c.layout.slots then
    let address := c.layout.recordAddress slot
    .ok ⟨c.readWord address, c.readWord (address + 2)⟩
  else .error .invalidSlot

def writeEvent (slot : Nat) (e : EventId) (c : Configuration) : Except EventError Configuration :=
  if slot < c.layout.slots then .ok (c.writeBytes (c.layout.recordAddress slot) e.bytes)
  else .error .invalidSlot

/-- Erases the record of a slot. -/
def eraseRecord (slot : Nat) (c : Configuration) : Configuration :=
  (List.range c.layout.recordSize).foldl
    (fun d i => d.write (c.layout.recordAddress slot + i) Store.erased) c

def clearEvent (slot : Nat) (c : Configuration) : Except EventError Configuration :=
  if slot < c.layout.slots then .ok (c.eraseRecord slot) else .error .invalidSlot

/-- The address of a variable of an event, if there is one with these numbers. -/
def variableAddress (c : Configuration) (slot index : Nat) : Except EventError Nat :=
  if c.layout.slots ≤ slot then .error .invalidSlot
  else if index = 0 ∨ c.layout.eventVariables < index then .error .invalidVariable
  else .ok (c.layout.eventVariableAddress slot index)

/-- The variable of an event, with an index from 1 on. -/
def eventVariable (c : Configuration) (slot index : Nat) : Except EventError UInt8 :=
  (c.variableAddress slot index).map c.store.read

def setEventVariable (slot index : Nat) (value : UInt8) (c : Configuration) :
    Except EventError Configuration :=
  (c.variableAddress slot index).map fun address => c.write address value

/-! ## The index -/

/-- The event in the record of a slot; none if its four bytes are erased. -/
def record? (c : Configuration) (slot : Nat) : Option EventId :=
  let header := c.store.readBytes (c.layout.recordAddress slot) Layout.recordHeaderSize
  if header = List.replicate Layout.recordHeaderSize Store.erased then none
  else some (EventId.ofBytes header)

/-- What the index should hold for a slot. -/
def indexEntry (c : Configuration) (slot : Nat) : UInt8 :=
  match c.record? slot with
  | none => 0
  | some e => e.hash

/-- Brings the index entry of a slot up to date; of no slot, nothing. -/
def reindex (slot : Nat) (c : Configuration) : Configuration :=
  { c with index := c.index.setIfInBounds slot (c.indexEntry slot) }

/-- Brings the whole index up to date. -/
def reindexAll (c : Configuration) : Configuration :=
  (List.range c.layout.slots).foldl (fun d slot => d.reindex slot) c

/-- Marks every slot as free in the index. -/
def clearIndex (c : Configuration) : Configuration :=
  { c with index := Vector.replicate c.layout.slots 0 }

/-- Whether the index calls a slot free; a slot beyond the table counts as free. -/
def isFree (c : Configuration) (slot : Nat) : Bool :=
  match c.index[slot]? with
  | none => true
  | some h => h == 0

/-- How many events are stored. -/
def storedCount (c : Configuration) : Nat := c.index.toList.countP (· != 0)

/-- How many slots are free. -/
def freeCount (c : Configuration) : Nat := c.layout.slots - c.storedCount

/-- The first slot that the index files under the hash of an event and whose record holds it. -/
def find (e : EventId) (c : Configuration) : Except EventError Nat :=
  match (List.range c.layout.slots).find? fun slot =>
      c.index[slot]? == some e.hash && (c.event slot).toOption == some e with
  | some slot => .ok slot
  | none => .error .notFound

/-- The first free slot. -/
def findFree (c : Configuration) : Except EventError Nat :=
  match (List.range c.layout.slots).find? c.isFree with
  | some slot => .ok slot
  | none => .error .tableFull

/-- Erases every stored event. -/
def clearEvents (c : Configuration) : Configuration :=
  ((List.range c.layout.slots).foldl
    (fun d slot => if d.isFree slot then d else d.eraseRecord slot) c).clearIndex

/-! ## Entries -/

/-- Files an event in a slot, with all its variables 0. -/
def insertEvent (slot : Nat) (e : EventId) (c : Configuration) :
    Except EventError Configuration := do
  let c ← c.writeEvent slot e
  let c ← (List.range' 1 c.layout.eventVariables).foldlM
    (fun d index => d.setEventVariable slot index 0) c
  return c.reindex slot

/-- Takes the event in a slot out of the table. -/
def removeEvent (slot : Nat) (c : Configuration) : Except EventError Configuration :=
  (c.clearEvent slot).map (·.reindex slot)

end Configuration

end RailNode
