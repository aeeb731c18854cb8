import RailNode.Series
import RailNode.Service.Turn

/-
  The state of the service that teaches events, and its reports.
-/
namespace RailNode

/-- The long answers of the service. -/
inductive EventListing where
  /-- Every stored event. -/
  | events
  /-- The variables of a slot, reported with the event. -/
  | eventVariables (slot : Nat)
  /-- The variables of a slot, reported with the slot. -/
  | slotVariables (slot : Nat)
deriving DecidableEq, Repr

structure Teaching where
  listing : Option (Series EventListing) := none
  /-- How many events have been learned. -/
  learned : UInt16 := 0
deriving DecidableEq, Repr

namespace Teaching

/-- Reports the event in a slot. -/
def sendEvent (slot : Nat) (t : Turn Teaching) : Turn Teaching :=
  match t.config.event slot with
  | .ok e => t.reply .enrsp (e.bytes ++ [UInt8.ofNat slot])
  | .error _ => t

/-- Reports a variable with the event in its slot. -/
def sendVariable (slot : Nat) (index value : UInt8) (t : Turn Teaching) : Turn Teaching :=
  match t.config.event slot with
  | .ok e =>
    t.send (.addressed Opcode.evans.byte e.node (Word.bytes e.number ++ [index, value]))
  | .error _ => t

/-- Reports a variable with its slot. -/
def sendSlotVariable (slot : Nat) (index value : UInt8) (t : Turn Teaching) : Turn Teaching :=
  t.reply .neval [UInt8.ofNat slot, index, value]

end Teaching

end RailNode
