import RailNode.Series
import RailNode.Service.Turn

/-
  The state of the service that every node has.
-/
namespace RailNode

/-- The long answers of the service. -/
inductive Listing where
  | parameters
  | services
deriving DecidableEq, Repr

/-- A negotiation of the node number, and what to go back to without success. -/
structure Negotiation where
  started : Time
  previousMode : Mode
  previousNumber : UInt16
deriving DecidableEq, Repr

structure MinimumNode where
  negotiation : Option Negotiation := none
  heartbeatDue : Option Time := none
  /-- The number of the next heartbeat. -/
  heartbeatNumber : UInt8 := 0
  listing : Option (Series Listing) := none
  /-- The first cycle of the node. -/
  started : Option Time := none
  /-- How often the node number has changed. -/
  numberChanges : UInt16 := 0
deriving DecidableEq, Repr

end RailNode
