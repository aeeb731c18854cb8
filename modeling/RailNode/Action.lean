import RailNode.Message
import RailNode.Mode

/-
  The actions that pass through the queue of a node.
-/
namespace RailNode

/-- Something for the services of a node to do. -/
inductive Action where
  /-- A message came in from the bus. -/
  | received (m : Message)
  /-- A message is to be sent. -/
  | transmit (m : Message)
  /-- The bus address is to be chosen anew; `forPeer` if another node asked for it. -/
  | searchAddress (forPeer : Bool)
  /-- The user moves the node on to its next mode. -/
  | advanceMode
  /-- The user asks for a new node number; the node keeps its own until then. -/
  | renegotiate
  /-- The user interface may blink. -/
  | showActivity
  /-- The mode has changed. -/
  | showMode (mode : Mode)
deriving DecidableEq, Repr

end RailNode
