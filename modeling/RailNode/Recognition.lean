import RailNode.Configuration.EventTable
import RailNode.Message

/-
  Recognising a learned event in a message from the bus.
-/
namespace RailNode

/-- A learned event as a message has brought it. -/
structure RecognisedEvent where
  slot : Nat
  /-- The event as sent: in a short event the number of the sending node, while the table has 0. -/
  event : EventId
  short : Bool
  on : Bool
  data : List UInt8
deriving DecidableEq, Repr

/-- The event under which the table files what a message brings. -/
def EventId.key (e : EventId) (short : Bool) : EventId := if short then { e with node := 0 } else e

/-- The learned event that a message carries, if it is complete and in the table. -/
def Configuration.recognise? (c : Configuration) (m : Message) : Option RecognisedEvent := do
  let code ← m.eventCode?
  guard m.isComplete
  let event ← m.event?
  let slot ← (c.find (event.key code.short)).toOption
  let data := (m.bytes.drop 5).take code.data
  return { slot, event, short := code.short, on := code.on, data }

end RailNode
