import RailNode.Time

/-
  The intervals of the protocol.
-/
namespace RailNode

structure Timing where
  /-- How long a negotiation of the node number may take. -/
  negotiationLimit : Time
  heartbeatInterval : Time
  /-- How long answers to a search for an address are awaited. -/
  searchWindow : Time
  /-- The gap between the replies of a series. -/
  replyGap : Time
deriving DecidableEq, Repr

def Timing.standard : Timing where
  negotiationLimit := Time.seconds 30
  heartbeatInterval := Time.seconds 5
  searchWindow := Time.milliseconds 100
  replyGap := Time.milliseconds 10

end RailNode
