import RailNode.Action
import RailNode.Parameters
import RailNode.Response
import RailNode.Timing

/-
  The facts of a cycle. In every cycle the node takes at most one action from its queue and offers
  it to each of its services in turn.
-/
namespace RailNode

/-- What discovery tells of a service. -/
structure ServiceInfo where
  id : ServiceId
  version : UInt8
deriving DecidableEq, Repr

/-- What a service can know of a cycle and of the node. -/
structure Cycle where
  now : Time
  /-- The action that was taken from the queue. -/
  action : Option Action
  /-- The services of the node, in order. -/
  services : List ServiceInfo
  parameters : Parameters
  timing : Timing

/-- The message that came in, if that is the action of the cycle. -/
def Cycle.received? (c : Cycle) : Option Message :=
  match c.action with
  | some (.received m) => some m
  | _ => none

end RailNode
