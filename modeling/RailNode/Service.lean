import RailNode.Service.BusAccess
import RailNode.Service.EventAcknowledge
import RailNode.Service.EventConsumer
import RailNode.Service.EventProducer
import RailNode.Service.LongMessage
import RailNode.Service.MinimumNode
import RailNode.Service.Teaching
import RailNode.Service.VariableAccess

/-
  The services of a node as one type.
-/
namespace RailNode

/-- A service of a node. -/
inductive Service where
  | minimumNode (s : MinimumNode)
  | busAccess (s : BusAccess)
  | nodeVariables (s : VariableAccess)
  | teaching (s : Teaching)
  | consumer (s : EventConsumer)
  | producer (s : EventProducer)
  | acknowledge (s : EventAcknowledge)
  | longMessage (s : LongMessage)
deriving DecidableEq, Repr

namespace Service

def id : Service → ServiceId
  | minimumNode _ => .minimumNode
  | busAccess _ => .busAccess
  | nodeVariables _ => .nodeVariables
  | teaching _ => .teaching
  | consumer _ => .consumer
  | producer _ => .producer
  | acknowledge _ => .acknowledge
  | longMessage _ => .longMessage

/-- The version of every service. -/
def version : UInt8 := 1

/-- What discovery tells of a service. -/
def info (s : Service) : ServiceInfo := ⟨s.id, version⟩

/-- The bits of the flags parameter that a service contributes. -/
def flags : Service → UInt8
  | consumer s => s.flags
  | producer _ => EventProducer.flags
  | _ => 0

/-- The turn of a service in a cycle. -/
def turn (c : Cycle) (t : Turn Service) : Except Halt (Turn Service) :=
  match t.self with
  | minimumNode s => (MinimumNode.turn c (t.withSelf s)).map (·.map minimumNode)
  | busAccess s => .ok ((BusAccess.turn c (t.withSelf s)).map busAccess)
  | nodeVariables s => (VariableAccess.turn c (t.withSelf s)).map (·.map nodeVariables)
  | teaching s => (Teaching.turn c (t.withSelf s)).map (·.map teaching)
  | consumer s => .ok ((EventConsumer.turn c (t.withSelf s)).map consumer)
  | producer _ => .ok t
  | acknowledge s => .ok ((EventAcknowledge.turn c (t.withSelf s)).map acknowledge)
  | longMessage s => .ok ((LongMessage.turn c (t.withSelf s)).map longMessage)

/-- The number of diagnostic values of a service, with codes from 1 on. -/
def diagnosticCount : Service → Nat
  | minimumNode _ => MinimumNode.diagnosticCount
  | busAccess _ => BusAccess.diagnosticCount
  | nodeVariables _ => 0
  | teaching _ => Teaching.diagnosticCount
  | consumer _ => EventConsumer.diagnosticCount
  | producer _ => EventProducer.diagnosticCount
  | acknowledge _ => EventAcknowledge.diagnosticCount
  | longMessage _ => LongMessage.diagnosticCount

/-- The diagnostic value with a code. -/
def diagnostic? (c : Cycle) (shared : Shared) (code : Nat) : Service → Option UInt16
  | minimumNode s => s.diagnostic? c shared.queue.stats code
  | busAccess s => s.diagnostic? code
  | nodeVariables _ => none
  | teaching s => s.diagnostic? shared.config code
  | consumer s => s.diagnostic? code
  | producer s => s.diagnostic? code
  | acknowledge s => s.diagnostic? code
  | longMessage s => s.diagnostic? code

end Service

end RailNode
