import RailNode.Service.MinimumNode.Heartbeat
import RailNode.Service.MinimumNode.Inquiry
import RailNode.Service.MinimumNode.Negotiation

/-
  The service that every node has: its mode and its number, what it tells about itself, restarts
  and the heartbeat.
-/
namespace RailNode.MinimumNode

/-! ## Messages -/

/-- Gives the node number up and resets the node. The release is sent before the store is wiped. -/
def resetNode (t : Turn MinimumNode) : Turn MinimumNode :=
  t.offerMessage (.addressed Opcode.nnrel.byte t.config.nodeNumber [])
    |>.configure (·.factoryReset)

/-- The messages that name this node. -/
def handleNamed (c : Cycle) (m : Message) (o : Opcode) (t : Turn MinimumNode) :
    Except Halt (Turn MinimumNode) :=
  match o with
  | .rqnpn => .ok (answerParameter c m t)
  | .nnrst => .error t.restart
  | .nnrsm => .error (resetNode t).restart
  | .mode =>
    match m.byte? 3 with
    | none => .ok t
    | some command => .ok (obeyMode c.now command t)
  | .rqsd => .ok (answerServices c m t)
  | .rdgn => .ok (answerDiagnostics c m t)
  | _ => .ok t

/-- Answers a message. The first four kinds concern every node, or the node in setup. -/
def handle (c : Cycle) (m : Message) (t : Turn MinimumNode) : Except Halt (Turn MinimumNode) :=
  match m.opcode? with
  | none => .ok t
  | some .qnn => .ok (if t.config.mode = .uninitialised then t else introduce c t)
  | some .rqnp =>
    .ok (if t.config.mode = .setup then t.send (parametersMessage c t.config) else t)
  | some .rqmn => .ok (if t.config.mode = .setup then t.send (nameMessage c) else t)
  | some .snn => .ok (obeyAssignment m t)
  | some o => if t.isNamedBy m then handleNamed c m o t else .ok t

/-! ## The turn -/

/-- What the service does about the action of the cycle. -/
def react (c : Cycle) (t : Turn MinimumNode) : Except Halt (Turn MinimumNode) :=
  match c.action with
  | some .advanceMode => .ok (advanceMode c.now t)
  | some .renegotiate => .ok (renegotiate c.now t)
  | some (.received m) => handle c m t
  | _ => .ok t

/-- What the service does when its time has come. -/
def poll (c : Cycle) (t : Turn MinimumNode) : Except Halt (Turn MinimumNode) :=
  pollNegotiation c.now c.timing.negotiationLimit t
    |> pollHeartbeat c.now c.timing.heartbeatInterval
    |> pollListing c

def turn (c : Cycle) (t : Turn MinimumNode) : Except Halt (Turn MinimumNode) := do
  let t ← react c { t with self.started := some (t.self.started.getD c.now) }
  poll c t

/-! ## Diagnostics -/

def diagnosticCount : Nat := 6

/-- Health, the uptime in seconds (high word, low word), changes of the node number, and how the
    queue has fared. -/
def diagnostic? (c : Cycle) (queue : BacklogStats) (s : MinimumNode) (code : Nat) :
    Option UInt16 :=
  let uptime := Time.wholeSeconds (s.started.elim 0 (Time.elapsed c.now))
  match code with
  | 1 => some 0
  | 2 => some (UInt16.ofNat (uptime / 65536))
  | 3 => some (UInt16.ofNat uptime)
  | 4 => some s.numberChanges
  | 5 => some (UInt16.ofNat (min queue.overflows.toNat 65535))
  | 6 => some (UInt16.ofNat queue.highWater)
  | _ => none

end RailNode.MinimumNode
