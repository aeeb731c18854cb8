import RailNode.Backlog
import RailNode.Configuration.Reset
import RailNode.Link
import RailNode.Service.Cycle

/-
  The turn of a service in a cycle. A service has a state of its own and shares the configuration,
  the link and the queue with the others. It answers by queuing actions; only bus access and the
  last word of a node before its reset go to the link at once. The turn keeps a trace of both.
-/
namespace RailNode

/-- The number of actions that the queue of a node holds. -/
def queueCapacity : Nat := 32

/-- What the services of a node share. -/
structure Shared where
  config : Configuration
  link : Link
  queue : Backlog Action queueCapacity

/-- Something that was given out, with the configuration of that moment. -/
structure Emission (α : Type) where
  item : α
  config : Configuration

/-- What a service has given out, oldest first. -/
structure Trace where
  /-- The actions that were put in the queue. -/
  queued : List (Emission Action) := []
  /-- The frames that were offered to the link, whether it had room for them or not. -/
  offered : List (Emission Frame) := []

/-- Why a turn does not come to its end. -/
inductive Halt where
  /-- The device restarts and leaves this behind. -/
  | restart (left : Shared) (trace : Trace)
  /-- A lookup that the node had reason to trust has failed. -/
  | fault

/-- The result of a lookup that the node has reason to trust. -/
def trust {α : Type} : Option α → Except Halt α
  | some a => .ok a
  | none => .error .fault

/-- A service with the state of its own, what it shares, and what it has given out so far. -/
structure Turn (σ : Type) where
  self : σ
  shared : Shared
  trace : Trace := {}

namespace Turn

variable {σ τ : Type}

/-- The same turn of another service. -/
def withSelf (self : τ) (t : Turn σ) : Turn τ := { self, shared := t.shared, trace := t.trace }

/-- The same turn under another view of the service. -/
def map (f : σ → τ) (t : Turn σ) : Turn τ := t.withSelf (f t.self)

def config (t : Turn σ) : Configuration := t.shared.config

/-- Changes the configuration. -/
def configure (f : Configuration → Configuration) (t : Turn σ) : Turn σ :=
  { t with shared.config := f t.shared.config }

/-- Ends the turn with a restart of the device. -/
def restart (t : Turn σ) : Halt := .restart t.shared t.trace

/-- Queues an action. -/
def put (a : Action) (t : Turn σ) : Turn σ :=
  { t with
    shared.queue := t.shared.queue.put a
    trace.queued := t.trace.queued ++ [⟨a, t.config⟩] }

/-- Whether the link has room for another frame. -/
def hasRoom (t : Turn σ) : Bool := t.shared.link.outgoing.hasRoom

/-- Offers a frame to the link, past the queue. Without room it is lost. -/
def offer (f : Frame) (t : Turn σ) : Turn σ :=
  { t with
    shared.link := (t.shared.link.send? f).getD t.shared.link
    trace.offered := t.trace.offered ++ [⟨f, t.config⟩] }

/-- Offers a message to the link, under the address of the node. -/
def offerMessage (m : Message) (t : Turn σ) : Turn σ :=
  t.offer (.message t.config.address m)

/-- Whether a message names this node. -/
def isNamedBy (t : Turn σ) (m : Message) : Bool := m.nodeNumber? == some t.config.nodeNumber

/-! ## Answers -/

/-- Queues a message to be sent. -/
def send (m : Message) (t : Turn σ) : Turn σ := t.put (.transmit m)

/-- Queues a message with the number of this node. -/
def reply (o : Opcode) (args : List UInt8) (t : Turn σ)
    (h : args.length ≤ 5 := by first | exact Message.length_noArgs_le | simp) : Turn σ :=
  t.send (.addressed o.byte t.config.nodeNumber args h)

/-- Acknowledges a write. -/
def acknowledgeWrite (t : Turn σ) : Turn σ := t.reply .wrack []

/-- Reports the result of a command. -/
def respond (command : Opcode) (service : ServiceId) (result : ResponseCode) (t : Turn σ) :
    Turn σ :=
  t.reply .grsp [command.byte, service.byte, result.byte]

/-- Refuses a command, both ways that the protocol has for it. -/
def refuse (command : Opcode) (service : ServiceId) (e : CommandError) (t : Turn σ) : Turn σ :=
  t.reply .cmderr [e.byte] |>.respond command service (.ofError e)

/-- Confirms a command that has changed something, both ways that the protocol has for it. -/
def confirm (command : Opcode) (service : ServiceId) (t : Turn σ) : Turn σ :=
  t.acknowledgeWrite.respond command service .ok

end Turn

end RailNode
