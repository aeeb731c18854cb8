import RailNode.Service.MinimumNode.Basic

/-
  The mode of a node and the negotiation of its number.

  A node without a number enters setup on a request of the user and gets its number from an SNN
  message. A node with a number may negotiate another. A negotiation that the user cancels or
  that takes too long leaves the node as it was.
-/
namespace RailNode.MinimumNode

/-- The configuration in another mode. Only a node in normal mode may learn. -/
def inMode (mode : Mode) (c : Configuration) : Configuration :=
  if mode = Mode.normal then c.setMode mode else (c.setMode mode).setLearning false

/-- Switches to a mode. -/
def switchMode (mode : Mode) (t : Turn MinimumNode) : Turn MinimumNode :=
  { t with self.heartbeatDue := none } |>.configure (inMode mode) |>.put (.showMode mode)

/-- Enters setup. -/
def beginNegotiation (now : Time) (t : Turn MinimumNode) : Turn MinimumNode :=
  switchMode .setup
    { t with
      self.negotiation := some
        { started := now
          previousMode := t.config.mode
          previousNumber := t.config.nodeNumber } }

/-- Gives a negotiation up and goes back to what was before it. -/
def cancelNegotiation (t : Turn MinimumNode) : Turn MinimumNode :=
  match t.self.negotiation with
  | none => t
  | some n =>
    let t := { t with self.negotiation := none }
    if n.previousMode = .normal then
      (switchMode .normal (t.configure (·.setNodeNumber n.previousNumber))).reply .nnack []
    else switchMode n.previousMode t

/-- Ends a negotiation with a number. -/
def acceptNumber (number : UInt16) (t : Turn MinimumNode) : Turn MinimumNode :=
  let changes :=
    if number = t.config.nodeNumber then t.self.numberChanges else t.self.numberChanges + 1
  { t with self.negotiation := none, self.numberChanges := changes }
    |>.configure (·.setNodeNumber number)
    |> switchMode .normal
    |>.reply .nnack []
    |>.put .showActivity

/-- Takes the number that an SNN message assigns, in setup only. The number 0 does not count. -/
def obeyAssignment (m : Message) (t : Turn MinimumNode) : Turn MinimumNode :=
  if t.config.mode = .setup then
    match m.nodeNumber? with
    | none => t
    | some number => if number = 0 then t else acceptNumber number t
  else t

/-- Starts a negotiation of a node in normal mode, which keeps its number until it has another. -/
def renegotiate (now : Time) (t : Turn MinimumNode) : Turn MinimumNode :=
  if t.config.mode = .normal then (beginNegotiation now t).reply .rqnn [] else t

/-- Moves on to the next mode, as the user asks. A node in normal mode gives its number up. -/
def advanceMode (now : Time) (t : Turn MinimumNode) : Turn MinimumNode :=
  match t.config.mode with
  | .uninitialised => (beginNegotiation now t).put (.searchAddress false) |>.reply .rqnn []
  | .normal => (beginNegotiation now (t.reply .nnrel [])).reply .rqnn []
  | .setup => cancelNegotiation t

/-- Goes back to normal mode with the number that the node has, if it is in setup with one. -/
def resume (t : Turn MinimumNode) : Turn MinimumNode :=
  if t.config.mode = .setup ∧ t.config.nodeNumber ≠ 0 then
    switchMode .normal { t with self.negotiation := none }
  else t

/-- Carries out a MODE message; the commands of other services are left to them. -/
def obeyMode (now : Time) (command : UInt8) (t : Turn MinimumNode) : Turn MinimumNode :=
  match ModeCommand.ofByte? command with
  | some .setup => renegotiate now t
  | some .normal => resume t
  | some .heartbeatOn => t.configure (·.setHeartbeat true)
  | some .heartbeatOff => t.configure (·.setHeartbeat false)
  | some _ => t
  | none => t.respond .mode .minimumNode .invalidMode

/-- Gives a negotiation up that has taken too long. -/
def pollNegotiation (now limit : Time) (t : Turn MinimumNode) : Turn MinimumNode :=
  match t.self.negotiation with
  | none => t
  | some n => if limit ≤ Time.elapsed now n.started then cancelNegotiation t else t

end RailNode.MinimumNode
