import RailNode.Service.MinimumNode.Basic

/-
  What a node tells about itself: its parameters, its name and its services.
-/
namespace RailNode.MinimumNode

/-- Introduces the node. -/
def introduce (c : Cycle) (t : Turn MinimumNode) : Turn MinimumNode :=
  t.reply .pnn
    [c.parameters.info.manufacturer, c.parameters.info.moduleId,
      c.parameters.flags t.config.mode t.config.learning]

/-! ## Parameters -/

/-- The parameter with an index, 0 if there is none. -/
def parameter (c : Cycle) (config : Configuration) (index : Nat) : UInt8 :=
  (c.parameters.value? config.mode config.learning index).getD 0

/-- The message with the first seven parameters. -/
def parametersMessage (c : Cycle) (config : Configuration) : Message :=
  .ofOpcode .params ((List.range' 1 7).map (parameter c config))

/-- The message with the name of the module. -/
def nameMessage (c : Cycle) : Message := .ofOpcode .name c.parameters.info.name.toList

/-- Reports a parameter. -/
def sendParameter (c : Cycle) (index : Nat) (t : Turn MinimumNode) : Turn MinimumNode :=
  t.reply .paran [UInt8.ofNat index, parameter c t.config index]

/-- Answers a request for one parameter, or for all with index 0. -/
def answerParameter (c : Cycle) (m : Message) (t : Turn MinimumNode) : Turn MinimumNode :=
  match m.byte? 3 with
  | none => t.refuse .rqnpn .minimumNode .invalidCommand
  | some index =>
    if index = 0 then
      { t with self.listing := some (.start c.now .parameters 1 (Parameters.count + 1)) }
        |>.reply .paran [0, UInt8.ofNat Parameters.count]
    else if index.toNat ≤ Parameters.count then sendParameter c index.toNat t
    else t.refuse .rqnpn .minimumNode .invalidParameterIndex

/-! ## Services -/

/-- Answers a request for one service, or for all with index 0. -/
def answerServices (c : Cycle) (m : Message) (t : Turn MinimumNode) : Turn MinimumNode :=
  match m.byte? 3 with
  | none => t
  | some index =>
    if index = 0 then
      { t with self.listing := some (.start c.now .services 1 (c.services.length + 1)) }
        |>.reply .sd [0, 0, UInt8.ofNat c.services.length]
    else
      match c.services[index.toNat - 1]? with
      | some info => t.reply .esd [index, info.id.byte, 0, 0, 0]
      | none => t.respond .rqsd .minimumNode .invalidService

/-- Answers a request for the diagnostics of a service that the node does not have. -/
def answerDiagnostics (c : Cycle) (m : Message) (t : Turn MinimumNode) : Turn MinimumNode :=
  match m.byte? 3 with
  | none => t
  | some index =>
    if c.services.length < index.toNat then t.respond .rdgn .minimumNode .invalidService else t

/-! ## Long answers -/

/-- Gives the reply of a long answer with this number. -/
def report (c : Cycle) (kind : Listing) (number : Nat) (t : Turn MinimumNode) :
    Except Halt (Turn MinimumNode) :=
  match kind with
  | .parameters => .ok (sendParameter c number t)
  | .services =>
    (trust c.services[number - 1]?).map fun info =>
      t.reply .sd [UInt8.ofNat number, info.id.byte, info.version]

/-- Gives the reply of a long answer that is due. -/
def pollListing (c : Cycle) (t : Turn MinimumNode) : Except Halt (Turn MinimumNode) :=
  match t.self.listing with
  | none => .ok t
  | some s =>
    let (number, rest) := s.poll c.now c.timing.replyGap
    let t := { t with self.listing := rest }
    match number with
    | none => .ok t
    | some i => report c s.kind i t

end RailNode.MinimumNode
