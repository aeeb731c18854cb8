import RailNode.Series
import RailNode.Service.Turn

/-
  The service that reads and writes the node variables.
-/
namespace RailNode

structure VariableAccess where
  /-- The variables that are still to be reported. -/
  listing : Option (Series Unit) := none
deriving DecidableEq, Repr

namespace VariableAccess

/-- Reports the value of a variable. -/
def sendValue (index : Nat) (value : UInt8) (t : Turn VariableAccess) : Turn VariableAccess :=
  t.reply .nvans [UInt8.ofNat index, value]

/-- Reports a variable that there must be. -/
def sendVariable (index : Nat) (t : Turn VariableAccess) : Except Halt (Turn VariableAccess) :=
  (trust (t.config.nodeVariable? index)).map fun value => sendValue index value t

/-- Answers a request for one variable, or for all with index 0. -/
def answerRead (c : Cycle) (m : Message) (t : Turn VariableAccess) : Turn VariableAccess :=
  match m.byte? 3 with
  | none => t.refuse .nvrd .nodeVariables .invalidCommand
  | some index =>
    if index = 0 then
      { t with self.listing := some (.start c.now () 1 (t.config.layout.nodeVariables + 1)) }
        |>.reply .nvans [0, t.config.layout.nodeVariableCount]
    else
      match t.config.nodeVariable? index.toNat with
      | some value => sendValue index.toNat value t
      | none => t.refuse .nvrd .nodeVariables .invalidNodeVariableIndex

/-- Obeys a command to write a variable, and goes on with `andThen` if it could be written. -/
def obeyWrite (command : Opcode) (m : Message)
    (andThen : Nat → Turn VariableAccess → Except Halt (Turn VariableAccess))
    (t : Turn VariableAccess) : Except Halt (Turn VariableAccess) :=
  match m.byte? 3, m.byte? 4 with
  | some index, some value =>
    match t.config.setNodeVariable? index.toNat value with
    | some config => andThen index.toNat { t with shared.config := config }
    | none => .ok (t.refuse command .nodeVariables .invalidNodeVariableIndex)
  | _, _ => .ok (t.refuse command .nodeVariables .invalidCommand)

/-- Answers the messages about node variables that name this node. -/
def handle (c : Cycle) (m : Message) (t : Turn VariableAccess) :
    Except Halt (Turn VariableAccess) :=
  if t.isNamedBy m then
    match m.opcode? with
    | some .nvrd => .ok (answerRead c m t)
    | some .nvset => obeyWrite .nvset m (fun _ t => .ok t.acknowledgeWrite) t
    | some .nvsetrd => obeyWrite .nvsetrd m sendVariable t
    | _ => .ok t
  else .ok t

/-- Gives the report that is due. -/
def pollListing (c : Cycle) (t : Turn VariableAccess) : Except Halt (Turn VariableAccess) :=
  match t.self.listing with
  | none => .ok t
  | some s =>
    let (number, rest) := s.poll c.now c.timing.replyGap
    let t := { t with self.listing := rest }
    match number with
    | none => .ok t
    | some index => sendVariable index t

def turn (c : Cycle) (t : Turn VariableAccess) : Except Halt (Turn VariableAccess) :=
  match c.received? with
  | some m => handle c m t >>= pollListing c
  | none => pollListing c t

end VariableAccess

end RailNode
