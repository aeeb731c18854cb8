import RailNode.Recognition
import RailNode.Service.Turn

/-
  The service that answers every learned event from the bus while acknowledgement is on. A MODE
  message turns it on and off, and the setting is stored.
-/
namespace RailNode

structure EventAcknowledge where
  acknowledged : UInt16 := 0
deriving DecidableEq, Repr

namespace EventAcknowledge

/-- Obeys the mode commands for acknowledgement. -/
def obeyMode (m : Message) (t : Turn EventAcknowledge) : Turn EventAcknowledge :=
  match (m.byte? 3).bind ModeCommand.ofByte? with
  | some .acknowledgeOn => t.configure (·.setAcknowledge true)
  | some .acknowledgeOff => t.configure (·.setAcknowledge false)
  | _ => t

/-- Answers a learned event. -/
def acknowledge (m : Message) (t : Turn EventAcknowledge) : Turn EventAcknowledge :=
  if t.config.acknowledge ∧ t.config.mode = .normal then
    match t.config.recognise? m with
    | none => t
    | some e =>
      { t with self.acknowledged := t.self.acknowledged + 1 }
        |>.reply .enrsp (e.event.bytes ++ [UInt8.ofNat e.slot])
  else t

def turn (c : Cycle) (t : Turn EventAcknowledge) : Turn EventAcknowledge :=
  match c.received? with
  | none => t
  | some m =>
    if m.opcode? = some .mode ∧ t.isNamedBy m then obeyMode m t else acknowledge m t

def diagnosticCount : Nat := 1

def diagnostic? (s : EventAcknowledge) (code : Nat) : Option UInt16 :=
  match code with
  | 1 => some s.acknowledged
  | _ => none

end EventAcknowledge

end RailNode
