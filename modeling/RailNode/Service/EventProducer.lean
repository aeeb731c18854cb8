import RailNode.Service.Turn

/-
  The service that sends learned events for the application. An event learned with node number 0
  is sent as a short event under the number of this node.
-/
namespace RailNode

/-- Why an event was not sent. -/
inductive ProduceError where
  /-- Only a node in normal mode sends events. -/
  | notNormal
  /-- There is no event in the slot. -/
  | emptySlot
  /-- There are more than three data bytes. -/
  | tooMuchData
deriving DecidableEq, Repr

structure EventProducer where
  produced : UInt16 := 0
deriving DecidableEq, Repr

namespace EventProducer

/-- The message that sends the event in a slot. -/
def message (c : Configuration) (slot : Nat) (on : Bool) (data : List UInt8) :
    Except ProduceError Message :=
  if c.mode ≠ .normal then .error .notNormal
  else if h : data.length < 4 then
    if c.isFree slot then .error .emptySlot
    else
      match c.event slot with
      | .error _ => .error .emptySlot
      | .ok e =>
        let code : EventCode := ⟨e.node == 0, on, ⟨data.length, h⟩⟩
        let node := if e.node = 0 then c.nodeNumber else e.node
        .ok (.addressed code.byte node (Word.bytes e.number ++ data) (by
          simp only [List.length_append, Word.length_bytes]; omega))
  else .error .tooMuchData

/-- Counts an event that has been sent. -/
def count (s : EventProducer) : EventProducer := { s with produced := s.produced + 1 }

def flags : UInt8 := ParameterFlag.producer.mask

def diagnosticCount : Nat := 1

def diagnostic? (s : EventProducer) (code : Nat) : Option UInt16 :=
  match code with
  | 1 => some s.produced
  | _ => none

end EventProducer

end RailNode
