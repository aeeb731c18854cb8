import RailNode.Word
import RailNode.Opcode
import RailNode.Event
import RailNode.Event.Code

/-
  Messages: up to eight bytes, an opcode and what follows it. Most opcodes that name a node carry
  its number in the bytes 1 and 2.
-/
namespace RailNode

/-- What a frame carries. -/
structure Message where
  bytes : List UInt8
  length_le : bytes.length ≤ 8
deriving DecidableEq, Repr

namespace Message

/-- The message without bytes. -/
def empty : Message := ⟨[], by simp⟩

/-- The message with these bytes, if they are not too many. -/
def ofBytes? (bs : List UInt8) : Option Message :=
  if h : bs.length ≤ 8 then some ⟨bs, h⟩ else none

/-- A message that says no more than whom it is for is short enough. -/
theorem length_noArgs_le : ([] : List UInt8).length ≤ 5 := Nat.zero_le 5

/-- An opcode and up to seven bytes. -/
def ofOpcode (o : Opcode) (args : List UInt8) (h : args.length ≤ 7 := by simp) : Message :=
  ⟨o.byte :: args, Nat.succ_le_succ h⟩

/-- An opcode byte, a node number and up to five more bytes. -/
def addressed (opcode : UInt8) (node : UInt16) (args : List UInt8)
    (h : args.length ≤ 5 := by first | exact Message.length_noArgs_le | simp) : Message :=
  ⟨opcode :: (Word.bytes node ++ args), by
    simp only [List.length_cons, List.length_append, Word.length_bytes]; omega⟩

def length (m : Message) : Nat := m.bytes.length

def isEmpty (m : Message) : Bool := m.bytes.isEmpty

/-- The byte at a position, if the message is long enough. -/
def byte? (m : Message) (i : Nat) : Option UInt8 := m.bytes[i]?

/-- The word that starts at a position. -/
def word? (m : Message) (i : Nat) : Option UInt16 := do
  let hi ← m.byte? i
  let lo ← m.byte? (i + 1)
  return Word.join hi lo

/-- The first byte. -/
def opcodeByte? (m : Message) : Option UInt8 := m.bytes.head?

/-- The opcode, if the node knows it. -/
def opcode? (m : Message) : Option Opcode := m.opcodeByte?.bind Opcode.ofByte?

/-- The accessory event that the first byte announces. -/
def eventCode? (m : Message) : Option EventCode := m.opcodeByte?.bind EventCode.ofByte?

/-- Whether every byte is there that the opcode asks for. -/
def isComplete (m : Message) : Bool :=
  m.opcodeByte?.any fun b => Opcode.messageLength b ≤ m.length

/-- The node number in the bytes 1 and 2. -/
def nodeNumber? (m : Message) : Option UInt16 := m.word? 1

/-- The event in the bytes 1 to 4. -/
def event? (m : Message) : Option EventId := do
  let node ← m.word? 1
  let number ← m.word? 3
  return ⟨node, number⟩

@[simp]
theorem nodeNumber?_addressed (opcode : UInt8) (node : UInt16) (args : List UInt8)
    (h : args.length ≤ 5) : (addressed opcode node args h).nodeNumber? = some node := by
  simp [nodeNumber?, word?, byte?, addressed, Word.bytes, Word.join_high_low]

@[simp]
theorem opcode?_addressed (o : Opcode) (node : UInt16) (args : List UInt8)
    (h : args.length ≤ 5) : (addressed o.byte node args h).opcode? = some o := by
  simp [opcode?, opcodeByte?, addressed, Opcode.ofByte?_byte]

end Message

end RailNode
