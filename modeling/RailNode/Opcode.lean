/-
  The opcodes that a node reads or sends, the sixteen accessory events apart.
  The three highest bits of an opcode count the bytes that follow it.
-/
namespace RailNode

/-- An opcode, under its name in the protocol. -/
inductive Opcode where
  /-- Which nodes are there? -/
  | qnn
  /-- Request for the seven first parameters of the node in setup. -/
  | rqnp
  /-- Request for the name of the module in setup. -/
  | rqmn
  /-- Assigns a number to the node in setup. -/
  | snn
  /-- Resets a node to its factory state. -/
  | nnrsm
  /-- A node asks for a number. -/
  | rqnn
  /-- A node gives its number up. -/
  | nnrel
  /-- A node confirms its number. -/
  | nnack
  /-- Puts a node in learn mode, and takes every other node out of it. -/
  | nnlrn
  /-- Takes a node out of learn mode. -/
  | nnuln
  /-- Clears the event table. -/
  | nnclr
  /-- Asks how many event slots are free. -/
  | nnevn
  /-- Asks for every stored event. -/
  | nerd
  /-- Asks how many events are stored. -/
  | rqevn
  /-- A write was done. -/
  | wrack
  /-- Asks a node to choose its bus address anew. -/
  | enum
  /-- Restarts a node. -/
  | nnrst
  /-- A command was refused. -/
  | cmderr
  /-- The number of free event slots. -/
  | evnlf
  /-- Asks for a node variable. -/
  | nvrd
  /-- Asks for the event in a slot. -/
  | nenrd
  /-- Asks for a parameter. -/
  | rqnpn
  /-- The number of stored events. -/
  | numev
  /-- Sets the bus address. -/
  | canid
  /-- A mode command. -/
  | mode
  /-- Asks for the services of a node. -/
  | rqsd
  /-- Asks for diagnostic values. -/
  | rdgn
  /-- Sets a node variable and asks for it. -/
  | nvsetrd
  /-- Unlearns an event. -/
  | evuln
  /-- Sets a node variable. -/
  | nvset
  /-- The value of a node variable. -/
  | nvans
  /-- The value of a parameter. -/
  | paran
  /-- Asks for an event variable by slot. -/
  | reval
  /-- The heartbeat of a node. -/
  | heartb
  /-- The description of a service. -/
  | sd
  /-- A general response. -/
  | grsp
  /-- Asks for an event variable by event. -/
  | reqev
  /-- The value of an event variable by slot. -/
  | neval
  /-- A node presents itself. -/
  | pnn
  /-- A diagnostic value. -/
  | dgn
  /-- Teaches an event variable. -/
  | evlrn
  /-- The value of an event variable by event. -/
  | evans
  /-- The name of the module. -/
  | name
  /-- The extended description of a service. -/
  | esd
  /-- A part of a long message. -/
  | dtxc
  /-- The seven first parameters. -/
  | params
  /-- The event in a slot. -/
  | enrsp
deriving DecidableEq, Repr

namespace Opcode

def byte : Opcode → UInt8
  | qnn => 0x0d
  | rqnp => 0x10
  | rqmn => 0x11
  | snn => 0x42
  | nnrsm => 0x4f
  | rqnn => 0x50
  | nnrel => 0x51
  | nnack => 0x52
  | nnlrn => 0x53
  | nnuln => 0x54
  | nnclr => 0x55
  | nnevn => 0x56
  | nerd => 0x57
  | rqevn => 0x58
  | wrack => 0x59
  | enum => 0x5d
  | nnrst => 0x5e
  | cmderr => 0x6f
  | evnlf => 0x70
  | nvrd => 0x71
  | nenrd => 0x72
  | rqnpn => 0x73
  | numev => 0x74
  | canid => 0x75
  | mode => 0x76
  | rqsd => 0x78
  | rdgn => 0x87
  | nvsetrd => 0x8e
  | evuln => 0x95
  | nvset => 0x96
  | nvans => 0x97
  | paran => 0x9b
  | reval => 0x9c
  | heartb => 0xab
  | sd => 0xac
  | grsp => 0xaf
  | reqev => 0xb2
  | neval => 0xb5
  | pnn => 0xb6
  | dgn => 0xc7
  | evlrn => 0xd2
  | evans => 0xd3
  | name => 0xe2
  | esd => 0xe7
  | dtxc => 0xe9
  | params => 0xef
  | enrsp => 0xf2

def all : List Opcode :=
  [qnn, rqnp, rqmn, snn, nnrsm, rqnn, nnrel, nnack, nnlrn, nnuln, nnclr, nnevn, nerd, rqevn, wrack,
   enum, nnrst, cmderr, evnlf, nvrd, nenrd, rqnpn, numev, canid, mode, rqsd, rdgn, nvsetrd, evuln,
   nvset, nvans, paran, reval, heartb, sd, grsp, reqev, neval, pnn, dgn, evlrn, evans, name, esd,
   dtxc, params, enrsp]

/-- The opcode with this byte, if the node knows it. -/
def ofByte? (b : UInt8) : Option Opcode := all.find? (·.byte == b)

theorem ofByte?_byte (o : Opcode) : ofByte? o.byte = some o := by
  cases o <;> decide

theorem byte_of_ofByte? {b : UInt8} {o : Opcode} (h : ofByte? b = some o) : o.byte = b := by
  simpa using List.find?_some h

theorem ofByte?_eq_some_iff {b : UInt8} {o : Opcode} : ofByte? b = some o ↔ b = o.byte :=
  ⟨fun h => (byte_of_ofByte? h).symm, fun h => h ▸ ofByte?_byte o⟩

/-- How many bytes follow an opcode byte. -/
def dataLength (b : UInt8) : Nat := (b >>> 5).toNat

/-- How many bytes a message with this opcode byte has. -/
def messageLength (b : UInt8) : Nat := dataLength b + 1

theorem dataLength_le (b : UInt8) : dataLength b ≤ 7 := by
  have := b.toNat_lt
  simp only [dataLength, UInt8.toNat_shiftRight, Nat.shiftRight_eq_div_pow]
  simp
  omega

end Opcode

end RailNode
