/-
  The operating mode of a node, and the commands that a MODE message carries.
-/
namespace RailNode

/-- The operating mode of a node. -/
inductive Mode where
  /-- The node has no number. -/
  | uninitialised
  /-- The node is negotiating its number. -/
  | setup
  /-- The node owns a number and takes part in the traffic. -/
  | normal
deriving DecidableEq, Repr

namespace Mode

/-- The byte that stands for a mode in the store. -/
def byte : Mode → UInt8
  | uninitialised => 0xff
  | setup => 0x00
  | normal => 0x01

def ofByte? (b : UInt8) : Option Mode :=
  if b = 0xff then some uninitialised
  else if b = 0x00 then some setup
  else if b = 0x01 then some normal
  else none

theorem ofByte?_byte (m : Mode) : ofByte? m.byte = some m := by
  cases m <;> decide

end Mode

/-- What a MODE message may ask for. -/
inductive ModeCommand where
  | setup
  | normal
  | learnOn
  | learnOff
  | acknowledgeOn
  | acknowledgeOff
  | heartbeatOn
  | heartbeatOff
deriving DecidableEq, Repr

namespace ModeCommand

def byte : ModeCommand → UInt8
  | setup => 0x00
  | normal => 0x01
  | learnOn => 0x08
  | learnOff => 0x09
  | acknowledgeOn => 0x0a
  | acknowledgeOff => 0x0b
  | heartbeatOn => 0x0c
  | heartbeatOff => 0x0d

def all : List ModeCommand :=
  [setup, normal, learnOn, learnOff, acknowledgeOn, acknowledgeOff, heartbeatOn, heartbeatOff]

def ofByte? (b : UInt8) : Option ModeCommand := all.find? (·.byte == b)

theorem ofByte?_byte (c : ModeCommand) : ofByte? c.byte = some c := by
  cases c <;> decide

end ModeCommand

end RailNode
