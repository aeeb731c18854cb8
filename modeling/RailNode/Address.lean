/-
  Who speaks on the bus: the priority of a frame and the address of its sender.
  A node may claim the addresses 1 to 99; address 0 means that it has none yet.
-/
namespace RailNode

/-- The priority of a frame, four bits. The lower value wins the bus. -/
abbrev Priority := Fin 16

namespace Priority

/-- Node traffic has this priority. -/
def normal : Priority := 11

def highest : Priority := 0

def lowest : Priority := 15

/-- The priority with this value, if it has no more than four bits. -/
def ofByte? (b : UInt8) : Option Priority :=
  if h : b.toNat < 16 then some ⟨b.toNat, h⟩ else none

/-- The priority in the low four bits of a number. -/
def ofNat (n : Nat) : Priority := Fin.ofNat 16 n

/-- The priority in the low four bits. -/
def truncate (b : UInt8) : Priority := ofNat b.toNat

def byte (p : Priority) : UInt8 := UInt8.ofNat p.val

end Priority

/-- The address of a node on the bus, seven bits. It is not the node number. -/
abbrev BusAddress := Fin 128

namespace BusAddress

/-- The address of a node that has claimed none. -/
def unassigned : BusAddress := 0

/-- The lowest address that a node may claim. -/
def firstAssignable : BusAddress := 1

/-- The highest address that a node may claim. -/
def lastAssignable : BusAddress := 99

def highest : BusAddress := 127

/-- The address with this value, if it has no more than seven bits. -/
def ofByte? (b : UInt8) : Option BusAddress :=
  if h : b.toNat < 128 then some ⟨b.toNat, h⟩ else none

/-- The address in the low seven bits of a number. -/
def ofNat (n : Nat) : BusAddress := Fin.ofNat 128 n

/-- The address in the low seven bits. -/
def truncate (b : UInt8) : BusAddress := ofNat b.toNat

def byte (a : BusAddress) : UInt8 := UInt8.ofNat a.val

/-- Whether a node owns this address. -/
def isAssigned (a : BusAddress) : Bool := a != unassigned

/-- Whether a node may claim this address. -/
def isAssignable (a : BusAddress) : Bool := firstAssignable ≤ a && a ≤ lastAssignable

theorem truncate_byte (a : BusAddress) : truncate (byte a) = a := by
  revert a; decide

end BusAddress

end RailNode
