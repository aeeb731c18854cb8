import RailNode.Address
import RailNode.Message

/-
  Frames on the bus. The eleven bits of a standard identifier are the priority above the address
  of the sender.
-/
namespace RailNode

/-- The identifier of a standard frame. -/
structure Header where
  priority : Priority
  sender : BusAddress
deriving DecidableEq, Repr

namespace Header

/-- The header of ordinary node traffic. -/
def ofSender (a : BusAddress) : Header := ⟨Priority.normal, a⟩

/-- Reads an identifier; bits above the eleventh do not count. -/
def ofId (id : UInt16) : Header := ⟨.ofNat (id.toNat / 128), .ofNat id.toNat⟩

def id (h : Header) : UInt16 := UInt16.ofNat (128 * h.priority.val + h.sender.val)

theorem ofId_id (h : Header) : ofId h.id = h := by
  obtain ⟨⟨p, hp⟩, ⟨a, ha⟩⟩ := h
  simp only [ofId, id, Priority.ofNat, BusAddress.ofNat, mk.injEq, Fin.ext_iff, Fin.val_ofNat,
    UInt16.toNat_ofNat']
  omega

end Header

/-- The identifier of a frame. -/
inductive FrameId where
  | standard (header : Header)
  /-- An identifier of 29 bits; nodes ignore such frames. -/
  | extended (id : UInt32)
deriving DecidableEq, Repr

/-- A frame on the bus. -/
structure Frame where
  id : FrameId
  /-- A remote frame asks for an answer. -/
  remote : Bool
  data : Message
deriving DecidableEq, Repr

namespace Frame

/-- An ordinary frame with a message. -/
def message (sender : BusAddress) (m : Message) : Frame :=
  ⟨.standard (.ofSender sender), false, m⟩

/-- Asks every node for its address. -/
def addressRequest (sender : BusAddress) : Frame := ⟨.standard (.ofSender sender), true, .empty⟩

/-- Answers a request for addresses. -/
def addressAnswer (sender : BusAddress) : Frame := message sender .empty

/-- The header of a standard frame. -/
def header? (f : Frame) : Option Header :=
  match f.id with
  | .standard h => some h
  | .extended _ => none

end Frame

end RailNode
