import RailNode.Frame

/-
  The link between a node and its driver: one bounded channel of frames each way.
-/
namespace RailNode

/-- A first-in, first-out channel that refuses what does not fit. -/
@[ext]
structure Channel (α : Type) where
  capacity : Nat
  /-- What waits in the channel, oldest first. -/
  items : List α := []
  length_le : items.length ≤ capacity := by simp
deriving Repr

instance {α : Type} [DecidableEq α] : DecidableEq (Channel α) := fun _ _ =>
  decidable_of_iff _ Channel.ext_iff.symm

namespace Channel

variable {α : Type}

/-- Whether there is room for another item. -/
def hasRoom (c : Channel α) : Bool := c.items.length < c.capacity

/-- Sends an item, if there is room for it. -/
def send? (c : Channel α) (a : α) : Option (Channel α) :=
  if h : c.items.length < c.capacity then
    some
      { c with
        items := c.items ++ [a]
        length_le := by rw [List.length_append]; exact h }
  else none

theorem length_rest_le {capacity : Nat} {a : α} {rest : List α}
    (h : (a :: rest).length ≤ capacity) : rest.length ≤ capacity :=
  Nat.le_of_succ_le h

/-- Receives the oldest item. -/
def receive? (c : Channel α) : Option (α × Channel α) :=
  match c with
  | ⟨_, [], _⟩ => none
  | ⟨capacity, a :: rest, h⟩ => some (a, ⟨capacity, rest, length_rest_le h⟩)

/-- Drops what waits in the channel. -/
def clear (c : Channel α) : Channel α := { capacity := c.capacity }

end Channel

/-- Received frames wait for the node, outgoing ones for the driver. -/
structure Link where
  received : Channel Frame
  outgoing : Channel Frame
deriving DecidableEq, Repr

namespace Link

/-- A link whose channels hold so many frames. -/
def ofCapacities (received outgoing : Nat) : Link where
  received := { capacity := received }
  outgoing := { capacity := outgoing }

/-- The driver hands a received frame in, if there is room. -/
def deliver? (l : Link) (f : Frame) : Option Link :=
  (l.received.send? f).map fun c => { l with received := c }

/-- The driver takes the next frame to transmit. -/
def collect? (l : Link) : Option (Frame × Link) :=
  l.outgoing.receive?.map fun (f, c) => (f, { l with outgoing := c })

/-- Whether a received frame waits for the node. -/
def available (l : Link) : Bool := !l.received.items.isEmpty

/-- The node takes the oldest received frame. -/
def receive? (l : Link) : Option (Frame × Link) :=
  l.received.receive?.map fun (f, c) => (f, { l with received := c })

/-- The node hands a frame over for transmission, if there is room. -/
def send? (l : Link) (f : Frame) : Option Link :=
  (l.outgoing.send? f).map fun c => { l with outgoing := c }

/-- Drops every waiting frame. -/
def reset (l : Link) : Link := ⟨l.received.clear, l.outgoing.clear⟩

end Link

end RailNode
