import RailNode.Word

/-
  The identity of an event, and the byte under which the event table files it.
-/
namespace RailNode

/-- An event on the bus. Short events have the node number 0. -/
structure EventId where
  node : UInt16
  number : UInt16
deriving DecidableEq, Repr

namespace EventId

/-- Both bytes of a word in one. -/
def fold (w : UInt16) : UInt8 := (w ^^^ (w >>> 8)).toUInt8

/-- The hash of an event. It is never 0, which marks a free slot: the hash 0 becomes 255, outside
    the range below 128 of all others. -/
def hash (e : EventId) : UInt8 :=
  let h := (7 * (fold e.node).toNat + (fold e.number).toNat) % 128
  if h = 0 then 255 else UInt8.ofNat h

theorem hash_ne_zero (e : EventId) : e.hash ≠ 0 := by
  simp only [hash]
  generalize 7 * (fold e.node).toNat + (fold e.number).toNat = n
  have hlt : n % 128 < 128 := Nat.mod_lt _ (by decide)
  split
  · decide
  · rename_i h
    intro h0
    have := congrArg UInt8.toNat h0
    simp only [UInt8.toNat_ofNat', UInt8.toNat_zero] at this
    omega

/-- The four bytes of an identity, the node number first. -/
def bytes (e : EventId) : List UInt8 := Word.bytes e.node ++ Word.bytes e.number

/-- The identity that four bytes spell. -/
def ofBytes (bs : List UInt8) : EventId := ⟨Word.ofBytes (bs.take 2), Word.ofBytes (bs.drop 2)⟩

@[simp]
theorem length_bytes (e : EventId) : e.bytes.length = 4 := rfl

theorem ofBytes_bytes (e : EventId) : ofBytes e.bytes = e := by
  obtain ⟨node, number⟩ := e
  simp [ofBytes, bytes, Word.bytes, Word.ofBytes_pair, Word.join_high_low]

end EventId

end RailNode
