/-
  The sixteen accessory events. Their opcodes are laid out by bits: the length in the three
  highest bits, then a bit that every one has, the bit of short events, and the polarity lowest.
-/
namespace RailNode

/-- What the opcode of an accessory event says: whether the event is short, its polarity, and how
    many data bytes follow the identity. -/
structure EventCode where
  short : Bool
  on : Bool
  data : Fin 4
deriving DecidableEq, Repr

namespace EventCode

def byte (c : EventCode) : UInt8 :=
  0x90 + 0x20 * UInt8.ofNat c.data.val + (if c.short then 0x08 else 0) + (if c.on then 0 else 1)

/-- The code for an event with `data` data bytes. There is none for more than three. -/
def ofLength? (short on : Bool) (data : Nat) : Option EventCode :=
  if h : data < 4 then some ⟨short, on, ⟨data, h⟩⟩ else none

/-- Reads an opcode byte; `none` if it is not that of an accessory event. -/
def ofByte? (b : UInt8) : Option EventCode :=
  if b &&& 0x96 = 0x90 then
    some ⟨b &&& 0x08 ≠ 0, b &&& 0x01 = 0, Fin.ofNat 4 ((b >>> 5).toNat)⟩
  else none

theorem ofByte?_byte (c : EventCode) : ofByte? c.byte = some c := by
  obtain ⟨short, on, data⟩ := c
  revert data
  cases short <;> cases on <;> decide

set_option maxRecDepth 4096 in
/-- No other byte is the opcode of an accessory event. -/
theorem all_byte_of_ofByte? (b : UInt8) : (ofByte? b).all fun c => c.byte == b := by
  cases b with
  | ofBitVec v =>
    cases v with
    | ofFin n =>
      revert n
      decide

theorem ofByte?_eq_some_iff {b : UInt8} {c : EventCode} : ofByte? b = some c ↔ b = c.byte := by
  constructor
  · intro h
    have hall := all_byte_of_ofByte? b
    rw [h] at hall
    exact (beq_iff_eq.1 hall).symm
  · intro h
    rw [h, ofByte?_byte]

end EventCode

end RailNode
