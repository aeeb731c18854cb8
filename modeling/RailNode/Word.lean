/-
  Two-byte words as the bus and the store hold them: the high byte first.
-/
namespace RailNode.Word

/-- The high byte of a word. -/
def high (w : UInt16) : UInt8 := (w >>> 8).toUInt8

/-- The low byte of a word. -/
def low (w : UInt16) : UInt8 := w.toUInt8

/-- The two bytes of a word, high byte first. -/
def bytes (w : UInt16) : List UInt8 := [high w, low w]

/-- The word with the given high and low byte. -/
def join (hi lo : UInt8) : UInt16 := (hi.toUInt16 <<< 8) ||| lo.toUInt16

/-- The word that a list of bytes spells, high byte first. Of a longer list the last two count. -/
def ofBytes (bs : List UInt8) : UInt16 := bs.foldl (fun w b => (w <<< 8) ||| b.toUInt16) 0

theorem join_high_low (w : UInt16) : join (high w) (low w) = w := by
  apply UInt16.eq_of_toBitVec_eq
  simp only [join, high, low, UInt16.toBitVec_or, UInt16.toBitVec_shiftLeft,
    UInt8.toBitVec_toUInt16, UInt16.toBitVec_toUInt8, UInt16.toBitVec_shiftRight]
  generalize w.toBitVec = v
  ext i hi
  simp
  by_cases h : i < 8 <;> grind

theorem high_join (hi lo : UInt8) : high (join hi lo) = hi := by
  apply UInt8.eq_of_toBitVec_eq
  simp only [join, high, UInt16.toBitVec_or, UInt16.toBitVec_shiftLeft,
    UInt8.toBitVec_toUInt16, UInt16.toBitVec_toUInt8, UInt16.toBitVec_shiftRight]
  generalize hi.toBitVec = v
  generalize lo.toBitVec = w
  ext i h
  simp
  grind

theorem low_join (hi lo : UInt8) : low (join hi lo) = lo := by
  apply UInt8.eq_of_toBitVec_eq
  simp only [join, low, UInt16.toBitVec_or, UInt16.toBitVec_shiftLeft,
    UInt8.toBitVec_toUInt16, UInt16.toBitVec_toUInt8]
  generalize hi.toBitVec = v
  generalize lo.toBitVec = w
  ext i h
  simp

theorem bytes_join (hi lo : UInt8) : bytes (join hi lo) = [hi, lo] := by
  rw [bytes, high_join, low_join]

theorem ofBytes_pair (hi lo : UInt8) : ofBytes [hi, lo] = join hi lo := by
  simp [ofBytes, join]

theorem ofBytes_bytes (w : UInt16) : ofBytes (bytes w) = w := by
  rw [bytes, ofBytes_pair, join_high_low]

@[simp]
theorem length_bytes (w : UInt16) : (bytes w).length = 2 := rfl

end RailNode.Word
