import RailNode.Store

/-
  What a read of the store finds after a write. Inside the store the block transfer and the
  bytewise one agree, so every statement here is about single bytes: `read_write`,
  `read_writeBytes` and `readBytes_eq_map` are all that the later modules know of a store.
-/
namespace RailNode.Store

/-! ## Single bytes -/

theorem read_write {s : Store} {a : Nat} (v : UInt8) (h : a < s.capacity) (i : Nat) :
    (s.write a v).read i = if i = a then v else s.read i := by
  have ha : a < s.bytes.size := h
  unfold read write
  simp only [Array.getD_eq_getD_getElem?]
  by_cases hi : i = a
  · subst hi
    rw [if_pos rfl, Array.getElem?_setIfInBounds_self_of_lt ha, Option.getD_some]
  · rw [if_neg hi, Array.getElem?_setIfInBounds_ne (Ne.symm hi)]

@[simp]
theorem read_erase (s : Store) (i : Nat) : s.erase.read i = erased := by
  unfold read erase
  simp only [Array.getD_eq_getD_getElem?, Array.getElem?_replicate]
  split <;> rfl

/-! ## Several bytes -/

theorem read_writeEach {s : Store} {a : Nat} {vs : List UInt8} (h : a + vs.length ≤ s.capacity)
    (i : Nat) :
    (s.writeEach a vs).read i = if i < a then s.read i else vs.getD (i - a) (s.read i) := by
  induction vs generalizing s a with
  | nil => simp [writeEach]
  | cons v vs ih =>
    rw [List.length_cons] at h
    have hrest : a + 1 + vs.length ≤ (s.write a v).capacity := by
      rw [capacity_write]; omega
    rw [writeEach, ih hrest, read_write v (by omega)]
    rcases Nat.lt_trichotomy i a with hi | hi | hi
    · rw [if_pos (by omega), if_neg (by omega), if_pos hi]
    · subst hi
      rw [if_pos (Nat.lt_succ_self i), if_pos rfl, if_neg (Nat.lt_irrefl i), Nat.sub_self]
      rfl
    · rw [if_neg (by omega), if_neg (by omega), if_neg (by omega),
        show i - a = (i - (a + 1)) + 1 by omega, List.getD_cons_succ]

theorem read_writeBlock {s : Store} {a : Nat} {vs : List UInt8} (h : a + vs.length ≤ s.capacity)
    (i : Nat) :
    (s.writeBlock a vs).read i = if i < a then s.read i else vs.getD (i - a) (s.read i) := by
  have hsize : s.capacity = s.bytes.size := rfl
  unfold read writeBlock
  simp only [Array.getD_eq_getD_getElem?, Array.getElem?_mapIdx]
  rcases Nat.lt_or_ge i s.bytes.size with hi | hi
  · rw [Array.getElem?_eq_getElem hi, Option.map_some, Option.getD_some, Option.getD_some]
  · rw [Array.getElem?_eq_none hi, Option.map_none, Option.getD_none]
    split
    · rfl
    · rw [List.getD_eq_getElem?_getD, List.getElem?_eq_none (by omega), Option.getD_none]

/-- Both ways to write several bytes leave the same bytes inside the store. -/
theorem read_writeBytes {s : Store} {a : Nat} {vs : List UInt8} (h : a + vs.length ≤ s.capacity)
    (i : Nat) :
    (s.writeBytes a vs).read i = if i < a then s.read i else vs.getD (i - a) (s.read i) := by
  cases ht : s.transfer with
  | block => rw [writeBytes, ht]; exact read_writeBlock h i
  | bytewise => rw [writeBytes, ht]; exact read_writeEach h i

theorem read_writeBytes_of_outside {s : Store} {a : Nat} {vs : List UInt8}
    (h : a + vs.length ≤ s.capacity) {i : Nat} (hi : i < a ∨ a + vs.length ≤ i) :
    (s.writeBytes a vs).read i = s.read i := by
  rw [read_writeBytes h]
  split
  · rfl
  · rw [List.getD_eq_getElem?_getD, List.getElem?_eq_none (by omega), Option.getD_none]

theorem read_writeBytes_inside {s : Store} {a : Nat} {vs : List UInt8}
    (h : a + vs.length ≤ s.capacity) {k : Nat} (hk : k < vs.length) :
    (s.writeBytes a vs).read (a + k) = vs[k] := by
  rw [read_writeBytes h, if_neg (by omega), Nat.add_sub_cancel_left,
    List.getD_eq_getElem?_getD, List.getElem?_eq_getElem hk, Option.getD_some]

/-- Both ways to read several bytes find the same bytes inside the store. -/
theorem readBytes_eq_map {s : Store} {a n : Nat} (h : a + n ≤ s.capacity) :
    s.readBytes a n = (List.range n).map fun i => s.read (a + i) := by
  cases ht : s.transfer with
  | bytewise => rw [readBytes, ht]
  | block =>
    have hsize : s.capacity = s.bytes.size := rfl
    rw [readBytes, ht]
    apply List.ext_getElem
    · simp; omega
    · intro i h₁ h₂
      have hi : a + i < s.bytes.size := by simp at h₁; omega
      simp [read, Array.getD_eq_getD_getElem?, Array.getElem?_eq_getElem hi]

end RailNode.Store
