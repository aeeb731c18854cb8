import RailNode.Proofs.Layout

/-
  The single bytes of a layout: those of the identity, the node variables, and for each slot the
  header and the variables of its record. In a layout that fits its store no two of them share an
  address, and all lie inside (`address_injective`, `address_lt`). The other way round, a layout
  with both regions is refused only for a reason that can be pointed at (`exists_fault`).
-/
namespace RailNode.Layout

/-- A single byte for which a layout has a place. -/
inductive Cell where
  | identity (i : Nat)
  /-- A node variable, with an index from 1 on. -/
  | nodeVariable (index : Nat)
  /-- A byte of the identity of the event in a slot. -/
  | header (slot i : Nat)
  /-- A variable of the event in a slot, with an index from 1 on. -/
  | eventVariable (slot index : Nat)
deriving DecidableEq, Repr

namespace Cell

/-- The layout has this byte. -/
def In (l : Layout) : Cell → Prop
  | identity i => i < identitySize
  | nodeVariable index => 1 ≤ index ∧ index ≤ l.nodeVariables
  | header slot i => slot < l.slots ∧ i < recordHeaderSize
  | eventVariable slot index => slot < l.slots ∧ 1 ≤ index ∧ index ≤ l.eventVariables

/-- Where the layout puts a byte. -/
def address (l : Layout) : Cell → Nat
  | identity i => i
  | nodeVariable index => l.nodeVariableAddress index
  | header slot i => l.recordAddress slot + i
  | eventVariable slot index => l.eventVariableAddress slot index

variable {l : Layout} {capacity : Nat}

/-- The bytes of a record, counted from its start. -/
theorem exists_offset {x : Cell} (hx : x.In l) (h : l.InEvents (x.address l))
    (hf : l.Fits capacity) :
    ∃ slot a, slot < l.slots ∧ a < l.recordSize ∧ x.address l = l.recordAddress slot + a ∧
      (x = header slot a ∧ a < recordHeaderSize ∨
        x = eventVariable slot (a - recordHeaderSize + 1) ∧ recordHeaderSize ≤ a) := by
  cases x with
  | identity i =>
    have hbehind := hf.identitySize_le_of_inEvents h
    exact absurd hx (Nat.not_lt.2 hbehind)
  | nodeVariable index =>
    exact absurd h (hf.not_inEvents_of_inNodeVariables (inNodeVariables_address hx.1 hx.2))
  | header slot i =>
    have hi : i < l.recordSize := Nat.lt_of_lt_of_le hx.2 (recordHeaderSize_le_recordSize l)
    exact ⟨slot, i, hx.1, hi, rfl, Or.inl ⟨rfl, hx.2⟩⟩
  | eventVariable slot index =>
    obtain ⟨hslot, h1, h2⟩ := hx
    have hindex : recordHeaderSize + (index - 1) - recordHeaderSize + 1 = index := by omega
    refine ⟨slot, recordHeaderSize + (index - 1), hslot, eventVariable_offset_lt h1 h2,
      eventVariableAddress_eq l slot h1, Or.inr ⟨?_, Nat.le_add_right _ _⟩⟩
    rw [hindex]

/-- A byte lies in the region of its kind. -/
theorem region_of_in (x : Cell) (hx : x.In l) :
    (∃ i, x = identity i ∧ x.address l < identitySize) ∨
      (∃ index, x = nodeVariable index ∧ l.InNodeVariables (x.address l)) ∨
      l.InEvents (x.address l) := by
  cases x with
  | identity i => exact Or.inl ⟨i, rfl, hx⟩
  | nodeVariable index =>
    exact Or.inr (Or.inl ⟨index, rfl, inNodeVariables_address hx.1 hx.2⟩)
  | header slot i =>
    have hi : i < l.recordSize := Nat.lt_of_lt_of_le hx.2 (recordHeaderSize_le_recordSize l)
    exact Or.inr (Or.inr (inEvents_record hx.1 hi))
  | eventVariable slot index =>
    obtain ⟨hslot, h1, h2⟩ := hx
    have hmem := inEvents_record hslot (eventVariable_offset_lt h1 h2)
    rw [← eventVariableAddress_eq l slot h1] at hmem
    exact Or.inr (Or.inr hmem)

/-- Every byte lies inside the store. -/
theorem address_lt (hf : l.Fits capacity) {x : Cell} (hx : x.In l) : x.address l < capacity := by
  rcases region_of_in x hx with ⟨_, _, h⟩ | ⟨_, _, h⟩ | h
  · exact Nat.lt_of_lt_of_le h hf.identitySize_le_capacity
  · exact hf.lt_capacity_of_inNodeVariables h
  · exact hf.lt_capacity_of_inEvents h

/-- Two bytes of records with one address are the same byte. -/
theorem eq_of_inEvents (hf : l.Fits capacity) {x y : Cell} (hx : x.In l) (hy : y.In l)
    (hxe : l.InEvents (x.address l)) (h : x.address l = y.address l) : x = y := by
  obtain ⟨s, a, _, ha, hxa, hxs⟩ := exists_offset hx hxe hf
  obtain ⟨t, b, _, hb, hyb, hyt⟩ := exists_offset hy (h ▸ hxe) hf
  rw [hxa, hyb] at h
  have hst : s = t := by
    by_cases hst : s = t
    · exact hst
    · exact absurd h (record_byte_ne l ha hb hst)
  subst hst
  have hab : a = b := Nat.add_left_cancel h
  subst hab
  rcases hxs with ⟨rfl, hlt⟩ | ⟨rfl, hge⟩
  · rcases hyt with ⟨rfl, _⟩ | ⟨_, hge⟩
    · rfl
    · omega
  · rcases hyt with ⟨_, hlt⟩ | ⟨rfl, _⟩
    · omega
    · rfl

/-- No two bytes of a layout share an address. -/
theorem address_injective (hf : l.Fits capacity) {x y : Cell} (hx : x.In l) (hy : y.In l)
    (h : x.address l = y.address l) : x = y := by
  rcases region_of_in x hx with ⟨i, rfl, hi⟩ | ⟨index, rfl, hi⟩ | hxe
  · rcases region_of_in y hy with ⟨j, rfl, _⟩ | ⟨_, _, hj⟩ | hj
    · exact congrArg identity h
    · have := hf.identitySize_le_of_inNodeVariables hj
      omega
    · have := hf.identitySize_le_of_inEvents hj
      omega
  · rcases region_of_in y hy with ⟨_, _, hj⟩ | ⟨other, rfl, _⟩ | hj
    · have := hf.identitySize_le_of_inNodeVariables hi
      omega
    · have hx1 : 1 ≤ index := hx.1
      have hy1 : 1 ≤ other := hy.1
      have haddress : l.nodeVariableStart + index - 1 = l.nodeVariableStart + other - 1 := h
      have heq : index = other := by omega
      rw [heq]
    · exact absurd (h ▸ hj) (hf.not_inEvents_of_inNodeVariables hi)
  · exact eq_of_inEvents hf hx hy hxe h

end Cell

/-- Every byte of the table belongs to a record. -/
theorem exists_record_of_inEvents {l : Layout} {a : Nat} (h : l.InEvents a) :
    ∃ slot i, slot < l.slots ∧ i < l.recordSize ∧ a = l.recordAddress slot + i := by
  obtain ⟨hstart, hend⟩ := h
  have hsize : 0 < l.recordSize :=
    Nat.lt_of_lt_of_le (by decide) (recordHeaderSize_le_recordSize l)
  unfold eventEnd at hend
  refine ⟨(a - l.eventStart) / l.recordSize, (a - l.eventStart) % l.recordSize, ?_,
    Nat.mod_lt _ hsize, ?_⟩
  · exact (Nat.div_lt_iff_lt_mul hsize).2 (by omega)
  · have hdiv := Nat.div_add_mod' (a - l.eventStart) l.recordSize
    unfold recordAddress
    omega

/-- A byte of a record is one of its header or of its variables. -/
theorem exists_cell_of_record {l : Layout} (slot : Nat) {i : Nat} (hi : i < l.recordSize) :
    (i < recordHeaderSize ∧ l.recordAddress slot + i = (Cell.header slot i).address l) ∨
      ∃ index, 1 ≤ index ∧ index ≤ l.eventVariables ∧
        l.recordAddress slot + i = (Cell.eventVariable slot index).address l := by
  rcases Nat.lt_or_ge i recordHeaderSize with h | h
  · exact Or.inl ⟨h, rfl⟩
  · right
    unfold recordSize at hi
    refine ⟨i - recordHeaderSize + 1, by omega, by omega, ?_⟩
    show _ = l.eventVariableAddress slot (i - recordHeaderSize + 1)
    rw [eventVariableAddress_eq l slot (by omega)]
    omega

/-- A layout with both regions is refused only if a region begins inside the identity, the regions
    share a byte, a byte of a region lies outside the store, or there are too many variables. -/
theorem exists_fault {l : Layout} {capacity : Nat} (hn : 0 < l.nodeVariables)
    (he : 0 < l.slots) (h : l.error? capacity ≠ none) :
    l.nodeVariableStart < identitySize ∨ l.eventStart < identitySize ∨
      (∃ a, l.InNodeVariables a ∧ l.InEvents a) ∨
      (∃ a, (l.InNodeVariables a ∨ l.InEvents a) ∧ capacity ≤ a) ∨
      maxEventVariables < l.eventVariables := by
  have hrecord : 0 < l.slots * l.recordSize := by
    have hsize := recordHeaderSize_le_recordSize l
    exact Nat.mul_pos he (Nat.lt_of_lt_of_le (by decide) hsize)
  have hnode : l.nodeVariableStart < l.nodeVariableEnd := Nat.lt_add_of_pos_right hn
  have hevent : l.eventStart < l.eventEnd := Nat.lt_add_of_pos_right hrecord
  have hfits : ¬ l.Fits capacity := fun hf => h (error?_eq_none_iff.2 hf)
  by_cases h1 : l.nodeVariableStart < identitySize
  · exact Or.inl h1
  by_cases h2 : l.eventStart < identitySize
  · exact Or.inr (Or.inl h2)
  by_cases h3 : l.eventEnd ≤ l.nodeVariableStart ∨ l.nodeVariableEnd ≤ l.eventStart
  · by_cases h4 : maxEventVariables < l.eventVariables
    · exact Or.inr (Or.inr (Or.inr (Or.inr h4)))
    · right; right; right; left
      by_cases h5 : l.eventEnd ≤ capacity
      · by_cases h6 : l.nodeVariableEnd ≤ capacity
        · exact absurd ⟨Nat.le_of_not_lt h1, Nat.le_of_not_lt h2, h3, Nat.le_of_not_lt h4, h5, h6⟩
            hfits
        · exact ⟨l.nodeVariableEnd - 1, Or.inl ⟨by omega, by omega⟩, by omega⟩
      · exact ⟨l.eventEnd - 1, Or.inr ⟨by omega, by omega⟩, by omega⟩
  · -- the later of the two starts lies in both regions
    right; right; left
    refine ⟨max l.nodeVariableStart l.eventStart, ⟨?_, ?_⟩, ⟨?_, ?_⟩⟩ <;> omega

end RailNode.Layout
