import RailNode.Layout

/-
  The places of a layout that fits its store. `Fits` says in inequalities what `error?` checks;
  from it follow the separations that the configuration relies on: the identity, each node
  variable and each byte of each record are apart from one another and inside the store.
-/
namespace RailNode.Layout

/-- The regions lie behind the identity, apart from each other, and inside the store. -/
structure Fits (l : Layout) (capacity : Nat) : Prop where
  identity_le_nodeVariables : identitySize ≤ l.nodeVariableStart
  identity_le_events : identitySize ≤ l.eventStart
  apart : l.eventEnd ≤ l.nodeVariableStart ∨ l.nodeVariableEnd ≤ l.eventStart
  eventVariables_le : l.eventVariables ≤ maxEventVariables
  eventEnd_le : l.eventEnd ≤ capacity
  nodeVariableEnd_le : l.nodeVariableEnd ≤ capacity

theorem overlaps_eq_false_iff (l : Layout) :
    l.overlaps = false ↔ identitySize ≤ l.nodeVariableStart ∧ identitySize ≤ l.eventStart ∧
      (l.eventEnd ≤ l.nodeVariableStart ∨ l.nodeVariableEnd ≤ l.eventStart) := by
  simp only [overlaps, Bool.or_eq_false_iff, Bool.and_eq_false_iff, decide_eq_false_iff_not,
    Nat.not_lt, and_assoc]

theorem error?_eq_none_iff {l : Layout} {capacity : Nat} :
    l.error? capacity = none ↔ l.Fits capacity := by
  unfold error?
  constructor
  · intro h
    split at h
    · contradiction
    · rename_i hov
      obtain ⟨h1, h2, h3⟩ := (overlaps_eq_false_iff l).1 (by simpa using hov)
      split at h
      · contradiction
      · split at h
        · contradiction
        · rename_i hcap
          simp only [Bool.or_eq_true, decide_eq_true_eq, not_or, Nat.not_lt] at hcap
          exact ⟨h1, h2, h3, by omega, hcap.1, hcap.2⟩
  · intro h
    have hov : l.overlaps = false :=
      (overlaps_eq_false_iff l).2
        ⟨h.identity_le_nodeVariables, h.identity_le_events, h.apart⟩
    have hcap : ¬ (capacity < l.eventEnd || capacity < l.nodeVariableEnd) = true := by
      simp only [Bool.or_eq_true, decide_eq_true_eq, not_or, Nat.not_lt]
      exact ⟨h.eventEnd_le, h.nodeVariableEnd_le⟩
    rw [if_neg (by simp [hov]), if_neg (Nat.not_lt.2 h.eventVariables_le), if_neg hcap]

variable {l : Layout} {capacity : Nat}

/-! ## Records -/

theorem recordHeaderSize_le_recordSize (l : Layout) : recordHeaderSize ≤ l.recordSize :=
  Nat.le_add_right _ _

theorem recordAddress_succ (l : Layout) (slot : Nat) :
    l.recordAddress (slot + 1) = l.recordAddress slot + l.recordSize := by
  unfold recordAddress
  rw [Nat.succ_mul, Nat.add_assoc]

theorem recordAddress_mono (l : Layout) {i j : Nat} (h : i ≤ j) :
    l.recordAddress i ≤ l.recordAddress j :=
  Nat.add_le_add_left (Nat.mul_le_mul_right _ h) _

theorem eventStart_le_recordAddress (l : Layout) (slot : Nat) :
    l.eventStart ≤ l.recordAddress slot :=
  Nat.le_add_right _ _

/-- A record ends before the table does. -/
theorem recordAddress_add_le (l : Layout) {slot : Nat} (h : slot < l.slots) :
    l.recordAddress slot + l.recordSize ≤ l.eventEnd := by
  rw [← recordAddress_succ]
  exact recordAddress_mono l h

/-- A record ends before the next one begins. -/
theorem recordAddress_add_le_of_lt (l : Layout) {i j : Nat} (h : i < j) :
    l.recordAddress i + l.recordSize ≤ l.recordAddress j := by
  rw [← recordAddress_succ]
  exact recordAddress_mono l h

/-- The address of a variable, counted from the start of its record. -/
theorem eventVariableAddress_eq (l : Layout) (slot : Nat) {index : Nat} (h : 1 ≤ index) :
    l.eventVariableAddress slot index =
      l.recordAddress slot + (recordHeaderSize + (index - 1)) := by
  unfold eventVariableAddress
  omega

theorem eventVariable_offset_lt {index : Nat} (h : 1 ≤ index) (h' : index ≤ l.eventVariables) :
    recordHeaderSize + (index - 1) < l.recordSize := by
  unfold recordSize
  omega

/-- Bytes of different records have different addresses. -/
theorem record_byte_ne (l : Layout) {i j a b : Nat} (ha : a < l.recordSize)
    (hb : b < l.recordSize) (h : i ≠ j) : l.recordAddress i + a ≠ l.recordAddress j + b := by
  rcases Nat.lt_or_gt_of_ne h with h | h
  · have := recordAddress_add_le_of_lt l h
    omega
  · have := recordAddress_add_le_of_lt l h
    omega

/-- The bytes behind the header of a record are those of its variables. -/
theorem exists_variable_iff {slot slot' a : Nat} (ha : a < l.recordSize) :
    (∃ index ∈ List.range' 1 l.eventVariables,
      l.recordAddress slot + (recordHeaderSize + (index - 1)) = l.recordAddress slot' + a) ↔
        slot' = slot ∧ recordHeaderSize ≤ a := by
  constructor
  · rintro ⟨index, hindex, heq⟩
    obtain ⟨h1, h2⟩ := List.mem_range'_1.1 hindex
    have hoffset := eventVariable_offset_lt (l := l) h1 (by omega)
    by_cases hslot : slot' = slot
    · subst hslot
      exact ⟨rfl, by omega⟩
    · exact absurd heq.symm (l.record_byte_ne ha hoffset hslot)
  · rintro ⟨rfl, ha'⟩
    unfold recordSize at ha
    have hindex : a - recordHeaderSize + 1 ∈ List.range' 1 l.eventVariables :=
      List.mem_range'_1.2 ⟨by omega, by omega⟩
    exact ⟨a - recordHeaderSize + 1, hindex, by omega⟩

/-! ## Regions -/

/-- The address lies in the table of events. -/
def InEvents (l : Layout) (a : Nat) : Prop := l.eventStart ≤ a ∧ a < l.eventEnd

/-- The address lies among the node variables. -/
def InNodeVariables (l : Layout) (a : Nat) : Prop :=
  l.nodeVariableStart ≤ a ∧ a < l.nodeVariableEnd

theorem inEvents_record {slot a : Nat} (h : slot < l.slots) (ha : a < l.recordSize) :
    l.InEvents (l.recordAddress slot + a) := by
  have h1 := eventStart_le_recordAddress l slot
  have h2 := recordAddress_add_le l h
  exact ⟨by omega, by omega⟩

theorem inNodeVariables_address {index : Nat} (h : 1 ≤ index) (h' : index ≤ l.nodeVariables) :
    l.InNodeVariables (l.nodeVariableAddress index) := by
  unfold InNodeVariables nodeVariableAddress nodeVariableEnd
  omega

namespace Fits

theorem not_inEvents_of_inNodeVariables (hf : l.Fits capacity) {a : Nat}
    (h : l.InNodeVariables a) : ¬ l.InEvents a := by
  have := hf.apart
  unfold InEvents InNodeVariables at *
  omega

theorem identitySize_le_of_inEvents (hf : l.Fits capacity) {a : Nat} (h : l.InEvents a) :
    identitySize ≤ a :=
  Nat.le_trans hf.identity_le_events h.1

theorem identitySize_le_of_inNodeVariables (hf : l.Fits capacity) {a : Nat}
    (h : l.InNodeVariables a) : identitySize ≤ a :=
  Nat.le_trans hf.identity_le_nodeVariables h.1

theorem lt_capacity_of_inEvents (hf : l.Fits capacity) {a : Nat} (h : l.InEvents a) :
    a < capacity :=
  Nat.lt_of_lt_of_le h.2 hf.eventEnd_le

theorem lt_capacity_of_inNodeVariables (hf : l.Fits capacity) {a : Nat}
    (h : l.InNodeVariables a) : a < capacity :=
  Nat.lt_of_lt_of_le h.2 hf.nodeVariableEnd_le

/-- The identity is inside the store, since the node variables begin behind it. -/
theorem identitySize_le_capacity (hf : l.Fits capacity) : identitySize ≤ capacity := by
  have h1 := hf.identity_le_nodeVariables
  have h2 := hf.nodeVariableEnd_le
  unfold nodeVariableEnd at h2
  omega

theorem record_le_capacity (hf : l.Fits capacity) {slot : Nat} (h : slot < l.slots) :
    l.recordAddress slot + l.recordSize ≤ capacity :=
  Nat.le_trans (recordAddress_add_le l h) hf.eventEnd_le

end Fits

end RailNode.Layout
