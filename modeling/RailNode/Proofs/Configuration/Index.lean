import RailNode.Proofs.Configuration.Records

/-
  The index of the event table. `IndexAgrees` says that every entry is what the record of its slot
  asks for. Where it holds, each answer that goes through the index is the answer of a plain scan
  of the records (`find_eq_ok_iff`, `findFree_eq_ok_iff`, `storedCount_eq`). Every operation on
  the table keeps it, though some leave the index behind half way.
-/
namespace RailNode.Configuration

variable {c d : Configuration}

/-! ## Vacant slots -/

/-- The first four bytes of the record of a slot are erased. -/
def Vacant (c : Configuration) (slot : Nat) : Prop :=
  ∀ i < Layout.recordHeaderSize, c.recordByte slot i = Store.erased

instance (c : Configuration) (slot : Nat) : Decidable (c.Vacant slot) :=
  inferInstanceAs (Decidable (∀ i < Layout.recordHeaderSize, c.recordByte slot i = Store.erased))

/-- The record of a slot holds an event. -/
def Holds (c : Configuration) (slot : Nat) (e : EventId) : Prop :=
  ¬ c.Vacant slot ∧ c.event slot = .ok e

theorem recordHeader_eq_replicate_iff (c : Configuration) (slot : Nat) :
    c.recordHeader slot = List.replicate Layout.recordHeaderSize Store.erased ↔
      c.Vacant slot := by
  unfold recordHeader Vacant
  rw [List.eq_replicate_iff]
  simp

theorem record?_eq_none_iff {slot : Nat} (h : slot < c.layout.slots) :
    c.record? slot = none ↔ c.Vacant slot := by
  rw [c.record?_eq h, ← recordHeader_eq_replicate_iff]
  split <;> simp_all

theorem record?_eq_some_iff {slot : Nat} {e : EventId} (h : slot < c.layout.slots) :
    c.record? slot = some e ↔ c.Holds slot e := by
  rw [c.record?_eq h, Holds, c.event_eq h, ← recordHeader_eq_replicate_iff]
  split <;> simp_all

/-! ## Agreement -/

/-- Every entry of the index is what the record of its slot asks for. -/
def IndexAgrees (c : Configuration) : Prop :=
  ∀ slot < c.layout.slots, c.index.toList[slot]? = some (c.indexEntry slot)

theorem indexEntry_congr {slot : Nat} (h : d.record? slot = c.record? slot) :
    d.indexEntry slot = c.indexEntry slot := by
  rw [indexEntry, indexEntry, h]

theorem indexEntry_of_record? {slot : Nat} {e : EventId} (h : c.record? slot = some e) :
    c.indexEntry slot = e.hash := by
  rw [indexEntry, h]

theorem indexEntry_eq_zero_iff (c : Configuration) (slot : Nat) :
    c.indexEntry slot = 0 ↔ c.record? slot = none := by
  unfold indexEntry
  split
  · rename_i h
    simp [h]
  · rename_i e h
    simp [h, e.hash_ne_zero]

/-- What changes neither the events nor the index keeps them in agreement. -/
theorem IndexAgrees.congr (hc : c.IndexAgrees) (hl : d.layout = c.layout)
    (hi : d.index.toList = c.index.toList)
    (hr : ∀ slot < c.layout.slots, d.record? slot = c.record? slot) : d.IndexAgrees := by
  intro slot hs
  rw [hl] at hs
  rw [hi, hc slot hs, indexEntry_congr (hr slot hs)]

theorem IndexAgrees.of_changesOnly {A : List Part} (hc : c.IndexAgrees) (h : ChangesOnly A c d)
    (hr : Part.records ∉ A) (hi : Part.index ∉ A) : d.IndexAgrees :=
  hc.congr h.layout (h.index hi) fun _ hs => h.record? hr hs

@[simp]
theorem toList_index_reindex (c : Configuration) (slot : Nat) :
    (c.reindex slot).index.toList = c.index.toList.set slot (c.indexEntry slot) :=
  Vector.toList_setIfInBounds

theorem record?_reindex (c : Configuration) (slot slot' : Nat) :
    (c.reindex slot).record? slot' = c.record? slot' := rfl

/-- An operation on the record of one slot, followed by `reindex`, keeps the index in agreement. -/
theorem IndexAgrees.reindex (hc : c.IndexAgrees) {slot : Nat} (h : ChangesOnly [.records] c d)
    (hs : slot < c.layout.slots)
    (hother : ∀ slot' < c.layout.slots, slot' ≠ slot → d.record? slot' = c.record? slot') :
    (d.reindex slot).IndexAgrees := by
  intro slot' hs'
  have hs'' : slot' < c.layout.slots := by rw [← h.layout]; exact hs'
  have hlen : slot < d.index.toList.length := by
    rw [Vector.length_toList, h.layout]; exact hs
  rw [toList_index_reindex, indexEntry_congr (d.record?_reindex slot slot')]
  by_cases he : slot' = slot
  · subst he
    rw [List.getElem?_set_self hlen]
  · rw [List.getElem?_set_ne (Ne.symm he), h.index (by decide), hc slot' hs'',
      indexEntry_congr (hother slot' hs'' he)]

theorem reindex_foldl (slots : List Nat) (c : Configuration) (slot : Nat)
    (hs : slot < c.layout.slots)
    (h : slot ∈ slots ∨ c.index.toList[slot]? = some (c.indexEntry slot)) :
    (slots.foldl (fun d s => d.reindex s) c).index.toList[slot]? = some (c.indexEntry slot) := by
  induction slots generalizing c with
  | nil => exact h.resolve_left (by simp)
  | cons s slots ih =>
    have hlen : s < c.layout.slots → s < c.index.toList.length := fun hlt => by
      rw [Vector.length_toList]; exact hlt
    refine ih (c.reindex s) hs ?_
    rw [toList_index_reindex, indexEntry_congr (c.record?_reindex s slot)]
    by_cases he : slot = s
    · subst he
      exact Or.inr (List.getElem?_set_self (hlen hs))
    · rcases h with h | h
      · exact Or.inl ((List.mem_cons.1 h).resolve_left he)
      · exact Or.inr (by rw [List.getElem?_set_ne (Ne.symm he)]; exact h)

theorem indexAgrees_reindexAll (c : Configuration) : c.reindexAll.IndexAgrees := by
  intro slot hs
  have hch := c.changesOnly_reindexAll
  rw [hch.layout] at hs
  rw [reindexAll, reindex_foldl _ c slot hs (Or.inl (List.mem_range.2 hs))]
  exact congrArg some (indexEntry_congr (hch.record? (by decide) hs)).symm

/-- An index of zeros agrees with a table without records. -/
theorem indexAgrees_clearIndex (h : ∀ slot < c.layout.slots, c.Vacant slot) :
    c.clearIndex.IndexAgrees := by
  intro slot hs
  have hz : c.clearIndex.indexEntry slot = 0 :=
    (indexEntry_eq_zero_iff _ _).2 ((record?_eq_none_iff hs).2 (h slot hs))
  rw [hz, clearIndex, Vector.getElem?_toList]
  exact Vector.getElem?_replicate_of_lt hs

/-! ## The operations on the table -/

/-- A variable is no part of a header. -/
theorem record?_setEventVariable {slot index : Nat} {v : UInt8}
    (h : c.setEventVariable slot index v = .ok d) {slot' : Nat} (hs' : slot' < c.layout.slots) :
    d.record? slot' = c.record? slot' := by
  obtain ⟨hs, h1, h2⟩ := setEventVariable_eq_ok h
  have hch := changesOnly_setEventVariable h
  rw [c.setEventVariable_eq hs h1 h2] at h
  have hk := Layout.eventVariable_offset_lt h1 h2
  refine record?_congr hch.layout (List.map_congr_left fun i hi => ?_) hs'
  have hi4 := List.mem_range.1 hi
  rw [← Except.ok.inj h, c.recordByte_write hs hk v (by omega), if_neg (by omega)]

theorem record?_fileEvent_of_ne {slot : Nat} (hs : slot < c.layout.slots) (e : EventId)
    {slot' : Nat} (hs' : slot' < c.layout.slots) (h : slot' ≠ slot) :
    (c.fileEvent slot e).record? slot' = c.record? slot' :=
  record?_congr (c.changesOnly_fileEvent hs e).layout
    (recordHeader_congr fun _ hi => by rw [c.recordByte_fileEvent hs e hi, if_neg h]) hs'

theorem record?_eraseRecord_of_ne {slot : Nat} (hs : slot < c.layout.slots) {slot' : Nat}
    (hs' : slot' < c.layout.slots) (h : slot' ≠ slot) :
    (c.eraseRecord slot).record? slot' = c.record? slot' :=
  record?_congr (c.changesOnly_eraseRecord hs).layout
    (recordHeader_congr fun _ hi => by rw [c.recordByte_eraseRecord hs hi, if_neg h]) hs'

theorem removeEvent_eq (c : Configuration) {slot : Nat} (hs : slot < c.layout.slots) :
    c.removeEvent slot = .ok ((c.eraseRecord slot).reindex slot) := by
  rw [removeEvent, clearEvent, if_pos hs]
  rfl

theorem slot_lt_of_insertEvent {slot : Nat} {e : EventId} (h : c.insertEvent slot e = .ok d) :
    slot < c.layout.slots := by
  refine Nat.lt_of_not_le fun hs => ?_
  rw [insertEvent, writeEvent, if_neg (Nat.not_lt.2 hs)] at h
  contradiction

theorem slot_lt_of_removeEvent {slot : Nat} (h : c.removeEvent slot = .ok d) :
    slot < c.layout.slots := by
  refine Nat.lt_of_not_le fun hs => ?_
  rw [removeEvent, clearEvent, if_neg (Nat.not_lt.2 hs)] at h
  contradiction

theorem changesOnly_insertEvent {slot : Nat} {e : EventId} (h : c.insertEvent slot e = .ok d) :
    ChangesOnly [.records, .index] c d := by
  have hs := slot_lt_of_insertEvent h
  rw [c.insertEvent_eq hs] at h
  rw [← Except.ok.inj h]
  exact ((c.changesOnly_fileEvent hs e).mono (by decide)).trans
    ((changesOnly_reindex _ slot).mono (by decide))

theorem changesOnly_removeEvent {slot : Nat} (h : c.removeEvent slot = .ok d) :
    ChangesOnly [.records, .index] c d := by
  have hs := slot_lt_of_removeEvent h
  rw [c.removeEvent_eq hs] at h
  rw [← Except.ok.inj h]
  exact ((c.changesOnly_eraseRecord hs).mono (by decide)).trans
    ((changesOnly_reindex _ slot).mono (by decide))

theorem changesOnly_clearEvents (c : Configuration) :
    ChangesOnly [.records, .index] c c.clearEvents :=
  ((c.changesOnly_eraseOccupied fun _ hs => List.mem_range.1 hs).mono (by decide)).trans
    ((changesOnly_clearIndex _).mono (by decide))

theorem IndexAgrees.setEventVariable (hc : c.IndexAgrees) {slot index : Nat} {v : UInt8}
    (h : c.setEventVariable slot index v = .ok d) : d.IndexAgrees :=
  have hch := changesOnly_setEventVariable h
  hc.congr hch.layout (hch.index (by decide)) fun _ hs => record?_setEventVariable h hs

theorem IndexAgrees.insertEvent (hc : c.IndexAgrees) {slot : Nat} {e : EventId}
    (h : c.insertEvent slot e = .ok d) : d.IndexAgrees := by
  have hs := slot_lt_of_insertEvent h
  rw [c.insertEvent_eq hs] at h
  rw [← Except.ok.inj h]
  exact hc.reindex (c.changesOnly_fileEvent hs e) hs fun _ => record?_fileEvent_of_ne hs e

theorem IndexAgrees.removeEvent (hc : c.IndexAgrees) {slot : Nat}
    (h : c.removeEvent slot = .ok d) : d.IndexAgrees := by
  have hs := slot_lt_of_removeEvent h
  rw [c.removeEvent_eq hs] at h
  rw [← Except.ok.inj h]
  exact hc.reindex (c.changesOnly_eraseRecord hs) hs fun _ => record?_eraseRecord_of_ne hs

/-- Only slots that the index calls occupied are erased, but it calls every other one vacant. -/
theorem IndexAgrees.vacant_eraseOccupied (hc : c.IndexAgrees) {slot : Nat}
    (hs : slot < c.layout.slots) :
    (c.eraseOccupied (List.range c.layout.slots)).Vacant slot := by
  have h4 : 4 ≤ c.layout.recordSize := c.layout.recordHeaderSize_le_recordSize
  intro i hi
  have hi' : i < c.layout.recordSize := Nat.lt_of_lt_of_le hi h4
  rw [c.recordByte_eraseOccupied (fun _ h => List.mem_range.1 h) hi']
  split
  · rfl
  · rename_i h
    have hfree : c.isFree slot = true := by
      have := mt (And.intro (List.mem_range.2 hs)) h
      simpa using this
    have hzero : c.indexEntry slot = 0 := by
      rw [isFree, ← Vector.getElem?_toList, hc slot hs] at hfree
      exact beq_iff_eq.1 hfree
    exact (record?_eq_none_iff hs).1 ((indexEntry_eq_zero_iff c slot).1 hzero) i hi

theorem IndexAgrees.clearEvents (hc : c.IndexAgrees) : c.clearEvents.IndexAgrees := by
  rw [clearEvents_eq]
  refine indexAgrees_clearIndex fun slot hs => hc.vacant_eraseOccupied ?_
  rwa [(c.changesOnly_eraseOccupied fun _ h => List.mem_range.1 h).layout] at hs

theorem indexAgrees_factoryReset (c : Configuration) : c.factoryReset.IndexAgrees := by
  have h4 := c.layout.recordHeaderSize_le_recordSize
  rw [factoryReset_eq, resetRest]
  refine indexAgrees_clearIndex fun slot hs i hi => ?_
  have hs' : slot < c.layout.slots := by
    have hl := c.layout_factoryReset
    rw [factoryReset_eq, resetRest] at hl
    exact hl ▸ hs
  exact c.recordByte_factoryReset hs' (Nat.lt_of_lt_of_le hi h4)

/-! ## Answers -/

/-- The number of slots below the end of the table that hold an event. -/
def heldCount (c : Configuration) : Nat :=
  (List.range c.layout.slots).countP fun slot => decide (¬ c.Vacant slot)

theorem IndexAgrees.isFree_iff (hc : c.IndexAgrees) {slot : Nat} (hs : slot < c.layout.slots) :
    c.isFree slot = true ↔ c.Vacant slot := by
  rw [← record?_eq_none_iff hs, ← indexEntry_eq_zero_iff, isFree, ← Vector.getElem?_toList,
    hc slot hs]
  exact beq_iff_eq

/-- The test by which `find` chooses a slot. -/
theorem IndexAgrees.matches_iff (hc : c.IndexAgrees) (e : EventId) {slot : Nat}
    (hs : slot < c.layout.slots) :
    (c.index[slot]? == some e.hash && (c.event slot).toOption == some e) = true ↔
      c.Holds slot e := by
  rw [Bool.and_eq_true, beq_iff_eq, beq_iff_eq, ← Vector.getElem?_toList, hc slot hs,
    Option.some.injEq, Holds, c.event_eq hs, ← record?_eq_none_iff hs]
  have hh := e.hash_ne_zero
  constructor
  · rintro ⟨h1, h2⟩
    refine ⟨fun hn => hh ?_, congrArg Except.ok (Option.some.inj h2)⟩
    rw [← h1, (indexEntry_eq_zero_iff c slot).2 hn]
  · rintro ⟨h1, h2⟩
    refine ⟨?_, congrArg some (Except.ok.inj h2)⟩
    refine indexEntry_of_record? ((record?_eq_some_iff hs).2 ⟨?_, ?_⟩)
    · rwa [← record?_eq_none_iff hs]
    · rw [c.event_eq hs, h2]

/-- A search through the slots finds the lowest with the property that it tests. -/
theorem find?_slots_eq_some_iff {n : Nat} {test : Nat → Bool} {P : Nat → Prop}
    (h : ∀ slot < n, test slot = true ↔ P slot) {slot : Nat} :
    (List.range n).find? test = some slot ↔ slot < n ∧ P slot ∧ ∀ j < slot, ¬ P j := by
  rw [List.find?_range_eq_some, List.mem_range]
  constructor
  · rintro ⟨ht, hs, hmin⟩
    refine ⟨hs, (h slot hs).1 ht, fun j hj hP => ?_⟩
    have hno := hmin j hj
    rw [(h j (Nat.lt_trans hj hs)).2 hP] at hno
    contradiction
  · rintro ⟨hs, hP, hmin⟩
    refine ⟨(h slot hs).2 hP, hs, fun j hj => ?_⟩
    rw [Bool.not_eq_true', ← Bool.not_eq_true, h j (Nat.lt_trans hj hs)]
    exact hmin j hj

theorem find?_slots_eq_none_iff {n : Nat} {test : Nat → Bool} {P : Nat → Prop}
    (h : ∀ slot < n, test slot = true ↔ P slot) :
    (List.range n).find? test = none ↔ ∀ slot < n, ¬ P slot := by
  rw [List.find?_range_eq_none]
  refine forall₂_congr fun slot hs => ?_
  rw [Bool.not_eq_true', ← Bool.not_eq_true, h slot hs]

/-- A search for an event fails in one way only. -/
theorem eq_notFound_of_find {e : EventId} {x : EventError} (h : c.find e = .error x) :
    x = .notFound := by
  unfold find at h
  split at h
  · contradiction
  · exact (Except.error.inj h).symm

theorem eq_tableFull_of_findFree {x : EventError} (h : c.findFree = .error x) :
    x = .tableFull := by
  unfold findFree at h
  split at h
  · contradiction
  · exact (Except.error.inj h).symm

theorem slot_lt_of_find {e : EventId} {slot : Nat}
    (h : c.find e = .ok slot) : slot < c.layout.slots := by
  unfold find at h
  split at h
  · rename_i slot' hfound
    rw [← Except.ok.inj h]
    exact List.mem_range.1 (List.mem_of_find?_eq_some hfound)
  · contradiction

theorem slot_lt_of_findFree {slot : Nat} (h : c.findFree = .ok slot) :
    slot < c.layout.slots := by
  unfold findFree at h
  split at h
  · rename_i slot' hfound
    rw [← Except.ok.inj h]
    exact List.mem_range.1 (List.mem_of_find?_eq_some hfound)
  · contradiction

/-- `find` gives the lowest slot that holds the event. -/
theorem IndexAgrees.find_eq_ok_iff (hc : c.IndexAgrees) {e : EventId} {slot : Nat} :
    c.find e = .ok slot ↔
      slot < c.layout.slots ∧ c.Holds slot e ∧ ∀ j < slot, ¬ c.Holds j e := by
  rw [← find?_slots_eq_some_iff fun _ hs => hc.matches_iff e hs]
  unfold find
  split
  · rename_i hfound
    rw [hfound]
    simp
  · rename_i hnone
    rw [hnone]
    simp

theorem IndexAgrees.find_eq_error_iff (hc : c.IndexAgrees) {e : EventId} :
    c.find e = .error .notFound ↔ ∀ slot < c.layout.slots, ¬ c.Holds slot e := by
  rw [← find?_slots_eq_none_iff fun _ hs => hc.matches_iff e hs]
  unfold find
  split
  · rename_i hfound
    rw [hfound]
    simp
  · rename_i hnone
    rw [hnone]
    simp

/-- A slot beyond the table counts as free. -/
theorem slot_lt_of_isFree {slot : Nat} (h : c.isFree slot = false) : slot < c.layout.slots := by
  refine Nat.lt_of_not_le fun hle => ?_
  rw [isFree, Vector.getElem?_eq_none hle] at h
  contradiction

theorem IndexAgrees.isFree_eq_false_iff (hc : c.IndexAgrees) {slot : Nat}
    (hs : slot < c.layout.slots) : c.isFree slot = false ↔ ¬ c.Vacant slot := by
  rw [← hc.isFree_iff hs, Bool.not_eq_true]

/-- In a slot that is not free there is an event. -/
theorem IndexAgrees.exists_holds (hc : c.IndexAgrees) {slot : Nat} (h : c.isFree slot = false) :
    ∃ e, c.Holds slot e := by
  have hs := slot_lt_of_isFree h
  exact ⟨_, (hc.isFree_eq_false_iff hs).1 h, c.event_eq hs⟩

/-- A slot in which an event is found is not free. -/
theorem IndexAgrees.isFree_of_find (hc : c.IndexAgrees) {e : EventId} {slot : Nat}
    (h : c.find e = .ok slot) : c.isFree slot = false := by
  obtain ⟨hs, hheld, -⟩ := hc.find_eq_ok_iff.1 h
  exact (hc.isFree_eq_false_iff hs).2 hheld.1

theorem IndexAgrees.find_eq_ok_iff_record? (hc : c.IndexAgrees) {e : EventId} {slot : Nat} :
    c.find e = .ok slot ↔
      slot < c.layout.slots ∧ c.record? slot = some e ∧ ∀ j < slot, c.record? j ≠ some e := by
  rw [hc.find_eq_ok_iff]
  refine and_congr_right fun hs => and_congr (record?_eq_some_iff hs).symm ?_
  exact forall₂_congr fun j hj => not_congr (record?_eq_some_iff (Nat.lt_trans hj hs)).symm

/-- A search depends on the events in the records only. -/
theorem IndexAgrees.find_congr (hc : c.IndexAgrees) (hd : d.IndexAgrees)
    (hl : d.layout = c.layout) (hr : ∀ slot < c.layout.slots, d.record? slot = c.record? slot)
    {e : EventId} {slot : Nat} : d.find e = .ok slot ↔ c.find e = .ok slot := by
  rw [hc.find_eq_ok_iff_record?, hd.find_eq_ok_iff_record?, hl]
  refine and_congr_right fun hs => ?_
  rw [hr slot hs]
  refine and_congr_right fun _ => forall₂_congr fun j hj => ?_
  rw [hr j (Nat.lt_trans hj hs)]

/-- `findFree` gives the lowest vacant slot. -/
theorem IndexAgrees.findFree_eq_ok_iff (hc : c.IndexAgrees) {slot : Nat} :
    c.findFree = .ok slot ↔
      slot < c.layout.slots ∧ c.Vacant slot ∧ ∀ j < slot, ¬ c.Vacant j := by
  rw [← find?_slots_eq_some_iff fun _ hs => hc.isFree_iff hs]
  unfold findFree
  split
  · rename_i hfound
    rw [hfound]
    simp
  · rename_i hnone
    rw [hnone]
    simp

theorem IndexAgrees.findFree_eq_error_iff (hc : c.IndexAgrees) :
    c.findFree = .error .tableFull ↔ ∀ slot < c.layout.slots, ¬ c.Vacant slot := by
  rw [← find?_slots_eq_none_iff fun _ hs => hc.isFree_iff hs]
  unfold findFree
  split
  · rename_i hfound
    rw [hfound]
    simp
  · rename_i hnone
    rw [hnone]
    simp

theorem IndexAgrees.toList_index (hc : c.IndexAgrees) :
    c.index.toList = (List.range c.layout.slots).map c.indexEntry := by
  apply List.ext_getElem?
  intro slot
  rcases Nat.lt_or_ge slot c.layout.slots with hs | hs
  · rw [hc slot hs, List.getElem?_map, List.getElem?_range hs, Option.map_some]
  · rw [List.getElem?_eq_none (by rw [Vector.length_toList]; exact hs),
      List.getElem?_eq_none (by rw [List.length_map, List.length_range]; exact hs)]

theorem IndexAgrees.storedCount_eq (hc : c.IndexAgrees) : c.storedCount = c.heldCount := by
  rw [storedCount, hc.toList_index, List.countP_map, heldCount]
  refine List.countP_congr fun slot hs => ?_
  have hs := List.mem_range.1 hs
  simp only [Function.comp_apply, bne_iff_ne, decide_eq_true_eq]
  rw [Ne, indexEntry_eq_zero_iff, record?_eq_none_iff hs]

theorem IndexAgrees.freeCount_eq (hc : c.IndexAgrees) :
    c.freeCount = (List.range c.layout.slots).countP fun slot => decide (c.Vacant slot) := by
  have hsum := List.length_eq_countP_add_countP (fun slot => decide (c.Vacant slot))
    (l := List.range c.layout.slots)
  rw [List.length_range] at hsum
  have hheld : c.heldCount = (List.range c.layout.slots).countP
      fun slot => ¬ decide (c.Vacant slot) = true := by
    unfold heldCount
    simp
  rw [freeCount, hc.storedCount_eq]
  omega

theorem storedCount_add_freeCount (c : Configuration) :
    c.storedCount + c.freeCount = c.layout.slots := by
  have hle : c.storedCount ≤ c.layout.slots := by
    have := List.countP_le_length (p := (· != 0)) (l := c.index.toList)
    rwa [Vector.length_toList] at this
  rw [freeCount]
  omega

end RailNode.Configuration
