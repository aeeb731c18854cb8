import RailNode.Proofs.Configuration.Setters

/-
  What the operations on the event table do to the bytes of each record. Every operation succeeds
  on a slot of the table, writes inside the record of that slot, and leaves the other records.
-/
namespace RailNode.Configuration

/-! ## Single writes -/

/-- A write inside a record. -/
theorem recordByte_write (c : Configuration) {slot k : Nat} (hs : slot < c.layout.slots)
    (hk : k < c.layout.recordSize) (v : UInt8) {slot' i : Nat} (hi : i < c.layout.recordSize) :
    (c.write (c.layout.recordAddress slot + k) v).recordByte slot' i =
      if slot' = slot ∧ i = k then v else c.recordByte slot' i := by
  have hcap := c.layout_fits.lt_capacity_of_inEvents (Layout.inEvents_record hs hk)
  unfold recordByte write
  rw [Store.read_write v hcap]
  by_cases h : slot' = slot
  · subst h
    simp only [Nat.add_left_cancel_iff, true_and]
  · rw [if_neg (c.layout.record_byte_ne hi hk h), if_neg (fun hc => h hc.1)]

theorem variableAddress_eq (c : Configuration) {slot index : Nat} (hs : slot < c.layout.slots)
    (h1 : 1 ≤ index) (h2 : index ≤ c.layout.eventVariables) :
    c.variableAddress slot index =
      .ok (c.layout.recordAddress slot + (Layout.recordHeaderSize + (index - 1))) := by
  rw [variableAddress, if_neg (by omega), if_neg (by omega),
    Layout.eventVariableAddress_eq _ _ h1]

theorem eventVariable_eq (c : Configuration) {slot index : Nat} (hs : slot < c.layout.slots)
    (h1 : 1 ≤ index) (h2 : index ≤ c.layout.eventVariables) :
    c.eventVariable slot index =
      .ok (c.recordByte slot (Layout.recordHeaderSize + (index - 1))) := by
  rw [eventVariable, c.variableAddress_eq hs h1 h2]
  rfl

theorem eventVariable_eq_ok {c : Configuration} {slot index : Nat} {v : UInt8}
    (h : c.eventVariable slot index = .ok v) :
    slot < c.layout.slots ∧ 1 ≤ index ∧ index ≤ c.layout.eventVariables := by
  unfold eventVariable variableAddress at h
  split at h
  · contradiction
  · split at h
    · contradiction
    · omega

theorem setEventVariable_eq (c : Configuration) {slot index : Nat} (hs : slot < c.layout.slots)
    (h1 : 1 ≤ index) (h2 : index ≤ c.layout.eventVariables) (v : UInt8) :
    c.setEventVariable slot index v =
      .ok (c.write (c.layout.recordAddress slot + (Layout.recordHeaderSize + (index - 1))) v) := by
  rw [setEventVariable, c.variableAddress_eq hs h1 h2]
  rfl

theorem setEventVariable_eq_ok {c d : Configuration} {slot index : Nat} {v : UInt8}
    (h : c.setEventVariable slot index v = .ok d) :
    slot < c.layout.slots ∧ 1 ≤ index ∧ index ≤ c.layout.eventVariables := by
  unfold setEventVariable variableAddress at h
  split at h
  · contradiction
  · split at h
    · contradiction
    · omega

/-- A variable that has been set is read back. -/
theorem eventVariable_setEventVariable {c d : Configuration} {slot index : Nat} {v : UInt8}
    (h : c.setEventVariable slot index v = .ok d) : d.eventVariable slot index = .ok v := by
  obtain ⟨hs, h1, h2⟩ := setEventVariable_eq_ok h
  have hk := Layout.eventVariable_offset_lt h1 h2
  rw [c.setEventVariable_eq hs h1 h2] at h
  obtain rfl := Except.ok.inj h
  refine (eventVariable_eq (c.write _ v) hs h1 h2).trans ?_
  rw [c.recordByte_write hs hk v hk, if_pos ⟨rfl, rfl⟩]

theorem changesOnly_setEventVariable {c d : Configuration} {slot index : Nat} {v : UInt8}
    (h : c.setEventVariable slot index v = .ok d) : ChangesOnly [.records] c d := by
  obtain ⟨hs, h1, h2⟩ := setEventVariable_eq_ok h
  rw [c.setEventVariable_eq hs h1 h2] at h
  rw [← Except.ok.inj h]
  exact changesOnly_write (List.mem_singleton_self _) (p := .records)
    (Layout.inEvents_record hs (Layout.eventVariable_offset_lt h1 h2)) v

/-! ## Erasing a record -/

theorem changesOnly_eraseRecord (c : Configuration) {slot : Nat} (hs : slot < c.layout.slots) :
    ChangesOnly [.records] c (c.eraseRecord slot) :=
  changesOnly_foldl_write (List.mem_singleton_self _) (p := .records)
    (fun _ hi => Layout.inEvents_record hs (List.mem_range.1 hi)) Store.erased

theorem recordByte_eraseRecord (c : Configuration) {slot : Nat} (hs : slot < c.layout.slots)
    {slot' i : Nat} (hi : i < c.layout.recordSize) :
    (c.eraseRecord slot).recordByte slot' i =
      if slot' = slot then Store.erased else c.recordByte slot' i := by
  have hcap : ∀ k ∈ List.range c.layout.recordSize,
      c.layout.recordAddress slot + k < c.store.capacity := fun k hk =>
    c.layout_fits.lt_capacity_of_inEvents (Layout.inEvents_record hs (List.mem_range.1 hk))
  rw [recordByte, (c.changesOnly_eraseRecord hs).layout, eraseRecord, read_foldl_write hcap]
  by_cases h : slot' = slot
  · subst h
    rw [if_pos ⟨i, List.mem_range.2 hi, rfl⟩, if_pos rfl]
  · rw [if_neg, if_neg h, recordByte]
    rintro ⟨k, hk, he⟩
    exact c.layout.record_byte_ne hi (List.mem_range.1 hk) h he.symm

/-! ## Filing an event -/

/-- The record of a slot with an event and all its variables 0. The index is left as it is. -/
def fileEvent (slot : Nat) (e : EventId) (c : Configuration) : Configuration :=
  (List.range' 1 c.layout.eventVariables).foldl
    (fun d index =>
      d.write (c.layout.recordAddress slot + (Layout.recordHeaderSize + (index - 1))) 0)
    (c.writeBytes (c.layout.recordAddress slot) e.bytes)

theorem foldlM_setEventVariable {slot : Nat} (v : UInt8) (is : List Nat) (c : Configuration)
    (hs : slot < c.layout.slots) (his : ∀ i ∈ is, 1 ≤ i ∧ i ≤ c.layout.eventVariables) :
    is.foldlM (fun d index => d.setEventVariable slot index v) c =
      .ok (is.foldl (fun d index =>
        d.write (c.layout.recordAddress slot + (Layout.recordHeaderSize + (index - 1))) v) c) := by
  induction is generalizing c with
  | nil => rfl
  | cons i is ih =>
    obtain ⟨h1, h2⟩ := his i List.mem_cons_self
    rw [List.foldlM_cons, c.setEventVariable_eq hs h1 h2]
    exact ih _ hs fun j hj => his j (List.mem_cons_of_mem i hj)

theorem insertEvent_eq (c : Configuration) {slot : Nat} (hs : slot < c.layout.slots)
    (e : EventId) : c.insertEvent slot e = .ok ((c.fileEvent slot e).reindex slot) := by
  have hvars := foldlM_setEventVariable 0 (List.range' 1 c.layout.eventVariables)
    (c.writeBytes (c.layout.recordAddress slot) e.bytes) hs fun i hi => by
      obtain ⟨h1, h2⟩ := List.mem_range'_1.1 hi
      exact ⟨h1, by change i ≤ c.layout.eventVariables; omega⟩
  have hbind : c.insertEvent slot e =
      ((List.range' 1 c.layout.eventVariables).foldlM
        (fun d index => d.setEventVariable slot index 0)
        (c.writeBytes (c.layout.recordAddress slot) e.bytes) >>= fun d =>
          Except.ok (d.reindex slot)) := by
    rw [insertEvent, writeEvent, if_pos hs]
    rfl
  rw [hbind, hvars]
  rfl

/-- A write of the header stays inside its record. -/
theorem changesOnly_writeHeader (c : Configuration) {slot : Nat} (hs : slot < c.layout.slots)
    (e : EventId) :
    ChangesOnly [.records] c (c.writeBytes (c.layout.recordAddress slot) e.bytes) where
  layout := rfl
  read a ha := by
    have hrec := c.layout_fits.record_le_capacity hs
    have h4 : 4 ≤ c.layout.recordSize := c.layout.recordHeaderSize_le_recordSize
    refine Store.read_writeBytes_of_outside (by rw [EventId.length_bytes]; omega) ?_
    rw [EventId.length_bytes]
    rcases Nat.lt_or_ge a (c.layout.recordAddress slot) with h | h
    · exact Or.inl h
    · right
      refine Nat.le_of_not_lt fun hlt => ha .records (List.mem_singleton_self _) ?_
      have hmem := Layout.inEvents_record (l := c.layout) hs
        (a := a - c.layout.recordAddress slot) (by omega)
      rwa [Nat.add_sub_cancel' h] at hmem
  mode _ := rfl
  nodeNumber _ := rfl
  address _ := rfl
  flags _ := rfl
  learning _ := rfl
  index _ := rfl

theorem changesOnly_fileEvent (c : Configuration) {slot : Nat} (hs : slot < c.layout.slots)
    (e : EventId) : ChangesOnly [.records] c (c.fileEvent slot e) := by
  refine (c.changesOnly_writeHeader hs e).trans
    (changesOnly_foldl_write (List.mem_singleton_self _) (p := .records) (fun i hi => ?_) 0)
  obtain ⟨h1, h2⟩ := List.mem_range'_1.1 hi
  have h3 : i ≤ c.layout.eventVariables := by omega
  exact Layout.inEvents_record hs (Layout.eventVariable_offset_lt h1 h3)

/-- A byte of the record of a slot after a write of a header. -/
theorem recordByte_writeHeader (c : Configuration) {slot : Nat} (hs : slot < c.layout.slots)
    (e : EventId) {slot' i : Nat} (hi : i < c.layout.recordSize) :
    (c.writeBytes (c.layout.recordAddress slot) e.bytes).recordByte slot' i =
      if slot' = slot ∧ i < Layout.recordHeaderSize then e.bytes.getD i 0
      else c.recordByte slot' i := by
  have hrec := c.layout_fits.record_le_capacity hs
  have h4 : 4 ≤ c.layout.recordSize := c.layout.recordHeaderSize_le_recordSize
  have hcap : c.layout.recordAddress slot + e.bytes.length ≤ c.store.capacity := by
    rw [EventId.length_bytes]; omega
  unfold recordByte writeBytes
  by_cases h : slot' = slot ∧ i < Layout.recordHeaderSize
  · obtain ⟨rfl, h4i⟩ := h
    rw [if_pos ⟨rfl, h4i⟩, Store.read_writeBytes_inside hcap (k := i) h4i,
      List.getD_eq_getElem?_getD, List.getElem?_eq_getElem h4i, Option.getD_some]
  · rw [if_neg h]
    refine Store.read_writeBytes_of_outside hcap ?_
    rw [EventId.length_bytes]
    by_cases hslot : slot' = slot
    · subst hslot
      have : ¬ i < 4 := fun h4i => h ⟨rfl, h4i⟩
      dsimp only
      omega
    · rcases Nat.lt_or_gt_of_ne hslot with hlt | hlt
      · have := c.layout.recordAddress_add_le_of_lt hlt
        exact Or.inl (by dsimp only; omega)
      · have := c.layout.recordAddress_add_le_of_lt hlt
        exact Or.inr (by dsimp only; omega)

theorem recordByte_fileEvent (c : Configuration) {slot : Nat} (hs : slot < c.layout.slots)
    (e : EventId) {slot' i : Nat} (hi : i < c.layout.recordSize) :
    (c.fileEvent slot e).recordByte slot' i =
      if slot' = slot then e.bytes.getD i 0 else c.recordByte slot' i := by
  have hcap : ∀ k ∈ List.range' 1 c.layout.eventVariables,
      c.layout.recordAddress slot + (Layout.recordHeaderSize + (k - 1)) <
        (c.writeBytes (c.layout.recordAddress slot) e.bytes).store.capacity := by
    intro k hk
    obtain ⟨h1, h2⟩ := List.mem_range'_1.1 hk
    rw [writeBytes, Store.capacity_writeBytes]
    exact c.layout_fits.lt_capacity_of_inEvents
      (Layout.inEvents_record hs (Layout.eventVariable_offset_lt h1 (by omega)))
  have hheader : (c.writeBytes (c.layout.recordAddress slot) e.bytes).recordByte slot' i =
      if slot' = slot ∧ i < Layout.recordHeaderSize then e.bytes.getD i 0
      else c.recordByte slot' i :=
    c.recordByte_writeHeader hs e hi
  have hread : (c.fileEvent slot e).recordByte slot' i =
      if slot' = slot ∧ Layout.recordHeaderSize ≤ i then 0
      else (c.writeBytes (c.layout.recordAddress slot) e.bytes).recordByte slot' i := by
    unfold recordByte
    rw [(c.changesOnly_fileEvent hs e).layout, fileEvent, read_foldl_write hcap]
    simp only [Layout.exists_variable_iff hi]
    rfl
  rw [hread, hheader]
  by_cases hslot : slot' = slot
  · simp only [hslot, true_and, if_true]
    rcases Nat.lt_or_ge i Layout.recordHeaderSize with h4 | h4
    · rw [if_neg (by omega), if_pos h4]
    · have hend : e.bytes.length ≤ i := h4
      rw [if_pos h4, List.getD_eq_getElem?_getD, List.getElem?_eq_none hend, Option.getD_none]
  · simp only [hslot, false_and, if_false]

/-! ## Clearing the table -/

theorem isFree_eq_of_index {c d : Configuration} (h : d.index.toList = c.index.toList)
    (slot : Nat) : d.isFree slot = c.isFree slot := by
  have : d.index[slot]? = c.index[slot]? := by
    rw [← Vector.getElem?_toList, ← Vector.getElem?_toList, h]
  unfold isFree
  rw [this]

/-- The records of slots that the index calls occupied are erased. -/
def eraseOccupied (slots : List Nat) (c : Configuration) : Configuration :=
  slots.foldl (fun d slot => if d.isFree slot then d else d.eraseRecord slot) c

theorem clearEvents_eq (c : Configuration) :
    c.clearEvents = (c.eraseOccupied (List.range c.layout.slots)).clearIndex := rfl

theorem changesOnly_eraseOccupied (c : Configuration) {slots : List Nat}
    (h : ∀ slot ∈ slots, slot < c.layout.slots) :
    ChangesOnly [.records] c (c.eraseOccupied slots) := by
  refine List.foldlRecOn slots _ (ChangesOnly.refl _ c) fun d hd slot hslot => ?_
  split
  · exact hd
  · exact hd.trans (d.changesOnly_eraseRecord (hd.layout ▸ h slot hslot))

theorem recordByte_eraseOccupied (c : Configuration) {slots : List Nat}
    (h : ∀ slot ∈ slots, slot < c.layout.slots) {slot i : Nat} (hi : i < c.layout.recordSize) :
    (c.eraseOccupied slots).recordByte slot i =
      if slot ∈ slots ∧ c.isFree slot = false then Store.erased else c.recordByte slot i := by
  induction slots generalizing c with
  | nil => simp [eraseOccupied]
  | cons s slots ih =>
    have hs : s < c.layout.slots := h s List.mem_cons_self
    have hrest : ∀ slot ∈ slots, slot < c.layout.slots := fun slot hm =>
      h slot (List.mem_cons_of_mem s hm)
    cases hfree : c.isFree s with
    | true =>
      have hstep : c.eraseOccupied (s :: slots) = c.eraseOccupied slots := by
        simp [eraseOccupied, hfree]
      rw [hstep, ih c hrest hi]
      grind
    | false =>
      have hch := c.changesOnly_eraseRecord hs
      have hstep : c.eraseOccupied (s :: slots) = (c.eraseRecord s).eraseOccupied slots := by
        simp [eraseOccupied, hfree]
      rw [hstep, ih _ (by rw [hch.layout]; exact hrest) (by rw [hch.layout]; exact hi),
        isFree_eq_of_index (hch.index (by decide)), c.recordByte_eraseRecord hs hi]
      grind

end RailNode.Configuration
