import Mathlib.Data.Finmap
import Mathlib.Tactic.SplitIfs
import RailNode.Proofs.Configuration.Start

/-
  The event table as a finite map from events to the values of their variables. While no event is
  stored twice (`Unique`), every operation on the records is the operation on the map that one
  expects, and the map has as many entries as there are occupied slots.
-/
namespace RailNode

/-- The identity whose record looks like an erased one. -/
def EventId.erased : EventId := ⟨0xffff, 0xffff⟩

/-- Learned events with the values of their variables. -/
abbrev EventTable := Finmap fun _ : EventId => List UInt8

theorem EventId.bytes_eq_replicate_iff {e : EventId} :
    e.bytes = List.replicate Layout.recordHeaderSize Store.erased ↔ e = erased := by
  constructor
  · intro h
    rw [← e.ofBytes_bytes, h]
    rfl
  · rintro rfl
    rfl

theorem EventId.bytes_ofBytes {bs : List UInt8} (h : bs.length = 4) : (ofBytes bs).bytes = bs := by
  match bs, h with
  | [b₀, b₁, b₂, b₃], _ =>
    show Word.bytes (Word.ofBytes [b₀, b₁]) ++ Word.bytes (Word.ofBytes [b₂, b₃]) = _
    rw [Word.ofBytes_pair, Word.ofBytes_pair, Word.bytes_join, Word.bytes_join]
    rfl

namespace Configuration

variable {c d : Configuration}

/-- In a vacant slot stands the erased event, and nowhere else. -/
theorem vacant_iff_event {slot : Nat} (hs : slot < c.layout.slots) :
    c.Vacant slot ↔ c.event slot = .ok .erased := by
  rw [← recordHeader_eq_replicate_iff, c.event_eq hs, Except.ok.injEq]
  constructor
  · intro h
    rw [h]
    rfl
  · intro h
    rw [← EventId.bytes_ofBytes (c.length_recordHeader slot), h]
    rfl

/-! ## The map -/

/-- The entry that the record of a slot makes. -/
def entryAt (c : Configuration) (slot : Nat) : Option (Σ _ : EventId, List UInt8) :=
  (c.record? slot).map fun e => ⟨e, c.variableBytes slot⟩

/-- The map that the records make. If an event is stored twice, the lower slot counts. -/
def table (c : Configuration) : EventTable :=
  ((List.range c.layout.slots).filterMap c.entryAt).toFinmap

/-- No event is stored twice. -/
def Unique (c : Configuration) : Prop :=
  ∀ slot < c.layout.slots, ∀ slot' < c.layout.slots, ∀ e,
    c.record? slot = some e → c.record? slot' = some e → slot = slot'

theorem Unique.nodupKeys (hu : c.Unique) :
    ((List.range c.layout.slots).filterMap c.entryAt).NodupKeys := by
  rw [List.nodupKeys_iff_pairwise, List.pairwise_filterMap]
  refine (List.nodup_range (n := c.layout.slots)).imp_of_mem fun {i j} hi hj hne a ha b hb hab => ?_
  obtain ⟨e, he, rfl⟩ := Option.map_eq_some_iff.1 ha
  obtain ⟨e', he', rfl⟩ := Option.map_eq_some_iff.1 hb
  have heq : e = e' := hab
  exact hne (hu i (List.mem_range.1 hi) j (List.mem_range.1 hj) e he (heq ▸ he'))

/-- What the map holds for an event is what the slot holds in which it is stored. -/
theorem Unique.lookup_table (hu : c.Unique) {e : EventId} {vs : List UInt8} :
    c.table.lookup e = some vs ↔
      ∃ slot < c.layout.slots, c.record? slot = some e ∧ c.variableBytes slot = vs := by
  rw [table, Finmap.dlookup_list_toFinmap, ← Option.mem_def, List.mem_dlookup_iff hu.nodupKeys,
    List.mem_filterMap]
  constructor
  · rintro ⟨slot, hs, h⟩
    obtain ⟨e', he', heq⟩ := Option.map_eq_some_iff.1 h
    cases heq
    exact ⟨slot, List.mem_range.1 hs, he', rfl⟩
  · rintro ⟨slot, hs, he, rfl⟩
    exact ⟨slot, List.mem_range.2 hs, by rw [entryAt, he, Option.map_some]⟩

theorem mem_table {e : EventId} :
    e ∈ c.table ↔ ∃ slot < c.layout.slots, c.record? slot = some e := by
  rw [table, Finmap.mem_list_toFinmap]
  constructor
  · rintro ⟨vs, h⟩
    obtain ⟨slot, hs, h⟩ := List.mem_filterMap.1 h
    obtain ⟨e', he', heq⟩ := Option.map_eq_some_iff.1 h
    cases heq
    exact ⟨slot, List.mem_range.1 hs, he'⟩
  · rintro ⟨slot, hs, he⟩
    exact ⟨c.variableBytes slot,
      List.mem_filterMap.2 ⟨slot, List.mem_range.2 hs, by rw [entryAt, he, Option.map_some]⟩⟩

theorem notMem_table {e : EventId} :
    e ∉ c.table ↔ ∀ slot < c.layout.slots, c.record? slot ≠ some e := by
  rw [mem_table]
  push Not
  rfl

/-- Every event has the number of variables that the layout asks for. -/
theorem Unique.length_of_lookup_table (hu : c.Unique) {e : EventId} {vs : List UInt8}
    (h : c.table.lookup e = some vs) : vs.length = c.layout.eventVariables := by
  obtain ⟨slot, _, _, rfl⟩ := hu.lookup_table.1 h
  exact c.length_variables slot

theorem isSome_entryAt_iff {slot : Nat} (hs : slot < c.layout.slots) :
    (c.entryAt slot).isSome = true ↔ ¬ c.Vacant slot := by
  rw [entryAt, Option.isSome_map, Option.isSome_iff_ne_none, Ne, record?_eq_none_iff hs]

/-- The map has as many entries as there are slots with an event. -/
theorem Unique.card_keys_table (hu : c.Unique) : c.table.keys.card = c.heldCount := by
  have hkeys : c.table.keys = ((List.range c.layout.slots).filterMap c.entryAt).keys.toFinset := by
    ext e
    rw [Finmap.mem_keys, table, Finmap.mem_list_toFinmap, List.mem_toFinset, List.mem_keys]
  rw [hkeys, List.toFinset_card_of_nodup hu.nodupKeys, List.keys, List.length_map,
    List.length_filterMap_eq_countP, heldCount]
  refine List.countP_congr fun slot hs => ?_
  rw [isSome_entryAt_iff (List.mem_range.1 hs), decide_eq_true_eq]

/-- There is room for another event as long as a slot is vacant. -/
theorem heldCount_lt_iff (c : Configuration) :
    c.heldCount < c.layout.slots ↔ ∃ slot < c.layout.slots, c.Vacant slot := by
  have hle := List.countP_le_length (p := fun slot => decide (¬ c.Vacant slot))
    (l := List.range c.layout.slots)
  have hfull := List.countP_eq_length (p := fun slot => decide (¬ c.Vacant slot))
    (l := List.range c.layout.slots)
  rw [List.length_range] at hle hfull
  rw [heldCount, Nat.lt_iff_le_and_ne, and_iff_right hle, Ne, hfull]
  simp

/-! ## Operations that leave the table -/

theorem unique_congr (hl : d.layout = c.layout)
    (hr : ∀ slot < c.layout.slots, d.record? slot = c.record? slot) (hu : c.Unique) :
    d.Unique := by
  intro slot hs slot' hs' e h h'
  rw [hl] at hs hs'
  rw [hr slot hs] at h
  rw [hr slot' hs'] at h'
  exact hu slot hs slot' hs' e h h'

theorem table_congr (hl : d.layout = c.layout)
    (hr : ∀ slot < c.layout.slots, d.record? slot = c.record? slot)
    (hv : ∀ slot < c.layout.slots, d.variableBytes slot = c.variableBytes slot) :
    d.table = c.table := by
  unfold table
  rw [hl]
  refine congrArg List.toFinmap (List.filterMap_congr fun slot hs => ?_)
  have hs := List.mem_range.1 hs
  rw [entryAt, entryAt, hr slot hs, hv slot hs]

section Frame

variable {A : List Part}

theorem ChangesOnly.unique (h : ChangesOnly A c d) (hA : Part.records ∉ A) (hu : c.Unique) :
    d.Unique :=
  unique_congr h.layout (fun _ hs => h.record? hA hs) hu

end Frame

/-! ## Operations on one slot -/

/-- The second configuration differs from the first at most in the record of one slot. -/
structure SameElsewhere (slot : Nat) (c d : Configuration) : Prop where
  layout : d.layout = c.layout
  record? : ∀ j < c.layout.slots, j ≠ slot → d.record? j = c.record? j
  values : ∀ j < c.layout.slots, j ≠ slot → d.variableBytes j = c.variableBytes j

namespace SameElsewhere

variable {slot : Nat} {e : EventId}

/-- An event that the slot holds neither before nor after has the same entry in both maps. -/
theorem lookup_table_of_ne (h : SameElsewhere slot c d) (hu : c.Unique) (hud : d.Unique)
    (hc : c.record? slot ≠ some e) (hd : d.record? slot ≠ some e) :
    d.table.lookup e = c.table.lookup e := by
  refine Option.ext fun vs => ?_
  rw [hud.lookup_table, hu.lookup_table, h.layout]
  refine exists_congr fun j => and_congr_right fun hj => ?_
  by_cases hjs : j = slot
  · rw [hjs]
    exact iff_of_false (fun hje => hd hje.1) (fun hje => hc hje.1)
  · rw [h.record? j hj hjs, h.values j hj hjs]

/-- An event that is put where it is already, or where nothing is, while no other slot holds it,
    is not stored twice. -/
theorem unique_of_put (h : SameElsewhere slot c d) (hs : slot < c.layout.slots) (hu : c.Unique)
    (hd : d.record? slot = some e)
    (hc : ∀ j < c.layout.slots, j ≠ slot → c.record? j ≠ some e) : d.Unique := by
  have hrec : ∀ j < c.layout.slots, j ≠ slot → ∀ x, d.record? j = some x →
      c.record? j = some x ∧ x ≠ e := by
    intro j hj hne x hx
    rw [h.record? j hj hne] at hx
    exact ⟨hx, fun he => hc j hj hne (he ▸ hx)⟩
  intro j hj j' hj' x hx hx'
  rw [h.layout] at hj hj'
  by_cases hjs : j = slot <;> by_cases hjs' : j' = slot
  · rw [hjs, hjs']
  · subst hjs
    rw [hd] at hx
    exact absurd (Option.some.inj hx).symm (hrec j' hj' hjs' x hx').2
  · subst hjs'
    rw [hd] at hx'
    exact absurd (Option.some.inj hx').symm (hrec j hj hjs x hx).2
  · exact hu j hj j' hj' x (hrec j hj hjs x hx).1 (hrec j' hj' hjs' x hx').1

theorem table_of_put (h : SameElsewhere slot c d) (hs : slot < c.layout.slots) (hu : c.Unique)
    (hd : d.record? slot = some e)
    (hc : ∀ j < c.layout.slots, j ≠ slot → c.record? j ≠ some e)
    (hslot : c.record? slot = some e ∨ c.record? slot = none) :
    d.table = c.table.insert e (d.variableBytes slot) := by
  have hud := h.unique_of_put hs hu hd hc
  have hsd : slot < d.layout.slots := by rw [h.layout]; exact hs
  refine Finmap.ext_lookup fun x => ?_
  by_cases hx : x = e
  · subst hx
    rw [Finmap.lookup_insert, hud.lookup_table]
    exact ⟨slot, hsd, hd, rfl⟩
  · have hne : some e ≠ some x := fun heq => hx (Option.some.inj heq).symm
    rw [Finmap.lookup_insert_of_ne _ hx]
    refine h.lookup_table_of_ne hu hud ?_ (by rw [hd]; exact hne)
    rcases hslot with hslot | hslot
    · rw [hslot]
      exact hne
    · rw [hslot]
      exact (Option.some_ne_none x).symm

/-- An occupied slot that is made vacant takes its event out of the map. -/
theorem unique_of_drop (h : SameElsewhere slot c d) (hu : c.Unique)
    (hd : d.record? slot = none) : d.Unique := by
  have hrec : ∀ j < c.layout.slots, ∀ x, d.record? j = some x → c.record? j = some x := by
    intro j hj x hx
    by_cases hjs : j = slot
    · rw [hjs, hd] at hx
      contradiction
    · rwa [h.record? j hj hjs] at hx
  intro j hj j' hj' x hx hx'
  rw [h.layout] at hj hj'
  exact hu j hj j' hj' x (hrec j hj x hx) (hrec j' hj' x hx')

theorem table_of_drop (h : SameElsewhere slot c d) (hs : slot < c.layout.slots) (hu : c.Unique)
    (hd : d.record? slot = none) (hc : c.record? slot = some e) :
    d.table = c.table.erase e := by
  have hud := h.unique_of_drop hu hd
  refine Finmap.ext_lookup fun x => ?_
  by_cases hx : x = e
  · subst hx
    rw [Finmap.lookup_erase, Finmap.lookup_eq_none, notMem_table]
    intro j hj hjx
    rw [h.layout] at hj
    by_cases hjs : j = slot
    · rw [hjs, hd] at hjx
      contradiction
    · rw [h.record? j hj hjs] at hjx
      exact hjs (hu j hj slot hs x hjx hc)
  · have hne : some e ≠ some x := fun heq => hx (Option.some.inj heq).symm
    rw [Finmap.lookup_erase_ne hx]
    refine h.lookup_table_of_ne hu hud (by rw [hc]; exact hne) ?_
    rw [hd]
    exact (Option.some_ne_none x).symm

end SameElsewhere

/-! ## The operations of the table -/

theorem variables_setEventVariable {slot index : Nat} {v : UInt8}
    (h : c.setEventVariable slot index v = .ok d) (slot' : Nat) :
    d.variableBytes slot' =
      if slot' = slot then (c.variableBytes slot).set (index - 1) v else c.variableBytes slot' := by
  obtain ⟨hs, h1, h2⟩ := setEventVariable_eq_ok h
  have hl := (changesOnly_setEventVariable h).layout
  have hk := Layout.eventVariable_offset_lt h1 h2
  rw [c.setEventVariable_eq hs h1 h2] at h
  have hbyte : ∀ i < c.layout.eventVariables, d.recordByte slot' (Layout.recordHeaderSize + i) =
      if slot' = slot ∧ i = index - 1 then v
      else c.recordByte slot' (Layout.recordHeaderSize + i) := by
    intro i hi
    have hi' : Layout.recordHeaderSize + i < c.layout.recordSize := Nat.add_lt_add_left hi _
    rw [← Except.ok.inj h, c.recordByte_write hs hk v hi']
    simp only [Nat.add_left_cancel_iff]
  apply List.ext_getElem
  · split <;> simp [hl]
  · intro i hi _
    have hi : i < c.layout.eventVariables := by
      rwa [length_variables, hl] at hi
    split
    · rename_i hslot
      subst hslot
      rw [List.getElem_set]
      simp only [variableBytes, List.getElem_map, List.getElem_range, hbyte i hi, true_and]
      exact if_congr eq_comm rfl rfl
    · rename_i hslot
      simp only [variableBytes, List.getElem_map, List.getElem_range, hbyte i hi, hslot, false_and,
        if_false]

theorem sameElsewhere_setEventVariable {slot index : Nat} {v : UInt8}
    (h : c.setEventVariable slot index v = .ok d) : SameElsewhere slot c d where
  layout := (changesOnly_setEventVariable h).layout
  record? _ hj _ := record?_setEventVariable h hj
  values j _ hne := by rw [variables_setEventVariable h, if_neg hne]

theorem sameElsewhere_fileEvent {slot : Nat} (hs : slot < c.layout.slots) (e : EventId) :
    SameElsewhere slot c ((c.fileEvent slot e).reindex slot) where
  layout := (c.changesOnly_fileEvent hs e).layout
  record? _ hj hne := record?_fileEvent_of_ne hs e hj hne
  values _ _ hne := variables_congr (c.changesOnly_fileEvent hs e).layout fun _ hi => by
    show (c.fileEvent slot e).recordByte _ _ = _
    rw [c.recordByte_fileEvent hs e hi, if_neg hne]

theorem recordHeader_fileEvent {slot : Nat} (hs : slot < c.layout.slots) (e : EventId) :
    (c.fileEvent slot e).recordHeader slot = e.bytes := by
  have h4 := c.layout.recordHeaderSize_le_recordSize
  apply List.ext_getElem
  · simp [Layout.recordHeaderSize]
  · intro i hi hi'
    rw [length_recordHeader] at hi
    simp only [recordHeader, List.getElem_map, List.getElem_range]
    rw [c.recordByte_fileEvent hs e (Nat.lt_of_lt_of_le hi h4), if_pos rfl,
      List.getD_eq_getElem?_getD, List.getElem?_eq_getElem hi', Option.getD_some]

theorem record?_fileEvent {slot : Nat} (hs : slot < c.layout.slots) (e : EventId) :
    (c.fileEvent slot e).record? slot = if e = .erased then none else some e := by
  have hs' : slot < (c.fileEvent slot e).layout.slots := by
    rw [(c.changesOnly_fileEvent hs e).layout]; exact hs
  rw [record?_eq _ hs', recordHeader_fileEvent hs, e.ofBytes_bytes]
  exact if_congr EventId.bytes_eq_replicate_iff rfl rfl

/-- The erased event is never found: its record looks like that of a free slot. -/
theorem IndexAgrees.find_erased (hc : c.IndexAgrees) : c.find .erased = .error .notFound :=
  hc.find_eq_error_iff.2 fun _ hs hheld => hheld.1 ((vacant_iff_event hs).2 hheld.2)

/-- An event that was not found before is found in the slot in which it is filed. -/
theorem IndexAgrees.find_insertEvent (hc : c.IndexAgrees) {slot : Nat} {e : EventId}
    (hne : e ≠ .erased) (hnew : c.find e = .error .notFound) (h : c.insertEvent slot e = .ok d) :
    d.find e = .ok slot := by
  have hs := slot_lt_of_insertEvent h
  have hl := (changesOnly_insertEvent h).layout
  have hd := hc.insertEvent h
  rw [c.insertEvent_eq hs] at h
  obtain rfl := Except.ok.inj h
  refine hd.find_eq_ok_iff_record?.2 ⟨hl ▸ hs, ?_, fun j hj hje => ?_⟩
  · rw [record?_reindex, record?_fileEvent hs, if_neg hne]
  · have hjs := Nat.lt_trans hj hs
    rw [record?_reindex, record?_fileEvent_of_ne hs e hjs (Nat.ne_of_lt hj)] at hje
    exact hc.find_eq_error_iff.1 hnew j hjs ((record?_eq_some_iff hjs).1 hje)

theorem variables_fileEvent {slot : Nat} (hs : slot < c.layout.slots) (e : EventId) :
    (c.fileEvent slot e).variableBytes slot = List.replicate c.layout.eventVariables 0 := by
  unfold variableBytes
  rw [(c.changesOnly_fileEvent hs e).layout]
  refine List.eq_replicate_iff.2 ⟨by simp, fun b hb => ?_⟩
  obtain ⟨i, hi, rfl⟩ := List.mem_map.1 hb
  have hi := List.mem_range.1 hi
  have hlen : e.bytes.length ≤ Layout.recordHeaderSize + i := Nat.le_add_right 4 i
  rw [c.recordByte_fileEvent hs e (Nat.add_lt_add_left hi _), if_pos rfl,
    List.getD_eq_getElem?_getD, List.getElem?_eq_none hlen, Option.getD_none]

theorem sameElsewhere_eraseRecord {slot : Nat} (hs : slot < c.layout.slots) :
    SameElsewhere slot c ((c.eraseRecord slot).reindex slot) where
  layout := (c.changesOnly_eraseRecord hs).layout
  record? _ hj hne := record?_eraseRecord_of_ne hs hj hne
  values _ _ hne := variables_congr (c.changesOnly_eraseRecord hs).layout fun _ hi => by
    show (c.eraseRecord slot).recordByte _ _ = _
    rw [c.recordByte_eraseRecord hs hi, if_neg hne]

theorem record?_eraseRecord {slot : Nat} (hs : slot < c.layout.slots) :
    (c.eraseRecord slot).record? slot = none := by
  have h4 := c.layout.recordHeaderSize_le_recordSize
  have hs' : slot < (c.eraseRecord slot).layout.slots := by
    rw [(c.changesOnly_eraseRecord hs).layout]; exact hs
  rw [record?_eq_none_iff hs']
  intro i hi
  rw [c.recordByte_eraseRecord hs (Nat.lt_of_lt_of_le hi h4), if_pos rfl]

/-- Setting a variable of an event sets it in the map. -/
theorem Unique.table_setEventVariable (hu : c.Unique) {slot index : Nat} {v : UInt8} {e : EventId}
    (h : c.setEventVariable slot index v = .ok d) (he : c.record? slot = some e) :
    d.table = c.table.insert e ((c.variableBytes slot).set (index - 1) v) := by
  have hs := (setEventVariable_eq_ok h).1
  have hput := (sameElsewhere_setEventVariable h).table_of_put hs hu
    (by rw [record?_setEventVariable h hs, he])
    (fun j hj hne hje => hne (hu j hj slot hs e hje he)) (Or.inl he)
  rw [hput, variables_setEventVariable h, if_pos rfl]

/-- Filing an event that is nowhere in a vacant slot adds it to the map, with all variables 0. -/
theorem Unique.table_insertEvent (hu : c.Unique) {slot : Nat} {e : EventId}
    (h : c.insertEvent slot e = .ok d) (hv : c.record? slot = none) (hne : e ≠ .erased)
    (hnew : e ∉ c.table) :
    d.table = c.table.insert e (List.replicate c.layout.eventVariables 0) := by
  have hs := slot_lt_of_insertEvent h
  rw [c.insertEvent_eq hs] at h
  rw [← Except.ok.inj h]
  have hput := (sameElsewhere_fileEvent hs e).table_of_put hs hu
    (by rw [record?_reindex, record?_fileEvent hs, if_neg hne])
    (fun j hj _ => notMem_table.1 hnew j hj) (Or.inr hv)
  exact hput.trans (congrArg (c.table.insert e) (variables_fileEvent hs e))

/-- Taking the event of a slot out of the table takes it out of the map. -/
theorem Unique.table_removeEvent (hu : c.Unique) {slot : Nat} {e : EventId}
    (h : c.removeEvent slot = .ok d) (he : c.record? slot = some e) :
    d.table = c.table.erase e := by
  have hs := slot_lt_of_removeEvent h
  rw [c.removeEvent_eq hs] at h
  rw [← Except.ok.inj h]
  exact (sameElsewhere_eraseRecord hs).table_of_drop hs hu
    (by rw [record?_reindex, record?_eraseRecord hs]) he

/-- A table without records is the empty map. -/
theorem table_of_forall_vacant (h : ∀ slot < c.layout.slots, c.Vacant slot) : c.table = ∅ := by
  have hnil : (List.range c.layout.slots).filterMap c.entryAt = [] := by
    refine List.filterMap_eq_nil_iff.2 fun slot hs => ?_
    have hs := List.mem_range.1 hs
    rw [entryAt, (record?_eq_none_iff hs).2 (h slot hs), Option.map_none]
  rw [table, hnil, Finmap.toFinmap_nil]

theorem unique_of_forall_vacant (h : ∀ slot < c.layout.slots, c.Vacant slot) : c.Unique := by
  intro slot hs _ _ e he _
  rw [(record?_eq_none_iff hs).2 (h slot hs)] at he
  contradiction

theorem IndexAgrees.vacant_clearEvents (hc : c.IndexAgrees) :
    ∀ slot < c.clearEvents.layout.slots, c.clearEvents.Vacant slot := by
  intro slot hs
  rw [c.changesOnly_clearEvents.layout] at hs
  exact hc.vacant_eraseOccupied hs

theorem vacant_factoryReset (c : Configuration) :
    ∀ slot < c.factoryReset.layout.slots, c.factoryReset.Vacant slot := by
  have h4 := c.layout.recordHeaderSize_le_recordSize
  intro slot hs i hi
  rw [c.layout_factoryReset] at hs
  exact c.recordByte_factoryReset hs (Nat.lt_of_lt_of_le hi h4)

/-! ## Edits -/

/-- No edit stores an event twice, since one is inserted only where a search has not found it. -/
theorem Unique.edit {A : List Part} (hu : c.Unique) (hc : c.IndexAgrees) (h : Edit A c d) :
    d.Unique := by
  cases h with
  | mode m _ => exact (c.changesOnly_setMode m).unique (by decide) hu
  | number w _ => exact (c.changesOnly_setNodeNumber w).unique (by decide) hu
  | address a _ => exact (c.changesOnly_setAddress a).unique (by decide) hu
  | flags f _ => exact (c.changesOnly_setFlags f).unique (by decide) hu
  | learning on _ => exact (c.changesOnly_setLearning on).unique (by decide) hu
  | nodeVariable _ h => exact (changesOnly_setNodeVariable? h).unique (by decide) hu
  | eventVariable _ h =>
    exact unique_congr (changesOnly_setEventVariable h).layout
      (fun _ hs => record?_setEventVariable h hs) hu
  | @insert slot e _ _ _ hfind _ h =>
    have hs := slot_lt_of_insertEvent h
    rw [c.insertEvent_eq hs] at h
    rw [← Except.ok.inj h]
    have hput := sameElsewhere_fileEvent hs e
    by_cases he : e = .erased
    · refine hput.unique_of_drop hu ?_
      rw [record?_reindex, record?_fileEvent hs, if_pos he]
    · refine hput.unique_of_put hs hu (e := e) ?_ fun j hj _ hje => ?_
      · rw [record?_reindex, record?_fileEvent hs, if_neg he]
      · exact hc.find_eq_error_iff.1 hfind j hj ((record?_eq_some_iff hj).1 hje)
  | remove _ _ h =>
    have hs := slot_lt_of_removeEvent h
    rw [c.removeEvent_eq hs] at h
    rw [← Except.ok.inj h]
    exact (sameElsewhere_eraseRecord hs).unique_of_drop hu
      (by rw [record?_reindex, record?_eraseRecord hs])
  | clear _ _ => exact unique_of_forall_vacant hc.vacant_clearEvents

theorem Unique.edits {A : List Part} (hu : c.Unique) (hc : c.IndexAgrees) (h : Edits A c d) :
    d.Unique := by
  induction h with
  | refl => exact hu
  | tail hbefore hstep ih => exact ih.edit (Edits.indexAgrees hbefore hc) hstep

end Configuration

end RailNode
