import RailNode.Proofs.Configuration.Edits

/-
  What a node reads at start-up. The store stays as it is; mode, number, address and flags are
  those that it spells, and the index agrees with its records.
-/
namespace RailNode.Configuration

variable {c d : Configuration}

theorem layout_ofStore {l : Layout} {s : Store} (h : ofStore l s = .ok c) : c.layout = l := by
  unfold ofStore at h
  split at h
  · contradiction
  · rw [← Except.ok.inj h]

theorem store_ofStore {l : Layout} {s : Store} (h : ofStore l s = .ok c) : c.store = s := by
  unfold ofStore at h
  split at h
  · contradiction
  · rw [← Except.ok.inj h]

/-- A layout that fits a store can be put over it. -/
theorem exists_ofStore {l : Layout} {s : Store} (h : l.error? s.capacity = none) :
    ∃ c, ofStore l s = .ok c := by
  unfold ofStore
  split
  · rename_i e he
    rw [h] at he
    contradiction
  · exact ⟨_, rfl⟩

theorem store_reindexAll (c : Configuration) : c.reindexAll.store = c.store := by
  unfold reindexAll
  induction List.range c.layout.slots generalizing c with
  | nil => rfl
  | cons slot slots ih =>
    rw [List.foldl_cons, ih (c.reindex slot)]
    rfl

/-- No node starts in setup. -/
theorem startMode_ne_setup (b : UInt8) (number : UInt16) : startMode b number ≠ .setup := by
  unfold startMode
  split
  · decide
  · split <;> decide
  · decide

section Load

@[simp]
theorem store_load (c : Configuration) : c.load.store = c.store := by
  unfold load
  rw [store_reindexAll]

@[simp]
theorem layout_load (c : Configuration) : c.load.layout = c.layout := by
  unfold load
  rw [(changesOnly_reindexAll _).layout]

theorem mode_load (c : Configuration) :
    c.load.mode = startMode c.storedMode c.storedNumber := by
  unfold load
  rw [(changesOnly_reindexAll _).mode (by decide)]
  rfl

theorem nodeNumber_load (c : Configuration) : c.load.nodeNumber = c.storedNumber := by
  unfold load
  rw [(changesOnly_reindexAll _).nodeNumber (by decide)]
  rfl

theorem address_load (c : Configuration) :
    c.load.address = .truncate (c.store.read busAddressAddress) := by
  unfold load
  rw [(changesOnly_reindexAll _).address (by decide)]

theorem flags_load (c : Configuration) : c.load.flags = c.store.read flagsAddress := by
  unfold load
  rw [(changesOnly_reindexAll _).flags (by decide)]

theorem learning_load (c : Configuration) : c.load.learning = false := by
  unfold load
  rw [(changesOnly_reindexAll _).learning (by decide)]

theorem indexAgrees_load (c : Configuration) : c.load.IndexAgrees :=
  indexAgrees_reindexAll _

end Load

/-! ## What the store alone decides -/

/-- A property of a configuration that its layout and its store decide. -/
def Stored (P : Configuration → Prop) : Prop :=
  ∀ ⦃c d : Configuration⦄, d.layout = c.layout → d.store = c.store → P c → P d

theorem storedMode_congr (hs : d.store = c.store) : d.storedMode = c.storedMode := by
  unfold storedMode
  rw [hs]

theorem storedNumber_congr (hs : d.store = c.store) : d.storedNumber = c.storedNumber := by
  unfold storedNumber readWord
  rw [hs]

theorem record?_congr_store (hl : d.layout = c.layout) (hs : d.store = c.store) (slot : Nat) :
    d.record? slot = c.record? slot := by
  unfold record?
  rw [hl, hs]

theorem nodeVariable?_congr_store (hl : d.layout = c.layout) (hs : d.store = c.store)
    (index : Nat) : d.nodeVariable? index = c.nodeVariable? index := by
  unfold nodeVariable? nodeVariableAddress?
  rw [hl, hs]

theorem event_congr_store (hl : d.layout = c.layout) (hs : d.store = c.store) (slot : Nat) :
    d.event slot = c.event slot := by
  unfold event readWord
  rw [hl, hs]

theorem eventVariable_congr_store (hl : d.layout = c.layout) (hs : d.store = c.store)
    (slot index : Nat) : d.eventVariable slot index = c.eventVariable slot index := by
  unfold eventVariable variableAddress
  rw [hl, hs]

theorem isVirgin_eq (c : Configuration) :
    c.isVirgin = (c.storedMode == Store.erased && c.storedNumber == 0xffff) := rfl

/-! ## Address and flags -/

/-- The address and the flags in memory are those that a start would read from the store. -/
structure Mirrors (c : Configuration) : Prop where
  address : BusAddress.truncate (c.store.read busAddressAddress) = c.address
  flags : c.store.read flagsAddress = c.flags

theorem mirrors_load (c : Configuration) : c.load.Mirrors where
  address := by rw [c.store_load, c.address_load]
  flags := by rw [c.store_load, c.flags_load]

theorem Mirrors.of_changesOnly {A : List Part} (hc : c.Mirrors) (h : ChangesOnly A c d)
    (hA : .address ∉ A ∧ .flags ∉ A) : d.Mirrors where
  address := by
    have hread : d.store.read busAddressAddress = c.store.read busAddressAddress :=
      h.read_of_owns hA.1 rfl
    rw [hread, h.address hA.1, hc.address]
  flags := by
    have hread : d.store.read flagsAddress = c.store.read flagsAddress :=
      h.read_of_owns hA.2 rfl
    rw [hread, h.flags hA.2, hc.flags]

theorem Mirrors.setAddress (hc : c.Mirrors) (a : BusAddress) : (c.setAddress a).Mirrors where
  address := by
    unfold Configuration.setAddress write
    rw [Store.read_write _ (c.identity_lt_capacity (by decide)), if_pos rfl]
    exact a.truncate_byte
  flags := by
    have hch := c.changesOnly_setAddress a
    have hread : (c.setAddress a).store.read flagsAddress = c.store.read flagsAddress :=
      hch.read_of_owns (p := .flags) (by decide) rfl
    rw [hread, hch.flags (by decide), hc.flags]

theorem Mirrors.setFlags (hc : c.Mirrors) (f : UInt8) : (c.setFlags f).Mirrors where
  address := by
    have hch := c.changesOnly_setFlags f
    have hread : (c.setFlags f).store.read busAddressAddress = c.store.read busAddressAddress :=
      hch.read_of_owns (p := .address) (by decide) rfl
    rw [hread, hch.address (by decide), hc.address]
  flags := by
    unfold Configuration.setFlags write
    rw [Store.read_write _ (c.identity_lt_capacity (by decide)), if_pos rfl]

theorem Mirrors.edit {A : List Part} (hc : c.Mirrors) (h : Edit A c d) : d.Mirrors := by
  cases h with
  | mode m _ => exact hc.of_changesOnly (c.changesOnly_setMode m) (by decide)
  | number w _ => exact hc.of_changesOnly (c.changesOnly_setNodeNumber w) (by decide)
  | address a _ => exact hc.setAddress a
  | flags f _ => exact hc.setFlags f
  | learning on _ => exact hc.of_changesOnly (c.changesOnly_setLearning on) (by decide)
  | nodeVariable _ h => exact hc.of_changesOnly (changesOnly_setNodeVariable? h) (by decide)
  | eventVariable _ h => exact hc.of_changesOnly (changesOnly_setEventVariable h) (by decide)
  | insert _ _ _ _ h => exact hc.of_changesOnly (changesOnly_insertEvent h) (by decide)
  | remove _ _ h => exact hc.of_changesOnly (changesOnly_removeEvent h) (by decide)
  | clear _ _ => exact hc.of_changesOnly c.changesOnly_clearEvents (by decide)

end RailNode.Configuration
