import RailNode.Proofs.Configuration.Parts

/-
  What each setter of the configuration changes (`ChangesOnly`) and what it stores.
-/
namespace RailNode.Configuration

variable {A : List Part}

/-! ## Writes -/

/-- A write to a byte of a changed part leaves the bytes of all other parts. -/
theorem read_write_of_owns {c : Configuration} {p : Part} (hp : p ∈ A) {a : Nat}
    (ha : p.Owns c.layout a) (v : UInt8) (i : Nat) (hi : ∀ q ∈ A, ¬ q.Owns c.layout i) :
    (c.store.write a v).read i = c.store.read i := by
  rw [Store.read_write v (Part.lt_capacity_of_owns c.layout_fits ha), if_neg]
  rintro rfl
  exact hi p hp ha

/-- A byte of the identity that was just written. -/
theorem read_write_identity (c : Configuration) {a : Nat} (h : a < Layout.identitySize)
    (v : UInt8) : (c.store.write a v).read a = v := by
  rw [Store.read_write v (c.identity_lt_capacity h), if_pos rfl]

/-- A write to a byte of a part that has no copy in memory. -/
theorem changesOnly_write {c : Configuration} {p : Part} (hp : p ∈ A) {a : Nat}
    (ha : p.Owns c.layout a) (v : UInt8) : ChangesOnly A c (c.write a v) where
  layout := rfl
  read := read_write_of_owns hp ha v
  mode _ := rfl
  nodeNumber _ := rfl
  address _ := rfl
  flags _ := rfl
  learning _ := rfl
  index _ := rfl

/-- Writes of one value to bytes of such a part, one after the other. -/
theorem changesOnly_foldl_write {α : Type} {c : Configuration} {p : Part} (hp : p ∈ A)
    {f : α → Nat} {xs : List α} (h : ∀ x ∈ xs, p.Owns c.layout (f x)) (v : UInt8) :
    ChangesOnly A c (xs.foldl (fun d x => d.write (f x) v) c) := by
  refine List.foldlRecOn xs _ (ChangesOnly.refl A c) fun d hd x hx => hd.trans ?_
  exact changesOnly_write hp (hd.layout ▸ h x hx) v

theorem read_foldl_write {α : Type} {c : Configuration} {f : α → Nat} {xs : List α}
    (h : ∀ x ∈ xs, f x < c.store.capacity) (v : UInt8) (i : Nat) :
    (xs.foldl (fun d x => d.write (f x) v) c).store.read i =
      if ∃ x ∈ xs, f x = i then v else c.store.read i := by
  induction xs generalizing c with
  | nil => simp
  | cons x xs ih =>
    have hx : f x < c.store.capacity := h x List.mem_cons_self
    have hxs : ∀ y ∈ xs, f y < (c.write (f x) v).store.capacity := fun y hy => by
      rw [write, Store.capacity_write]
      exact h y (List.mem_cons_of_mem x hy)
    rw [List.foldl_cons, ih hxs, write, Store.read_write v hx]
    by_cases hi : f x = i
    · subst hi
      simp
    · simp [hi, Ne.symm hi]

/-! ## Setters -/

theorem changesOnly_setMode (c : Configuration) (m : Mode) :
    ChangesOnly [.mode] c (c.setMode m) where
  layout := rfl
  read := read_write_of_owns (List.mem_singleton_self _) (p := .mode) rfl m.byte
  mode h := absurd (List.mem_singleton_self _) h
  nodeNumber _ := rfl
  address _ := rfl
  flags _ := rfl
  learning _ := rfl
  index _ := rfl

@[simp]
theorem storedMode_setMode (c : Configuration) (m : Mode) : (c.setMode m).storedMode = m.byte :=
  c.read_write_identity (by decide) m.byte

theorem changesOnly_setNodeNumber (c : Configuration) (w : UInt16) :
    ChangesOnly [.number] c (c.setNodeNumber w) where
  layout := rfl
  read i hi := by
    have h : ¬ (i = 2 ∨ i = 3) := hi .number (List.mem_singleton_self _)
    have hc : 4 ≤ c.store.capacity := c.identity_lt_capacity (a := 3) (by decide)
    exact Store.read_writeBytes_of_outside (a := 2) (by simpa using hc) (by
      rw [Word.length_bytes]; omega)
  mode _ := rfl
  nodeNumber h := absurd (List.mem_singleton_self _) h
  address _ := rfl
  flags _ := rfl
  learning _ := rfl
  index _ := rfl

@[simp]
theorem storedNumber_setNodeNumber (c : Configuration) (w : UInt16) :
    (c.setNodeNumber w).storedNumber = w := by
  have hc : nodeNumberAddress + (Word.bytes w).length ≤ c.store.capacity :=
    c.identity_lt_capacity (a := 3) (by decide)
  have h0 : (c.setNodeNumber w).store.read nodeNumberAddress = Word.high w :=
    Store.read_writeBytes_inside (k := 0) hc (by simp)
  have h1 : (c.setNodeNumber w).store.read (nodeNumberAddress + 1) = Word.low w :=
    Store.read_writeBytes_inside (k := 1) hc (by simp)
  rw [storedNumber_eq, h0, h1, Word.join_high_low]

theorem changesOnly_setAddress (c : Configuration) (a : BusAddress) :
    ChangesOnly [.address] c (c.setAddress a) where
  layout := rfl
  read := read_write_of_owns (List.mem_singleton_self _) (p := .address) rfl a.byte
  mode _ := rfl
  nodeNumber _ := rfl
  address h := absurd (List.mem_singleton_self _) h
  flags _ := rfl
  learning _ := rfl
  index _ := rfl

theorem changesOnly_setFlags (c : Configuration) (f : UInt8) :
    ChangesOnly [.flags] c (c.setFlags f) where
  layout := rfl
  read := read_write_of_owns (List.mem_singleton_self _) (p := .flags) rfl f
  mode _ := rfl
  nodeNumber _ := rfl
  address _ := rfl
  flags h := absurd (List.mem_singleton_self _) h
  learning _ := rfl
  index _ := rfl

theorem changesOnly_setLearning (c : Configuration) (on : Bool) :
    ChangesOnly [.learning] c (c.setLearning on) where
  layout := rfl
  read _ _ := rfl
  mode _ := rfl
  nodeNumber _ := rfl
  address _ := rfl
  flags _ := rfl
  learning h := absurd (List.mem_singleton_self _) h
  index _ := rfl

theorem changesOnly_clearIndex (c : Configuration) : ChangesOnly [.index] c c.clearIndex where
  layout := rfl
  read _ _ := rfl
  mode _ := rfl
  nodeNumber _ := rfl
  address _ := rfl
  flags _ := rfl
  learning _ := rfl
  index h := absurd (List.mem_singleton_self _) h

theorem changesOnly_reindex (c : Configuration) (slot : Nat) :
    ChangesOnly [.index] c (c.reindex slot) where
  layout := rfl
  read _ _ := rfl
  mode _ := rfl
  nodeNumber _ := rfl
  address _ := rfl
  flags _ := rfl
  learning _ := rfl
  index h := absurd (List.mem_singleton_self _) h

theorem changesOnly_reindexAll (c : Configuration) : ChangesOnly [.index] c c.reindexAll :=
  List.foldlRecOn _ _ (ChangesOnly.refl _ c) fun d hd slot _ =>
    hd.trans (changesOnly_reindex d slot)

/-! ## Node variables -/

theorem changesOnly_setNodeVariable? {c d : Configuration} {index : Nat} {v : UInt8}
    (h : c.setNodeVariable? index v = some d) : ChangesOnly [.nodeVariables] c d := by
  unfold setNodeVariable? nodeVariableAddress? at h
  split at h
  · rename_i hi
    rw [Option.map_some, Option.some.injEq] at h
    subst h
    exact changesOnly_write (List.mem_singleton_self _) (p := .nodeVariables)
      (Layout.inNodeVariables_address hi.1 hi.2) v
  · contradiction

theorem changesOnly_clearNodeVariables (c : Configuration) :
    ChangesOnly [.nodeVariables] c c.clearNodeVariables := by
  refine changesOnly_foldl_write (List.mem_singleton_self _) (p := .nodeVariables)
    (fun i hi => ?_) 0
  obtain ⟨h1, h2⟩ := List.mem_range'_1.1 hi
  exact Layout.inNodeVariables_address h1 (by omega)

/-! ## Factory reset -/

/-- The last steps of a factory reset, after the store is erased and the identity written. -/
def resetRest (c : Configuration) : Configuration :=
  c.clearNodeVariables.write resetMarkerAddress resetPerformed
    |>.setLearning false
    |>.clearIndex

theorem factoryReset_eq (c : Configuration) :
    c.factoryReset =
      (c.erase.setMode .uninitialised |>.setNodeNumber 0 |>.setAddress .unassigned
        |>.setFlags defaultFlags).resetRest :=
  rfl

/-- The parts that a factory reset writes behind the flags. -/
def resetRestParts : List Part := [.nodeVariables, .marker, .learning, .index]

theorem changesOnly_resetRest (c : Configuration) : ChangesOnly resetRestParts c c.resetRest := by
  have h1 := (changesOnly_clearNodeVariables c).mono (B := resetRestParts) (by decide)
  have h2 := h1.trans (changesOnly_write (p := .marker) (by decide) rfl resetPerformed)
  have h3 := h2.trans ((changesOnly_setLearning _ false).mono (by decide))
  exact h3.trans ((changesOnly_clearIndex _).mono (by decide))

theorem changesOnly_factoryReset_of_flags (c : Configuration) :
    ChangesOnly (.flags :: resetRestParts)
      (c.erase.setMode .uninitialised |>.setNodeNumber 0 |>.setAddress .unassigned)
      c.factoryReset :=
  ((changesOnly_setFlags _ _).mono (by decide)).trans
    ((changesOnly_resetRest _).mono (by decide))

theorem changesOnly_factoryReset_of_address (c : Configuration) :
    ChangesOnly (.address :: .flags :: resetRestParts)
      (c.erase.setMode .uninitialised |>.setNodeNumber 0) c.factoryReset :=
  ((changesOnly_setAddress _ _).mono (by decide)).trans
    ((changesOnly_factoryReset_of_flags c).mono (by decide))

theorem changesOnly_factoryReset_of_number (c : Configuration) :
    ChangesOnly (.number :: .address :: .flags :: resetRestParts)
      (c.erase.setMode .uninitialised) c.factoryReset :=
  ((changesOnly_setNodeNumber _ _).mono (by decide)).trans
    ((changesOnly_factoryReset_of_address c).mono (by decide))

/-- After the store is erased, a factory reset leaves the records alone. -/
theorem changesOnly_factoryReset (c : Configuration) :
    ChangesOnly (.mode :: .number :: .address :: .flags :: resetRestParts) c.erase
      c.factoryReset :=
  ((changesOnly_setMode _ _).mono (by decide)).trans
    ((changesOnly_factoryReset_of_number c).mono (by decide))

@[simp]
theorem layout_factoryReset (c : Configuration) : c.factoryReset.layout = c.layout :=
  (changesOnly_factoryReset c).layout

@[simp]
theorem mode_factoryReset (c : Configuration) : c.factoryReset.mode = .uninitialised :=
  (changesOnly_factoryReset_of_number c).mode (by decide)

@[simp]
theorem storedMode_factoryReset (c : Configuration) : c.factoryReset.storedMode = Store.erased := by
  rw [(changesOnly_factoryReset_of_number c).storedMode (by decide), storedMode_setMode]
  rfl

@[simp]
theorem nodeNumber_factoryReset (c : Configuration) : c.factoryReset.nodeNumber = 0 :=
  (changesOnly_factoryReset_of_address c).nodeNumber (by decide)

@[simp]
theorem storedNumber_factoryReset (c : Configuration) : c.factoryReset.storedNumber = 0 := by
  rw [(changesOnly_factoryReset_of_address c).storedNumber (by decide),
    storedNumber_setNodeNumber]

@[simp]
theorem learning_factoryReset (c : Configuration) : c.factoryReset.learning = false :=
  rfl

/-- No record is left after a factory reset. -/
theorem recordByte_factoryReset (c : Configuration) {slot i : Nat} (hs : slot < c.layout.slots)
    (hi : i < c.layout.recordSize) : c.factoryReset.recordByte slot i = Store.erased := by
  rw [(changesOnly_factoryReset c).recordByte (by decide) hs hi]
  exact Store.read_erase c.store _

end RailNode.Configuration
