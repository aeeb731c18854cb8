import RailNode.Proofs.Checked.Configuration
import RailNode.Proofs.Configuration.Index

/-
  The event table under bounds. A slot beyond the table is refused before its record is reached,
  so every address that is reached lies in the table; and the slots that a lookup has found are
  slots of the table.
-/
namespace RailNode.Checked.Configuration

open RailNode.Configuration

variable {c : Configuration} {slot index : Nat} {α : Type}

/-! ## Records -/

/-- Goes on at the address of a record, if there is one. -/
def atRecord (slot : Nat) (c : Configuration) (f : Nat → Except Halt α) :
    Except Halt (Except EventError α) :=
  if c.layout.slots ≤ slot then return .error .invalidSlot
  else do
    let size ← add (addressLimit c) Layout.recordHeaderSize c.layout.eventVariables
    let offset ← mul (addressLimit c) slot size
    let address ← add (addressLimit c) c.layout.eventStart offset
    let a ← f address
    return .ok a

/-- Goes on at the address of a variable of an event, if there is one. -/
def atVariable (slot index : Nat) (c : Configuration) (f : Nat → Except Halt α) :
    Except Halt (Except EventError α) := do
  match ← atRecord slot c .ok with
  | .error e => return .error e
  | .ok address =>
    if index = 0 ∨ c.layout.eventVariables < index then return .error .invalidVariable
    let first ← add (addressLimit c) address Layout.recordHeaderSize
    let next ← add (addressLimit c) first index
    let address ← sub next 1
    let a ← f address
    return .ok a

def event (slot : Nat) (c : Configuration) : Except Halt (Except EventError EventId) :=
  atRecord slot c fun address => do
    let node ← readWord address c
    let second ← add (addressLimit c) address 2
    let number ← readWord second c
    return ⟨node, number⟩

def writeEvent (slot : Nat) (e : EventId) (c : Configuration) :
    Except Halt (Except EventError Configuration) :=
  atRecord slot c fun address => writeBytes address e.bytes c

/-- Erases the record at an address. -/
def eraseAt (address : Nat) (c : Configuration) : Except Halt Configuration := do
  let size ← add (addressLimit c) Layout.recordHeaderSize c.layout.eventVariables
  (List.range size).foldlM
    (fun d i => do
      let a ← add (addressLimit d) address i
      write a Store.erased d) c

def clearEvent (slot : Nat) (c : Configuration) : Except Halt (Except EventError Configuration) :=
  atRecord slot c fun address => eraseAt address c

def eventVariable (slot index : Nat) (c : Configuration) :
    Except Halt (Except EventError UInt8) :=
  atVariable slot index c fun address => read address c

def setEventVariable (slot index : Nat) (value : UInt8) (c : Configuration) :
    Except Halt (Except EventError Configuration) :=
  atVariable slot index c fun address => write address value c

theorem record_le_capacity (h : slot < c.layout.slots) :
    c.layout.recordAddress slot + Layout.recordHeaderSize + c.layout.eventVariables ≤
      c.store.capacity := by
  have := c.layout_fits.record_le_capacity h
  unfold Layout.recordSize at this
  omega

/-- The address of a record of the table is found without passing a bound. -/
theorem atRecord_eq_ok (f : Nat → Except Halt α) (h : slot < c.layout.slots) :
    atRecord slot c f = (f (c.layout.recordAddress slot)).map .ok := by
  have hrecord := record_le_capacity h
  have hsize : Layout.recordHeaderSize + c.layout.eventVariables ≤ addressLimit c :=
    le_addressLimit (by omega)
  have hoffset : slot * c.layout.recordSize ≤ addressLimit c := by
    refine le_addressLimit ?_
    unfold Layout.recordAddress at hrecord
    omega
  have haddress : c.layout.eventStart + slot * c.layout.recordSize ≤ addressLimit c := by
    refine le_addressLimit ?_
    unfold Layout.recordAddress at hrecord
    omega
  rw [atRecord, if_neg (Nat.not_le.2 h), add_eq hsize, ok_bind]
  show (do let offset ← mul (addressLimit c) slot c.layout.recordSize; _) = _
  rw [mul_eq hoffset, ok_bind, add_eq haddress, ok_bind]
  show (do let a ← f (c.layout.recordAddress slot); _) = _
  cases f (c.layout.recordAddress slot) <;> rfl

theorem atRecord_eq_error (f : Nat → Except Halt α) (h : c.layout.slots ≤ slot) :
    atRecord slot c f = .ok (.error .invalidSlot) :=
  if_pos h

theorem atVariable_eq {f : Nat → Except Halt α} {g : Nat → α}
    (hf : ∀ a < c.store.capacity, f a = .ok (g a)) :
    atVariable slot index c f = .ok ((c.variableAddress slot index).map g) := by
  unfold atVariable variableAddress
  by_cases hs : c.layout.slots ≤ slot
  · rw [atRecord_eq_error _ hs, if_pos hs]
    rfl
  · have hrecord := record_le_capacity (Nat.not_le.1 hs)
    rw [atRecord_eq_ok _ (Nat.not_le.1 hs), if_neg hs, map_ok, ok_bind]
    dsimp only
    split_ifs with hi
    · rfl
    · have hlt : c.layout.eventVariableAddress slot index < c.store.capacity := by
        unfold Layout.eventVariableAddress
        omega
      rw [add_eq (le_addressLimit (by omega)), ok_bind, add_eq (le_addressLimit (by omega)),
        ok_bind, sub_eq (by omega), ok_bind]
      show (do let a ← f (c.layout.eventVariableAddress slot index); _) = _
      rw [hf _ hlt]
      rfl

@[simp]
theorem event_eq (slot : Nat) (c : Configuration) : event slot c = .ok (c.event slot) := by
  unfold event RailNode.Configuration.event
  by_cases hs : slot < c.layout.slots
  · have hrecord := record_le_capacity hs
    have h4 : Layout.recordHeaderSize = 4 := rfl
    rw [atRecord_eq_ok _ hs, if_pos hs, readWord_eq (by omega), ok_bind,
      add_eq (le_addressLimit (by omega)), ok_bind, readWord_eq (by omega)]
    rfl
  · rw [atRecord_eq_error _ (Nat.not_lt.1 hs), if_neg hs]

@[simp]
theorem writeEvent_eq (slot : Nat) (e : EventId) (c : Configuration) :
    writeEvent slot e c = .ok (c.writeEvent slot e) := by
  unfold writeEvent RailNode.Configuration.writeEvent
  by_cases hs : slot < c.layout.slots
  · have hrecord := record_le_capacity hs
    have hbytes : c.layout.recordAddress slot + e.bytes.length ≤ c.store.capacity := by
      rw [EventId.length_bytes]
      exact Nat.le_trans (Nat.le_add_right _ _) hrecord
    rw [atRecord_eq_ok _ hs, if_pos hs, writeBytes_eq hbytes]
    rfl
  · rw [atRecord_eq_error _ (Nat.not_lt.1 hs), if_neg hs]

@[simp]
theorem clearEvent_eq (slot : Nat) (c : Configuration) :
    clearEvent slot c = .ok (c.clearEvent slot) := by
  unfold clearEvent RailNode.Configuration.clearEvent
  by_cases hs : slot < c.layout.slots
  · have hrecord := c.layout_fits.record_le_capacity hs
    have hsize : Layout.recordHeaderSize + c.layout.eventVariables ≤ addressLimit c := by
      refine le_addressLimit ?_
      unfold Layout.recordSize at hrecord
      omega
    rw [atRecord_eq_ok _ hs, if_pos hs, eraseAt, add_eq hsize, ok_bind]
    refine congrArg (Except.map _) (foldlM_eq_ok
      (P := fun d => d.store.capacity = c.store.capacity) (fun {d} hd i hi => ?_) rfl)
    have hlt : c.layout.recordAddress slot + i < d.store.capacity := by
      have : i < c.layout.recordSize := List.mem_range.1 hi
      omega
    rw [add_eq (le_addressLimit (Nat.le_of_lt hlt)), ok_bind, write_eq _ hlt]
    exact ⟨rfl, by rw [← hd]; exact Store.capacity_write _ _ _⟩
  · rw [atRecord_eq_error _ (Nat.not_lt.1 hs), if_neg hs]

@[simp]
theorem eventVariable_eq (slot index : Nat) (c : Configuration) :
    eventVariable slot index c = .ok (c.eventVariable slot index) :=
  atVariable_eq fun _ h => read_eq h

@[simp]
theorem setEventVariable_eq (slot index : Nat) (value : UInt8) (c : Configuration) :
    setEventVariable slot index value c = .ok (c.setEventVariable slot index value) :=
  atVariable_eq fun _ h => write_eq value h

/-! ## The index -/

/-- The hash of an event, in words of 16 bits. -/
def hash (e : EventId) : Except Halt UInt8 := do
  let high ← mul wordLimit 7 (EventId.fold e.node).toNat
  let sum ← add wordLimit high (EventId.fold e.number).toNat
  return if sum % 128 = 0 then 255 else UInt8.ofNat (sum % 128)

/-- Brings the index entry of a slot up to date. There is an entry for each slot of the table. -/
def reindex (slot : Nat) (c : Configuration) : Except Halt Configuration := do
  match ← atRecord slot c fun address => readBytes address Layout.recordHeaderSize c with
  | .error _ => return c
  | .ok header =>
    ensure (slot < c.index.toList.length)
    if header = List.replicate Layout.recordHeaderSize Store.erased then
      return { c with index := c.index.setIfInBounds slot 0 }
    let h ← hash (EventId.ofBytes header)
    return { c with index := c.index.setIfInBounds slot h }

def reindexAll (c : Configuration) : Except Halt Configuration :=
  (List.range c.layout.slots).foldlM (fun d slot => reindex slot d) c

def freeCount (c : Configuration) : Except Halt Nat := sub c.layout.slots c.storedCount

def find (e : EventId) (c : Configuration) : Except Halt (Except EventError Nat) := do
  let h ← hash e
  let found ← (List.range c.layout.slots).findM? fun slot => do
    if c.index[slot]? == some h then
      let held ← event slot c
      return held.toOption == some e
    else return false
  match found with
  | some slot => return .ok slot
  | none => return .error .notFound

/-- Erases every stored event. -/
def clearEvents (c : Configuration) : Except Halt Configuration := do
  let c ← (List.range c.layout.slots).foldlM
    (fun d slot =>
      if d.isFree slot then return d
      else do
        let cleared ← clearEvent slot d
        trust cleared.toOption) c
  return c.clearIndex

@[simp]
theorem hash_eq (e : EventId) : hash e = .ok e.hash := by
  have hnode := (EventId.fold e.node).toNat_lt
  have hnumber := (EventId.fold e.number).toNat_lt
  have hlimit : wordLimit = 65535 := rfl
  rw [hash, mul_eq (by omega), ok_bind, add_eq (by omega)]
  rfl

@[simp]
theorem reindex_eq (slot : Nat) (c : Configuration) : reindex slot c = .ok (c.reindex slot) := by
  unfold reindex
  by_cases hs : slot < c.layout.slots
  · have hrecord := record_le_capacity hs
    rw [atRecord_eq_ok _ hs, readBytes_eq (Nat.le_trans (Nat.le_add_right _ _) hrecord), map_ok,
      ok_bind]
    dsimp only
    rw [ensure_eq (by simpa using hs), ok_bind]
    unfold RailNode.Configuration.reindex indexEntry record?
    dsimp only
    split_ifs
    · rfl
    · rw [hash_eq]
      rfl
  · have hsame : c.index.setIfInBounds slot (c.indexEntry slot) = c.index :=
      Vector.setIfInBounds_eq_of_size_le (Nat.not_lt.1 hs)
    rw [atRecord_eq_error _ (Nat.not_lt.1 hs), RailNode.Configuration.reindex, hsame]
    rfl

@[simp]
theorem reindexAll_eq (c : Configuration) : reindexAll c = .ok c.reindexAll :=
  foldlM_eq_ok (P := fun _ => True) (fun _ _ _ => ⟨reindex_eq _ _, trivial⟩) trivial

@[simp]
theorem freeCount_eq (c : Configuration) : freeCount c = .ok c.freeCount :=
  sub_eq (by have := c.storedCount_add_freeCount; omega)

@[simp]
theorem find_eq (e : EventId) (c : Configuration) : find e c = .ok (c.find e) := by
  rw [find, hash_eq, ok_bind, findM?_eq_ok
    (p := fun slot => c.index[slot]? == some e.hash && (c.event slot).toOption == some e)]
  · unfold RailNode.Configuration.find
    rw [ok_bind]
    generalize (List.range c.layout.slots).find? _ = found
    cases found <;> rfl
  · intro slot _
    split_ifs with h
    · rw [event_eq, ok_bind, h, Bool.true_and]
      rfl
    · rw [Bool.eq_false_iff.2 h, Bool.false_and]
      rfl

@[simp]
theorem clearEvents_eq (c : Configuration) : clearEvents c = .ok c.clearEvents := by
  unfold clearEvents
  rw [foldlM_eq_ok (P := fun d => d.layout = c.layout)
    (g := fun d slot => if d.isFree slot then d else d.eraseRecord slot)
    (fun {d} hd slot hslot => ?_) rfl]
  · rfl
  · have hs : slot < d.layout.slots := by
      rw [hd]
      exact List.mem_range.1 hslot
    split_ifs
    · exact ⟨rfl, hd⟩
    · rw [clearEvent_eq, ok_bind, RailNode.Configuration.clearEvent, if_pos hs]
      exact ⟨rfl, by rw [← hd]; exact (d.changesOnly_eraseRecord hs).layout⟩

/-! ## Entries -/

/-- Files an event in a slot that there must be, with all its variables 0. -/
def insertEvent (slot : Nat) (e : EventId) (c : Configuration) : Except Halt Configuration := do
  let written ← writeEvent slot e c
  let c ← trust written.toOption
  let c ← (List.range' 1 c.layout.eventVariables).foldlM
    (fun d index => do
      let written ← setEventVariable slot index 0 d
      trust written.toOption) c
  reindex slot c

/-- Takes the event out of a slot that there must be. -/
def removeEvent (slot : Nat) (c : Configuration) : Except Halt Configuration := do
  let cleared ← clearEvent slot c
  let c ← trust cleared.toOption
  reindex slot c

theorem insertEvent_eq (slot : Nat) (e : EventId) (c : Configuration) :
    insertEvent slot e c = trust (c.insertEvent slot e).toOption := by
  rw [insertEvent, writeEvent_eq, ok_bind]
  by_cases hs : slot < c.layout.slots
  · rw [c.insertEvent_eq hs, RailNode.Configuration.writeEvent, if_pos hs]
    simp only [Except.toOption, trust_some, ok_bind]
    rw [foldlM_eq_ok (P := fun d => d.layout = c.layout)
      (g := fun d index =>
        d.write (c.layout.recordAddress slot + (Layout.recordHeaderSize + (index - 1))) 0)
      (fun {d} hd index hindex => ?_) rfl]
    · rw [ok_bind, reindex_eq]
      rfl
    · have hi : 1 ≤ index ∧ index < 1 + c.layout.eventVariables := List.mem_range'_1.1 hindex
      have hvariables : index ≤ d.layout.eventVariables := by
        rw [hd]
        omega
      rw [RailNode.Checked.Configuration.setEventVariable_eq, ok_bind,
        d.setEventVariable_eq (by rw [hd]; exact hs) hi.1 hvariables, hd]
      exact ⟨rfl, hd⟩
  · rw [RailNode.Configuration.insertEvent, RailNode.Configuration.writeEvent, if_neg hs]
    rfl

theorem removeEvent_eq (slot : Nat) (c : Configuration) :
    removeEvent slot c = trust (c.removeEvent slot).toOption := by
  rw [removeEvent, clearEvent_eq, ok_bind, RailNode.Configuration.removeEvent]
  cases c.clearEvent slot with
  | error e => rfl
  | ok d =>
    simp only [Except.toOption, trust_some, ok_bind, reindex_eq]
    rfl

end RailNode.Checked.Configuration
