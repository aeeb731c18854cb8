import RailNode.Proofs.Configuration.Table
import RailNode.Proofs.Layout.Cells

/-
  The configuration as a collection of items, each read and written on its own, and the calls that
  write it. A call assigns values to certain items, and touches no byte of the store outside the
  cells of those (`read_of_run`).
-/
namespace RailNode

open Layout (Cell)

/-! ## Items -/

/-- A value of the configuration that can be read and written on its own. -/
inductive Item where
  | mode
  | number
  | address
  | heartbeat
  | acknowledge
  | learning
  /-- The mark of a factory reset. -/
  | marker
  /-- A node variable, with an index from 1 on. -/
  | nodeVariable (index : Nat)
  /-- The identity in a slot. -/
  | event (slot : Nat)
  /-- A variable of a slot, with an index from 1 on. -/
  | eventVariable (slot index : Nat)
deriving DecidableEq, Repr

namespace Item

/-- What an item holds. -/
def Value : Item → Type
  | mode => Mode
  | number => UInt16
  | address => BusAddress
  | heartbeat | acknowledge | learning | marker => Bool
  | nodeVariable _ => UInt8
  | event _ => EventId
  | eventVariable _ _ => UInt8

/-- The bytes of the store that hold an item. Learn mode is not stored, and the two flags are bits
    of one byte. -/
def cells : Item → List Cell
  | mode => [.identity Configuration.modeAddress]
  | number =>
    [.identity Configuration.nodeNumberAddress, .identity (Configuration.nodeNumberAddress + 1)]
  | address => [.identity Configuration.busAddressAddress]
  | heartbeat | acknowledge => [.identity Configuration.flagsAddress]
  | learning => []
  | marker => [.identity Configuration.resetMarkerAddress]
  | nodeVariable index => [.nodeVariable index]
  | event slot => (List.range Layout.recordHeaderSize).map (.header slot)
  | eventVariable slot index => [.eventVariable slot index]

/-- Whether the item is a bit of the flags byte. -/
def IsFlag : Item → Prop
  | heartbeat | acknowledge => True
  | _ => False

/-- The layout has this item. -/
def In (l : Layout) (i : Item) : Prop := ∀ x ∈ i.cells, x.In l

/-- What the getter of an item returns. -/
def read? (c : Configuration) : (i : Item) → Option i.Value
  | mode => some c.mode
  | number => some c.nodeNumber
  | address => some c.address
  | heartbeat => some c.heartbeat
  | acknowledge => some c.acknowledge
  | learning => some c.learning
  | marker => some c.resetMarked
  | nodeVariable index => c.nodeVariable? index
  | event slot => (c.event slot).toOption
  | eventVariable slot index => (c.eventVariable slot index).toOption

/-- The stored bytes of an item. -/
def bytes (c : Configuration) (i : Item) : List UInt8 :=
  i.cells.map fun x => c.store.read (x.address c.layout)

/-- How the store spells a value of an item. The byte of the flags spells both at once. -/
def encode (c : Configuration) : (i : Item) → i.Value → List UInt8
  | mode, m => [Mode.byte m]
  | number, w => Word.bytes w
  | address, a => [BusAddress.byte a]
  | heartbeat, _ | acknowledge, _ => [c.flags]
  | learning, _ => []
  | marker, on => [cond on Configuration.resetPerformed 0]
  | nodeVariable _, v => [v]
  | event _, e => EventId.bytes e
  | eventVariable _ _, v => [v]

/-- The item has this value, for those who read it and in the store. -/
structure Holds (c : Configuration) (i : Item) (v : i.Value) : Prop where
  read : i.read? c = some v
  bytes : i.bytes c = i.encode c v

/-- The item to which a byte belongs alone. -/
def owner? : Cell → Option Item
  | .identity 0 => some mode
  | .identity 1 => some address
  | .identity 2 | .identity 3 => some number
  | .identity 5 => some marker
  | .identity _ => none
  | .nodeVariable index => some (nodeVariable index)
  | .header slot _ => some (event slot)
  | .eventVariable slot index => some (eventVariable slot index)

theorem owner?_of_mem {i : Item} (hi : ¬ i.IsFlag) {x : Cell} (hx : x ∈ i.cells) :
    owner? x = some i := by
  cases i with
  | heartbeat => exact absurd trivial hi
  | acknowledge => exact absurd trivial hi
  | learning => exact absurd hx List.not_mem_nil
  | number =>
    rcases List.mem_cons.1 hx with rfl | hx
    · rfl
    · rw [List.mem_singleton.1 hx]
      rfl
  | event slot =>
    obtain ⟨a, _, rfl⟩ := List.mem_map.1 hx
    rfl
  | _ =>
    rw [List.mem_singleton.1 hx]
    rfl

theorem owner?_of_isFlag {i : Item} (hi : i.IsFlag) {x : Cell} (hx : x ∈ i.cells) :
    owner? x = none := by
  cases i with
  | heartbeat => rw [List.mem_singleton.1 hx]; rfl
  | acknowledge => rw [List.mem_singleton.1 hx]; rfl
  | _ => exact hi.elim

/-- Different items share no byte, the flags apart. -/
theorem cells_disjoint {i j : Item} (h : i ≠ j) (hi : ¬ i.IsFlag) {x y : Cell}
    (hx : x ∈ i.cells) (hy : y ∈ j.cells) : x ≠ y := by
  rintro rfl
  have hxi := owner?_of_mem hi hx
  by_cases hj : j.IsFlag
  · rw [owner?_of_isFlag hj hy] at hxi
    contradiction
  · rw [owner?_of_mem hj hy] at hxi
    exact h (Option.some.inj hxi).symm

end Item

/-- A value that an item got. -/
structure Assignment where
  item : Item
  value : item.Value

namespace Configuration

variable {c d : Configuration}

/-! ## Single operations -/

theorem writeEvent_eq_ok {slot : Nat} {e : EventId} (h : c.writeEvent slot e = .ok d) :
    slot < c.layout.slots ∧ c.writeBytes (c.layout.recordAddress slot) e.bytes = d := by
  unfold writeEvent at h
  split at h
  · rename_i hs
    exact ⟨hs, Except.ok.inj h⟩
  · contradiction

theorem clearEvent_eq_ok {slot : Nat} (h : c.clearEvent slot = .ok d) :
    slot < c.layout.slots ∧ c.eraseRecord slot = d := by
  unfold clearEvent at h
  split at h
  · rename_i hs
    exact ⟨hs, Except.ok.inj h⟩
  · contradiction

theorem setNodeVariable?_eq {index : Nat}
    (h : 1 ≤ index ∧ index ≤ c.layout.nodeVariables) (value : UInt8) :
    c.setNodeVariable? index value = some (c.write (c.layout.nodeVariableAddress index) value) := by
  unfold setNodeVariable? nodeVariableAddress?
  rw [if_pos h]
  rfl

theorem ChangesOnly.read_of_not_owns {p : Part} (h : ChangesOnly [p] c d) {a : Nat}
    (ha : ¬ p.Owns c.layout a) : d.store.read a = c.store.read a := by
  refine h.read a fun q hq => ?_
  rw [List.mem_singleton.1 hq]
  exact ha

theorem read_writeHeader_of_ne {slot : Nat} (hs : slot < c.layout.slots) (e : EventId) {a : Nat}
    (ha : ∀ i < Layout.recordHeaderSize, c.layout.recordAddress slot + i ≠ a) :
    (c.writeBytes (c.layout.recordAddress slot) e.bytes).store.read a = c.store.read a := by
  have hrec := c.layout_fits.record_le_capacity hs
  have h4 : 4 ≤ c.layout.recordSize := c.layout.recordHeaderSize_le_recordSize
  refine Store.read_writeBytes_of_outside (by rw [EventId.length_bytes]; omega) ?_
  rw [EventId.length_bytes]
  rcases Nat.lt_or_ge a (c.layout.recordAddress slot) with hlt | hge
  · exact Or.inl hlt
  · right
    refine Nat.le_of_not_lt fun hlt => ?_
    have hoffset : a - c.layout.recordAddress slot < 4 := by omega
    exact ha _ hoffset (Nat.add_sub_cancel' hge)

theorem read_eraseRecord_of_ne {slot : Nat} (hs : slot < c.layout.slots) {a : Nat}
    (ha : ∀ i < c.layout.recordSize, c.layout.recordAddress slot + i ≠ a) :
    (c.eraseRecord slot).store.read a = c.store.read a := by
  have hcap : ∀ i ∈ List.range c.layout.recordSize,
      c.layout.recordAddress slot + i < c.store.capacity := fun i hi =>
    c.layout_fits.lt_capacity_of_inEvents (Layout.inEvents_record hs (List.mem_range.1 hi))
  rw [eraseRecord, read_foldl_write hcap, if_neg]
  rintro ⟨i, hi, heq⟩
  exact ha i (List.mem_range.1 hi) heq

theorem read_clearEvents_of_ne {a : Nat}
    (ha : ∀ slot < c.layout.slots, c.isFree slot = false → ∀ i < c.layout.recordSize,
      c.layout.recordAddress slot + i ≠ a) : c.clearEvents.store.read a = c.store.read a := by
  have hslots : ∀ slot ∈ List.range c.layout.slots, slot < c.layout.slots := fun _ hs =>
    List.mem_range.1 hs
  show (c.eraseOccupied (List.range c.layout.slots)).store.read a = c.store.read a
  have hch := c.changesOnly_eraseOccupied hslots
  by_cases hevents : c.layout.InEvents a
  · obtain ⟨slot, i, hs, hi, rfl⟩ := Layout.exists_record_of_inEvents hevents
    have hoccupied : ¬ (slot ∈ List.range c.layout.slots ∧ c.isFree slot = false) := by
      rintro ⟨_, hfree⟩
      exact ha slot hs hfree i hi rfl
    have hbyte : (c.eraseOccupied (List.range c.layout.slots)).recordByte slot i =
        c.recordByte slot i := by
      rw [c.recordByte_eraseOccupied hslots hi, if_neg hoccupied]
    rwa [recordByte, hch.layout] at hbyte
  · exact hch.read_of_not_owns hevents

theorem read_setNodeVariable_of_ne {index : Nat} (h1 : 1 ≤ index)
    (h2 : index ≤ c.layout.nodeVariables) (value : UInt8) {a : Nat}
    (ha : c.layout.nodeVariableAddress index ≠ a) :
    (c.write (c.layout.nodeVariableAddress index) value).store.read a = c.store.read a := by
  have hcap := c.layout_fits.lt_capacity_of_inNodeVariables
    (Layout.inNodeVariables_address h1 h2)
  show (c.store.write _ value).read a = _
  rw [Store.read_write value hcap, if_neg ha.symm]

theorem read_setEventVariable_of_ne {slot index : Nat} {value : UInt8}
    (h : c.setEventVariable slot index value = .ok d) {a : Nat}
    (ha : c.layout.eventVariableAddress slot index ≠ a) :
    d.store.read a = c.store.read a := by
  obtain ⟨hs, h1, h2⟩ := setEventVariable_eq_ok h
  have hcap := c.layout_fits.lt_capacity_of_inEvents
    (Layout.inEvents_record hs (Layout.eventVariable_offset_lt h1 h2))
  rw [c.setEventVariable_eq hs h1 h2] at h
  rw [Layout.eventVariableAddress_eq _ _ h1] at ha
  rw [← Except.ok.inj h]
  show (c.store.write _ value).read a = _
  rw [Store.read_write value hcap, if_neg ha.symm]

/-! ## Calls -/

/-- A call that writes the configuration. -/
inductive Call where
  | setMode (mode : Mode)
  | setNodeNumber (number : UInt16)
  | setAddress (address : BusAddress)
  | setHeartbeat (on : Bool)
  | setAcknowledge (on : Bool)
  | setLearning (on : Bool)
  | clearResetMarker
  | setNodeVariable (index : Nat) (value : UInt8)
  | writeEvent (slot : Nat) (e : EventId)
  | clearEvent (slot : Nat)
  | setEventVariable (slot index : Nat) (value : UInt8)
  | clearEvents
  | reindex (slot : Nat)
  | reindexAll
deriving DecidableEq, Repr

namespace Call

/-- What comes of a call. Node variables are only written under an index that they have; under
    another one nothing happens here. -/
def run (c : Configuration) : Call → Except EventError Configuration
  | setMode mode => .ok (c.setMode mode)
  | setNodeNumber number => .ok (c.setNodeNumber number)
  | setAddress address => .ok (c.setAddress address)
  | setHeartbeat on => .ok (c.setHeartbeat on)
  | setAcknowledge on => .ok (c.setAcknowledge on)
  | setLearning on => .ok (c.setLearning on)
  | clearResetMarker => .ok c.clearResetMarker
  | setNodeVariable index value => .ok ((c.setNodeVariable? index value).getD c)
  | writeEvent slot e => c.writeEvent slot e
  | clearEvent slot => c.clearEvent slot
  | setEventVariable slot index value => c.setEventVariable slot index value
  | clearEvents => .ok c.clearEvents
  | reindex slot => .ok (c.reindex slot)
  | reindexAll => .ok c.reindexAll

/-- What a slot gets when its record is erased. -/
def erasure (l : Layout) (slot : Nat) : List Assignment :=
  ⟨.event slot, .erased⟩ ::
    (List.range' 1 l.eventVariables).map fun index => ⟨.eventVariable slot index, Store.erased⟩

/-- What a call that succeeds assigns. -/
def assigns (c : Configuration) : Call → List Assignment
  | setMode mode => [⟨.mode, mode⟩]
  | setNodeNumber number => [⟨.number, number⟩]
  | setAddress address => [⟨.address, address⟩]
  | setHeartbeat on => [⟨.heartbeat, on⟩]
  | setAcknowledge on => [⟨.acknowledge, on⟩]
  | setLearning on => [⟨.learning, on⟩]
  | clearResetMarker => [⟨.marker, false⟩]
  | setNodeVariable index value => [⟨.nodeVariable index, value⟩]
  | writeEvent slot e => [⟨.event slot, e⟩]
  | clearEvent slot => erasure c.layout slot
  | setEventVariable slot index value => [⟨.eventVariable slot index, value⟩]
  | clearEvents =>
    ((List.range c.layout.slots).filter fun slot => !c.isFree slot).flatMap (erasure c.layout)
  | reindex _ | reindexAll => []

/-- The parts of the configuration that a call may change. -/
def parts : Call → List Part
  | setMode _ => [.mode]
  | setNodeNumber _ => [.number]
  | setAddress _ => [.address]
  | setHeartbeat _ | setAcknowledge _ => [.flags]
  | setLearning _ => [.learning]
  | clearResetMarker => [.marker]
  | setNodeVariable _ _ => [.nodeVariables]
  | writeEvent _ _ | clearEvent _ | setEventVariable _ _ _ => [.records]
  | clearEvents => [.records, .index]
  | reindex _ | reindexAll => [.index]

/-- A node variable is written under an index that it has. -/
def IsProper (l : Layout) : Call → Prop
  | setNodeVariable index _ => 1 ≤ index ∧ index ≤ l.nodeVariables
  | _ => True

/-- The table has the slot and the variable of a call. -/
def InTable (l : Layout) : Call → Prop
  | writeEvent slot _ | clearEvent slot => slot < l.slots
  | setEventVariable slot index _ => slot < l.slots ∧ 1 ≤ index ∧ index ≤ l.eventVariables
  | _ => True

theorem run_setNodeVariable {index : Nat} {value : UInt8}
    (h : 1 ≤ index ∧ index ≤ c.layout.nodeVariables) :
    (setNodeVariable index value).run c =
      .ok (c.write (c.layout.nodeVariableAddress index) value) := by
  rw [run, setNodeVariable?_eq h value, Option.getD_some]

/-- A call fails only for a slot or a variable that the table does not have. -/
theorem exists_error_iff (c : Configuration) (call : Call) :
    (∃ e, call.run c = .error e) ↔ ¬ call.InTable c.layout := by
  cases call with
  | writeEvent slot e =>
    show (∃ e', c.writeEvent slot e = .error e') ↔ ¬ slot < c.layout.slots
    unfold Configuration.writeEvent
    split
    · simp_all
    · simp_all
  | clearEvent slot =>
    show (∃ e', c.clearEvent slot = .error e') ↔ ¬ slot < c.layout.slots
    unfold Configuration.clearEvent
    split
    · simp_all
    · simp_all
  | setEventVariable slot index value =>
    show (∃ e', c.setEventVariable slot index value = .error e') ↔
      ¬ (slot < c.layout.slots ∧ 1 ≤ index ∧ index ≤ c.layout.eventVariables)
    constructor
    · rintro ⟨e, h⟩ ⟨hs, h1, h2⟩
      rw [c.setEventVariable_eq hs h1 h2] at h
      contradiction
    · intro h
      rcases hset : c.setEventVariable slot index value with e | d
      · exact ⟨e, rfl⟩
      · exact absurd (setEventVariable_eq_ok hset) h
  | _ => simp [run, InTable]

theorem changesOnly_run {call : Call} (hcall : call.IsProper c.layout)
    (h : call.run c = .ok d) : ChangesOnly call.parts c d := by
  cases call with
  | setMode mode => exact Except.ok.inj h ▸ c.changesOnly_setMode mode
  | setNodeNumber number => exact Except.ok.inj h ▸ c.changesOnly_setNodeNumber number
  | setAddress address => exact Except.ok.inj h ▸ c.changesOnly_setAddress address
  | setHeartbeat on => exact Except.ok.inj h ▸ c.changesOnly_setFlags _
  | setAcknowledge on => exact Except.ok.inj h ▸ c.changesOnly_setFlags _
  | setLearning on => exact Except.ok.inj h ▸ c.changesOnly_setLearning on
  | clearResetMarker =>
    exact Except.ok.inj h ▸ changesOnly_write (List.mem_singleton_self _) (p := .marker) rfl 0
  | setNodeVariable index value =>
    rw [run_setNodeVariable hcall] at h
    rw [← Except.ok.inj h]
    exact changesOnly_setNodeVariable? (setNodeVariable?_eq hcall value)
  | writeEvent slot e =>
    obtain ⟨hs, rfl⟩ := writeEvent_eq_ok h
    exact c.changesOnly_writeHeader hs e
  | clearEvent slot =>
    obtain ⟨hs, rfl⟩ := clearEvent_eq_ok h
    exact c.changesOnly_eraseRecord hs
  | setEventVariable slot index value => exact changesOnly_setEventVariable h
  | clearEvents => exact Except.ok.inj h ▸ c.changesOnly_clearEvents
  | reindex slot => exact Except.ok.inj h ▸ c.changesOnly_reindex slot
  | reindexAll => exact Except.ok.inj h ▸ c.changesOnly_reindexAll

theorem in_of_mem_erasure {l : Layout} {slot : Nat} (hs : slot < l.slots) :
    ∀ x ∈ erasure l slot, x.item.In l := by
  intro x hx
  rcases List.mem_cons.1 hx with rfl | hx
  · intro y hy
    obtain ⟨i, hi, rfl⟩ := List.mem_map.1 hy
    exact ⟨hs, List.mem_range.1 hi⟩
  · obtain ⟨index, hindex, rfl⟩ := List.mem_map.1 hx
    obtain ⟨h1, h2⟩ := List.mem_range'_1.1 hindex
    intro y hy
    rw [List.mem_singleton.1 hy]
    exact ⟨hs, h1, by omega⟩

/-- A call that succeeds assigns to items that there are. -/
theorem in_of_mem_assigns {call : Call} (hcall : call.IsProper c.layout) (h : call.run c = .ok d) :
    ∀ x ∈ call.assigns c, x.item.In c.layout := by
  intro x hx
  cases call with
  | setNodeVariable index value =>
    rw [List.mem_singleton.1 hx]
    intro y hy
    rw [List.mem_singleton.1 hy]
    exact hcall
  | writeEvent slot e =>
    rw [List.mem_singleton.1 hx]
    intro y hy
    obtain ⟨i, hi, rfl⟩ := List.mem_map.1 hy
    exact ⟨(writeEvent_eq_ok h).1, List.mem_range.1 hi⟩
  | clearEvent slot => exact in_of_mem_erasure (clearEvent_eq_ok h).1 x hx
  | setEventVariable slot index value =>
    rw [List.mem_singleton.1 hx]
    intro y hy
    rw [List.mem_singleton.1 hy]
    exact setEventVariable_eq_ok h
  | clearEvents =>
    obtain ⟨slot, hslot, hx⟩ := List.mem_flatMap.1 hx
    exact in_of_mem_erasure (List.mem_range.1 (List.mem_filter.1 hslot).1) x hx
  | reindex slot => exact absurd hx List.not_mem_nil
  | reindexAll => exact absurd hx List.not_mem_nil
  | setLearning on =>
    rw [List.mem_singleton.1 hx]
    intro y hy
    exact absurd hy List.not_mem_nil
  | setNodeNumber number =>
    rw [List.mem_singleton.1 hx]
    intro y hy
    rcases List.mem_cons.1 hy with rfl | hy
    · show nodeNumberAddress < Layout.identitySize
      decide
    · rw [List.mem_singleton.1 hy]
      show nodeNumberAddress + 1 < Layout.identitySize
      decide
  | _ =>
    rw [List.mem_singleton.1 hx]
    intro y hy
    rw [List.mem_singleton.1 hy]
    simp [Layout.Cell.In, modeAddress, busAddressAddress, flagsAddress, resetMarkerAddress,
      Layout.identitySize]

/-- The bytes that a call that succeeds may write. -/
def cells (c : Configuration) (call : Call) : List Cell :=
  (call.assigns c).flatMap fun x => x.item.cells

theorem mem_erasure_of_record {l : Layout} (slot : Nat) {i : Nat} (hi : i < l.recordSize) :
    ∃ x ∈ (erasure l slot).flatMap fun x => x.item.cells,
      l.recordAddress slot + i = x.address l := by
  rcases Layout.exists_cell_of_record slot hi with ⟨h, heq⟩ | ⟨index, h1, h2, heq⟩
  · refine ⟨.header slot i, List.mem_flatMap.2 ⟨_, List.mem_cons_self, ?_⟩, heq⟩
    exact List.mem_map.2 ⟨i, List.mem_range.2 h, rfl⟩
  · have hindex : index ∈ List.range' 1 l.eventVariables := List.mem_range'_1.2 ⟨h1, by omega⟩
    have hmem : ⟨.eventVariable slot index, Store.erased⟩ ∈ erasure l slot :=
      List.mem_cons_of_mem _ (List.mem_map.2 ⟨index, hindex, rfl⟩)
    exact ⟨_, List.mem_flatMap.2 ⟨_, hmem, List.mem_singleton_self _⟩, heq⟩

/-- A call leaves every byte of the store that it does not assign. -/
theorem read_of_run {call : Call} (hcall : call.IsProper c.layout) (h : call.run c = .ok d)
    {a : Nat} (ha : ∀ x ∈ call.cells c, x.address c.layout ≠ a) :
    d.store.read a = c.store.read a := by
  have hch := changesOnly_run hcall h
  cases call with
  | setMode mode =>
    have h0 : modeAddress ≠ a := ha (.identity 0) (List.mem_singleton_self _)
    exact hch.read_of_not_owns h0.symm
  | setNodeNumber number =>
    have h2 : nodeNumberAddress ≠ a := ha (.identity 2) List.mem_cons_self
    have h3 : nodeNumberAddress + 1 ≠ a :=
      ha (.identity 3) (List.mem_cons_of_mem _ List.mem_cons_self)
    exact hch.read_of_not_owns (not_or.2 ⟨h2.symm, h3.symm⟩)
  | setAddress address =>
    have h1 : busAddressAddress ≠ a := ha (.identity 1) (List.mem_singleton_self _)
    exact hch.read_of_not_owns h1.symm
  | setHeartbeat on =>
    have h4 : flagsAddress ≠ a := ha (.identity 4) (List.mem_singleton_self _)
    exact hch.read_of_not_owns h4.symm
  | setAcknowledge on =>
    have h4 : flagsAddress ≠ a := ha (.identity 4) (List.mem_singleton_self _)
    exact hch.read_of_not_owns h4.symm
  | setLearning on => exact hch.read_of_not_owns id
  | clearResetMarker =>
    have h5 : resetMarkerAddress ≠ a := ha (.identity 5) (List.mem_singleton_self _)
    exact hch.read_of_not_owns h5.symm
  | setNodeVariable index value =>
    have hne := ha (.nodeVariable index) (List.mem_singleton_self _)
    rw [run_setNodeVariable hcall] at h
    rw [← Except.ok.inj h]
    exact read_setNodeVariable_of_ne hcall.1 hcall.2 value hne
  | writeEvent slot e =>
    obtain ⟨hs, rfl⟩ := writeEvent_eq_ok h
    refine read_writeHeader_of_ne hs e fun i hi => ?_
    refine ha (.header slot i) (List.mem_flatMap.2 ⟨_, List.mem_singleton_self _, ?_⟩)
    exact List.mem_map.2 ⟨i, List.mem_range.2 hi, rfl⟩
  | clearEvent slot =>
    obtain ⟨hs, rfl⟩ := clearEvent_eq_ok h
    refine read_eraseRecord_of_ne hs fun i hi => ?_
    obtain ⟨x, hx, heq⟩ := mem_erasure_of_record slot hi
    rw [heq]
    exact ha x hx
  | setEventVariable slot index value =>
    exact read_setEventVariable_of_ne h (ha (.eventVariable slot index) (List.mem_singleton_self _))
  | clearEvents =>
    rw [← Except.ok.inj h]
    refine read_clearEvents_of_ne fun slot hs hfree i hi => ?_
    obtain ⟨x, hx, heq⟩ := mem_erasure_of_record slot hi
    obtain ⟨y, hy, hxy⟩ := List.mem_flatMap.1 hx
    have hslot : slot ∈ (List.range c.layout.slots).filter fun slot => !c.isFree slot :=
      List.mem_filter.2 ⟨List.mem_range.2 hs, by rw [hfree]; rfl⟩
    rw [heq]
    exact ha x (List.mem_flatMap.2 ⟨y, List.mem_flatMap.2 ⟨slot, hslot, hy⟩, hxy⟩)
  | reindex slot => exact hch.read_of_not_owns id
  | reindexAll => exact hch.read_of_not_owns id

end Call

end Configuration

end RailNode
