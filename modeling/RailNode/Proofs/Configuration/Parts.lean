import RailNode.Configuration.Reset
import RailNode.Proofs.Layout
import RailNode.Proofs.Store

/-
  The parts of a configuration, and the bytes of the store that belong to each. No byte belongs to
  two parts (`Part.eq_of_owns`), so an operation on one of them leaves what the others read. That
  an operation changes certain parts only is said by `ChangesOnly`, which composes.
-/
namespace RailNode.Configuration

theorem layout_fits (c : Configuration) : c.layout.Fits c.store.capacity :=
  Layout.error?_eq_none_iff.1 c.fits

/-! ## Parts -/

/-- What a configuration consists of. -/
inductive Part where
  | mode
  | address
  | number
  | flags
  /-- The mark of a factory reset, which is only stored. -/
  | marker
  /-- Learn mode, which is not stored. -/
  | learning
  | nodeVariables
  /-- The table of events in the store. -/
  | records
  /-- The index of the table, which is not stored. -/
  | index
deriving DecidableEq, Repr

/-- Whether a byte of the store belongs to a part. -/
def Part.Owns (l : Layout) (a : Nat) : Part → Prop
  | mode => a = modeAddress
  | address => a = busAddressAddress
  | number => a = nodeNumberAddress ∨ a = nodeNumberAddress + 1
  | flags => a = flagsAddress
  | marker => a = resetMarkerAddress
  | learning => False
  | nodeVariables => l.InNodeVariables a
  | records => l.InEvents a
  | index => False

theorem Part.eq_of_owns {l : Layout} {capacity a : Nat} (hf : l.Fits capacity) {p q : Part}
    (hp : p.Owns l a) (hq : q.Owns l a) : p = q := by
  have he : l.InEvents a → 10 ≤ a := hf.identitySize_le_of_inEvents
  have hv : l.InNodeVariables a → 10 ≤ a := hf.identitySize_le_of_inNodeVariables
  have hve : l.InNodeVariables a → ¬ l.InEvents a := hf.not_inEvents_of_inNodeVariables
  cases p <;> cases q <;>
    simp only [Owns, modeAddress, busAddressAddress, nodeNumberAddress, flagsAddress,
      resetMarkerAddress] at hp hq <;>
    first | rfl | (exfalso; grind)

theorem Part.lt_capacity_of_owns {l : Layout} {capacity a : Nat} (hf : l.Fits capacity) {p : Part}
    (h : p.Owns l a) : a < capacity := by
  have hid : 10 ≤ capacity := hf.identitySize_le_capacity
  cases p with
  | learning => exact h.elim
  | index => exact h.elim
  | nodeVariables => exact hf.lt_capacity_of_inNodeVariables h
  | records => exact hf.lt_capacity_of_inEvents h
  | _ =>
    simp only [Owns, modeAddress, busAddressAddress, nodeNumberAddress, flagsAddress,
      resetMarkerAddress] at h
    omega

/-- The second configuration differs from the first in these parts at most. -/
structure ChangesOnly (A : List Part) (c d : Configuration) : Prop where
  layout : d.layout = c.layout
  read : ∀ a, (∀ p ∈ A, ¬ p.Owns c.layout a) → d.store.read a = c.store.read a
  mode : .mode ∉ A → d.mode = c.mode
  nodeNumber : .number ∉ A → d.nodeNumber = c.nodeNumber
  address : .address ∉ A → d.address = c.address
  flags : .flags ∉ A → d.flags = c.flags
  learning : .learning ∉ A → d.learning = c.learning
  index : .index ∉ A → d.index.toList = c.index.toList

namespace ChangesOnly

variable {A B : List Part} {c d e : Configuration}

theorem refl (A : List Part) (c : Configuration) : ChangesOnly A c c :=
  ⟨rfl, fun _ _ => rfl, fun _ => rfl, fun _ => rfl, fun _ => rfl, fun _ => rfl, fun _ => rfl,
    fun _ => rfl⟩

theorem trans (h : ChangesOnly A c d) (h' : ChangesOnly A d e) : ChangesOnly A c e where
  layout := h'.layout.trans h.layout
  read a ha := (h'.read a (by rw [h.layout]; exact ha)).trans (h.read a ha)
  mode hA := (h'.mode hA).trans (h.mode hA)
  nodeNumber hA := (h'.nodeNumber hA).trans (h.nodeNumber hA)
  address hA := (h'.address hA).trans (h.address hA)
  flags hA := (h'.flags hA).trans (h.flags hA)
  learning hA := (h'.learning hA).trans (h.learning hA)
  index hA := (h'.index hA).trans (h.index hA)

theorem mono (h : ChangesOnly A c d) (hAB : A ⊆ B) : ChangesOnly B c d where
  layout := h.layout
  read a ha := h.read a fun p hp => ha p (hAB hp)
  mode hB := h.mode fun hA => hB (hAB hA)
  nodeNumber hB := h.nodeNumber fun hA => hB (hAB hA)
  address hB := h.address fun hA => hB (hAB hA)
  flags hB := h.flags fun hA => hB (hAB hA)
  learning hB := h.learning fun hA => hB (hAB hA)
  index hB := h.index fun hA => hB (hAB hA)

/-- The bytes of a part that is not among the changed ones stay. -/
theorem read_of_owns (h : ChangesOnly A c d) {p : Part} (hp : p ∉ A) {a : Nat}
    (ha : p.Owns c.layout a) : d.store.read a = c.store.read a :=
  h.read a fun _ hq hqa => hp (Part.eq_of_owns c.layout_fits ha hqa ▸ hq)

end ChangesOnly

/-! ## The stored identity -/

theorem identity_lt_capacity (c : Configuration) {a : Nat} (h : a < Layout.identitySize) :
    a < c.store.capacity :=
  Nat.lt_of_lt_of_le h c.layout_fits.identitySize_le_capacity

/-- The stored node number. -/
def storedNumber (c : Configuration) : UInt16 := c.readWord nodeNumberAddress

/-- The stored mode byte. -/
def storedMode (c : Configuration) : UInt8 := c.store.read modeAddress

theorem readWord_eq (c : Configuration) {a : Nat} (h : a + 2 ≤ c.store.capacity) :
    c.readWord a = Word.join (c.store.read a) (c.store.read (a + 1)) := by
  rw [readWord, Store.readBytes_eq_map h, ← Word.ofBytes_pair]
  rfl

theorem storedNumber_eq (c : Configuration) :
    c.storedNumber =
      Word.join (c.store.read nodeNumberAddress) (c.store.read (nodeNumberAddress + 1)) :=
  c.readWord_eq (c.identity_lt_capacity (a := 3) (by decide))

namespace ChangesOnly

variable {A : List Part} {c d : Configuration}

theorem storedMode (h : ChangesOnly A c d) (hA : Part.mode ∉ A) : d.storedMode = c.storedMode :=
  h.read_of_owns hA rfl

theorem storedNumber (h : ChangesOnly A c d) (hA : Part.number ∉ A) :
    d.storedNumber = c.storedNumber := by
  rw [storedNumber_eq, storedNumber_eq, h.read_of_owns hA (Or.inl rfl),
    h.read_of_owns hA (Or.inr rfl)]

end ChangesOnly

/-! ## Records -/

/-- A byte of the record of a slot. -/
def recordByte (c : Configuration) (slot i : Nat) : UInt8 :=
  c.store.read (c.layout.recordAddress slot + i)

/-- The four bytes of the identity in the record of a slot. -/
def recordHeader (c : Configuration) (slot : Nat) : List UInt8 :=
  (List.range Layout.recordHeaderSize).map (c.recordByte slot)

/-- The variables in the record of a slot. -/
def variableBytes (c : Configuration) (slot : Nat) : List UInt8 :=
  (List.range c.layout.eventVariables).map fun i =>
    c.recordByte slot (Layout.recordHeaderSize + i)

@[simp]
theorem length_recordHeader (c : Configuration) (slot : Nat) :
    (c.recordHeader slot).length = Layout.recordHeaderSize := by
  rw [recordHeader, List.length_map, List.length_range]

@[simp]
theorem length_variables (c : Configuration) (slot : Nat) :
    (c.variableBytes slot).length = c.layout.eventVariables := by
  rw [variableBytes, List.length_map, List.length_range]

theorem readBytes_header (c : Configuration) {slot : Nat} (h : slot < c.layout.slots) :
    c.store.readBytes (c.layout.recordAddress slot) Layout.recordHeaderSize =
      c.recordHeader slot := by
  have h1 := c.layout_fits.record_le_capacity h
  have h2 := c.layout.recordHeaderSize_le_recordSize
  exact Store.readBytes_eq_map (by omega)

theorem record?_eq (c : Configuration) {slot : Nat} (h : slot < c.layout.slots) :
    c.record? slot =
      if c.recordHeader slot = List.replicate Layout.recordHeaderSize Store.erased then none
      else some (EventId.ofBytes (c.recordHeader slot)) := by
  simp only [record?, c.readBytes_header h]

/-- The identity that is read from a slot is the one that its record spells. -/
theorem event_eq (c : Configuration) {slot : Nat} (h : slot < c.layout.slots) :
    c.event slot = .ok (EventId.ofBytes (c.recordHeader slot)) := by
  have h1 := c.layout_fits.record_le_capacity h
  have h2 : 4 ≤ c.layout.recordSize := c.layout.recordHeaderSize_le_recordSize
  rw [event, if_pos h]
  dsimp only
  rw [c.readWord_eq (by omega), c.readWord_eq (by omega), ← Word.ofBytes_pair,
    ← Word.ofBytes_pair]
  rfl

/-- An event in the record of a slot is the identity that is read from it. -/
theorem event_of_record? (c : Configuration) {slot : Nat} (h : slot < c.layout.slots)
    {e : EventId} (he : c.record? slot = some e) : c.event slot = .ok e := by
  rw [c.record?_eq h] at he
  split at he
  · contradiction
  · rw [c.event_eq h, Option.some.inj he]

/-! ## Records that stay -/

theorem ChangesOnly.recordByte {A : List Part} {c d : Configuration} (h : ChangesOnly A c d)
    (hA : Part.records ∉ A) {slot i : Nat} (hs : slot < c.layout.slots)
    (hi : i < c.layout.recordSize) : d.recordByte slot i = c.recordByte slot i := by
  unfold Configuration.recordByte
  rw [h.layout]
  exact h.read_of_owns hA (Layout.inEvents_record hs hi)

theorem recordHeader_congr {c d : Configuration} {slot : Nat}
    (h : ∀ i < c.layout.recordSize, d.recordByte slot i = c.recordByte slot i) :
    d.recordHeader slot = c.recordHeader slot := by
  have h4 := c.layout.recordHeaderSize_le_recordSize
  refine List.map_congr_left fun i hi => h i ?_
  exact Nat.lt_of_lt_of_le (List.mem_range.1 hi) h4

theorem variables_congr {c d : Configuration} {slot : Nat} (hl : d.layout = c.layout)
    (h : ∀ i < c.layout.recordSize, d.recordByte slot i = c.recordByte slot i) :
    d.variableBytes slot = c.variableBytes slot := by
  unfold variableBytes
  rw [hl]
  refine List.map_congr_left fun i hi => h _ ?_
  exact Nat.add_lt_add_left (List.mem_range.1 hi) _

theorem record?_congr {c d : Configuration} {slot : Nat} (hl : d.layout = c.layout)
    (h : d.recordHeader slot = c.recordHeader slot) (hs : slot < c.layout.slots) :
    d.record? slot = c.record? slot := by
  rw [c.record?_eq hs, d.record?_eq (hl ▸ hs), h]

theorem ChangesOnly.record? {A : List Part} {c d : Configuration} (h : ChangesOnly A c d)
    (hA : Part.records ∉ A) {slot : Nat} (hs : slot < c.layout.slots) :
    d.record? slot = c.record? slot :=
  record?_congr h.layout (recordHeader_congr fun _ hi => h.recordByte hA hs hi) hs

end RailNode.Configuration
