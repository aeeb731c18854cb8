import RailNode.Proofs.Checked.EventTable

/-
  Factory reset and start-up under bounds, and the check of a layout, which takes its sums before
  it knows that they are inside the store.
-/
namespace RailNode.Checked.Configuration

open RailNode.Configuration

/-! ## The check of a layout -/

section Layout

variable {l : Layout} {limit capacity : Nat}

def nodeVariableEnd (limit : Nat) (l : Layout) : Except Halt Nat :=
  add limit l.nodeVariableStart l.nodeVariables

def eventEnd (limit : Nat) (l : Layout) : Except Halt Nat := do
  let size ← add limit Layout.recordHeaderSize l.eventVariables
  let table ← mul limit l.slots size
  add limit l.eventStart table

def overlaps (limit : Nat) (l : Layout) : Except Halt Bool := do
  if l.nodeVariableStart < Layout.identitySize || l.eventStart < Layout.identitySize then
    return true
  let nodeVariableEnd ← nodeVariableEnd limit l
  let eventEnd ← eventEnd limit l
  return l.nodeVariableStart < eventEnd && l.eventStart < nodeVariableEnd

/-- What is wrong with a layout for a store of this capacity, if anything. -/
def error? (capacity : Nat) (l : Layout) : Except Halt (Option LayoutError) := do
  let limit := max sizeLimit capacity
  let overlap ← overlaps limit l
  if overlap then return some .overlap
  if Layout.maxEventVariables < l.eventVariables then return some .tooManyEventVariables
  let eventEnd ← eventEnd limit l
  if capacity < eventEnd then return some .outOfCapacity
  let nodeVariableEnd ← nodeVariableEnd limit l
  if capacity < nodeVariableEnd then return some .outOfCapacity
  return none

theorem eventEnd_eq (hsize : l.recordSize ≤ limit) (h : l.eventEnd ≤ limit) :
    eventEnd limit l = .ok l.eventEnd := by
  have htable : l.slots * l.recordSize ≤ limit := Nat.le_trans (Nat.le_add_left _ _) h
  rw [eventEnd, add_eq hsize, ok_bind]
  show (do let table ← mul limit l.slots l.recordSize; _) = _
  rw [mul_eq htable, ok_bind, add_eq h]
  rfl

/-- The check of a layout that fits its store passes no bound. -/
theorem error?_eq (h : l.Fits capacity) : error? capacity l = .ok none := by
  have hlimit : sizeLimit ≤ max sizeLimit capacity := Nat.le_max_left _ _
  have hcapacity : capacity ≤ max sizeLimit capacity := Nat.le_max_right _ _
  have hsize : l.recordSize ≤ max sizeLimit capacity := by
    have hvariables : l.eventVariables ≤ 20 := h.eventVariables_le
    have hsize : Layout.recordHeaderSize + l.eventVariables ≤ sizeLimit := by
      unfold Layout.recordHeaderSize sizeLimit
      omega
    exact Nat.le_trans hsize hlimit
  have hend := eventEnd_eq hsize (Nat.le_trans h.eventEnd_le hcapacity)
  have hvariables : nodeVariableEnd (max sizeLimit capacity) l = .ok l.nodeVariableEnd :=
    add_eq (Nat.le_trans h.nodeVariableEnd_le hcapacity)
  have hoverlaps : overlaps (max sizeLimit capacity) l = .ok false := by
    have hfalse := (Layout.overlaps_eq_false_iff l).2
      ⟨h.identity_le_nodeVariables, h.identity_le_events, h.apart⟩
    simp only [Layout.overlaps, Bool.or_eq_false_iff] at hfalse
    rw [overlaps, if_neg (by simp [hfalse.1]), hvariables, ok_bind, hend, ok_bind, hfalse.2]
    rfl
  rw [error?, hoverlaps, ok_bind, if_neg (by decide), if_neg (Nat.not_lt.2 h.eventVariables_le),
    hend, ok_bind, if_neg (Nat.not_lt.2 h.eventEnd_le), hvariables, ok_bind,
    if_neg (Nat.not_lt.2 h.nodeVariableEnd_le)]
  rfl

end Layout

/-- The greatest number of slots for which the index has room. -/
def indexCapacity : Nat := 255

/-- A configuration over a store from which nothing has been read yet. -/
def ofStore (layout : Layout) (store : Store) :
    Except Halt (Except LayoutError Configuration) := do
  match ← error? store.capacity layout with
  | some e => return .error e
  | none =>
    ensure (layout.slots ≤ indexCapacity)
    return RailNode.Configuration.ofStore layout store

theorem ofStore_eq {l : Layout} {s : Store} (h : l.error? s.capacity = none) :
    ofStore l s = .ok (RailNode.Configuration.ofStore l s) := by
  have hslots : l.slots ≤ indexCapacity := Nat.le_of_lt_succ l.eventCount.toNat_lt
  rw [ofStore, error?_eq (Layout.error?_eq_none_iff.1 h), ok_bind]
  dsimp only
  rw [ensure_eq hslots]
  rfl

/-! ## Factory reset and start-up -/

def factoryReset (c : Configuration) : Except Halt Configuration := do
  let c ← setMode .uninitialised c.erase
  let c ← setNodeNumber 0 c
  let c ← setAddress .unassigned c
  let c ← setFlags defaultFlags c
  let c ← clearNodeVariables c
  let c ← write resetMarkerAddress resetPerformed c
  return (c.setLearning false).clearIndex

/-- Reads the identity from the store and indexes the events; a virgin store is reset instead. -/
def start (c : Configuration) : Except Halt Start := do
  let mode ← read modeAddress c
  let number ← readWord nodeNumberAddress c
  if mode == Store.erased && number == 0xffff then
    let c ← factoryReset c
    return .restart c
  let address ← read busAddressAddress c
  let flags ← read flagsAddress c
  let c ← reindexAll
    { c with
      nodeNumber := number
      mode := startMode mode number
      address := .truncate address
      flags
      learning := false }
  return .ready c

@[simp]
theorem factoryReset_eq (c : Configuration) : factoryReset c = .ok c.factoryReset := by
  simp only [factoryReset, setMode_eq, setNodeNumber_eq, setAddress_eq, setFlags_eq,
    clearNodeVariables_eq, ok_bind]
  rw [write_eq _ (identity_lt_capacity _ (by decide))]
  rfl

@[simp]
theorem start_eq (c : Configuration) : start c = .ok c.start := by
  have hread {a : Nat} (ha : a < Layout.identitySize) : read a c = .ok (c.store.read a) :=
    read_eq (c.identity_lt_capacity ha)
  have hnumber : readWord nodeNumberAddress c = .ok (c.readWord nodeNumberAddress) :=
    readWord_eq (c.identity_lt_capacity (a := 3) (by decide))
  rw [start, hread (by decide), ok_bind, hnumber, ok_bind]
  unfold RailNode.Configuration.start isVirgin
  split_ifs with hvirgin
  · rw [factoryReset_eq]
    rfl
  · rw [hread (by decide), ok_bind, hread (by decide), ok_bind, reindexAll_eq]
    rfl

end RailNode.Checked.Configuration
