import Mathlib.Data.List.GetD
import RailNode.Proofs.Configuration.Capacity

/-
  What a factory reset leaves. It depends on the layout and on the size of the store only
  (`contents_factoryReset`): the identity is the one in `factoryIdentity`, the node variables are 0
  and everything else is erased. So a second reset changes nothing (`factoryReset_factoryReset`),
  and a start over the store that a reset has left finds it as it is (`start_factoryReset`).
-/
namespace RailNode

/-! ## Stores -/

namespace Store

theorem read_eq_getElem {s : Store} {a : Nat} (h : a < s.bytes.size) : s.read a = s.bytes[a] := by
  unfold read
  rw [Array.getD_eq_getD_getElem?, Array.getElem?_eq_getElem h, Option.getD_some]

theorem transfer_writeEach (s : Store) (a : Nat) (vs : List UInt8) :
    (s.writeEach a vs).transfer = s.transfer := by
  induction vs generalizing s a with
  | nil => rfl
  | cons v vs ih => exact ih (s.write a v) (a + 1)

theorem transfer_writeBytes (s : Store) (a : Nat) (vs : List UInt8) :
    (s.writeBytes a vs).transfer = s.transfer := by
  unfold writeBytes
  split
  · rfl
  · exact s.transfer_writeEach a vs

end Store

namespace Configuration

variable {c d : Configuration}

/-! ## Everything that a configuration holds -/

/-- What a configuration holds in its store and in memory, apart from the way in which its store
    moves several bytes. -/
@[ext]
structure Contents where
  layout : Layout
  bytes : Array UInt8
  mode : Mode
  nodeNumber : UInt16
  address : BusAddress
  flags : UInt8
  learning : Bool
  index : List UInt8
deriving DecidableEq, Repr

def contents (c : Configuration) : Contents where
  layout := c.layout
  bytes := c.store.bytes
  mode := c.mode
  nodeNumber := c.nodeNumber
  address := c.address
  flags := c.flags
  learning := c.learning
  index := c.index.toList

/-- Configurations over stores of one kind that hold the same are the same. -/
theorem eq_of_contents (h : d.contents = c.contents) (ht : d.store.transfer = c.store.transfer) :
    d = c := by
  obtain ⟨l, ⟨b, k⟩, m, w, a, f, on, ix, fits⟩ := c
  obtain ⟨l', ⟨b', k'⟩, m', w', a', f', on', ix', fits'⟩ := d
  obtain ⟨rfl, rfl, rfl, rfl, rfl, rfl, rfl, hix⟩ := Contents.mk.inj h
  obtain rfl : k' = k := ht
  obtain rfl : ix' = ix := Vector.toList_inj.1 hix
  rfl

/-! ## The store after a factory reset -/

/-- The bytes of the identity after a factory reset. -/
def factoryIdentity : List UInt8 :=
  [Mode.uninitialised.byte, BusAddress.unassigned.byte, 0, 0, defaultFlags, resetPerformed]

instance (l : Layout) (a : Nat) : Decidable (l.InNodeVariables a) :=
  inferInstanceAs (Decidable (_ ∧ _))

/-- A byte of the store after a factory reset. -/
def factoryByte (l : Layout) (a : Nat) : UInt8 :=
  if l.InNodeVariables a then 0 else factoryIdentity.getD a Store.erased

/-- What a configuration holds after a factory reset. -/
def factoryContents (l : Layout) (capacity : Nat) : Contents where
  layout := l
  bytes := Array.ofFn fun a : Fin capacity => factoryByte l a
  mode := .uninitialised
  nodeNumber := 0
  address := .unassigned
  flags := defaultFlags
  learning := false
  index := List.replicate l.slots 0

theorem read_setNodeNumber (c : Configuration) (w : UInt16) {i : Nat} (hi : i < 2) :
    (c.setNodeNumber w).store.read (nodeNumberAddress + i) = (Word.bytes w)[i] :=
  Store.read_writeBytes_inside (c.identity_lt_capacity (a := 3) (by decide)) hi

theorem read_factoryReset_number (c : Configuration) {i : Nat} (hi : i < 2) :
    c.factoryReset.store.read (nodeNumberAddress + i) = (Word.bytes 0)[i] := by
  have howns : Part.Owns c.layout (nodeNumberAddress + i) .number := by
    show _ = _ ∨ _ = _
    omega
  rw [(changesOnly_factoryReset_of_address c).read_of_owns (by decide) howns]
  exact read_setNodeNumber _ 0 hi

theorem read_factoryReset_address (c : Configuration) :
    c.factoryReset.store.read busAddressAddress = BusAddress.unassigned.byte := by
  rw [(changesOnly_factoryReset_of_flags c).read_of_owns (p := .address) (by decide) rfl]
  exact read_write_identity _ (by decide) _

theorem read_factoryReset_flags (c : Configuration) :
    c.factoryReset.store.read flagsAddress = defaultFlags := by
  rw [factoryReset_eq, (changesOnly_resetRest _).read_of_owns (p := .flags) (by decide) rfl]
  exact read_write_identity _ (by decide) _

theorem read_factoryReset_marker (c : Configuration) :
    c.factoryReset.store.read resetMarkerAddress = resetPerformed :=
  read_write_identity _ (by decide) _

/-- Every node variable is 0 after they are cleared. -/
theorem read_clearNodeVariables (c : Configuration) {a : Nat} (ha : c.layout.InNodeVariables a) :
    c.clearNodeVariables.store.read a = 0 := by
  have hcap : ∀ index ∈ List.range' 1 c.layout.nodeVariables,
      c.layout.nodeVariableAddress index < c.store.capacity := by
    intro index hindex
    obtain ⟨h1, h2⟩ := List.mem_range'_1.1 hindex
    exact c.layout_fits.lt_capacity_of_inNodeVariables
      (Layout.inNodeVariables_address h1 (by omega))
  unfold clearNodeVariables
  rw [read_foldl_write hcap, if_pos]
  obtain ⟨h1, h2⟩ := ha
  unfold Layout.nodeVariableEnd at h2
  refine ⟨a - c.layout.nodeVariableStart + 1, List.mem_range'_1.2 ⟨by omega, by omega⟩, ?_⟩
  unfold Layout.nodeVariableAddress
  omega

theorem read_factoryReset_nodeVariable (c : Configuration) {a : Nat}
    (ha : c.layout.InNodeVariables a) : c.factoryReset.store.read a = 0 := by
  have hbehind : 10 ≤ a := c.layout_fits.identitySize_le_of_inNodeVariables ha
  let e := (c.erase.setMode .uninitialised |>.setNodeNumber 0 |>.setAddress .unassigned
    |>.setFlags defaultFlags)
  show (e.clearNodeVariables.store.write resetMarkerAddress resetPerformed).read a = 0
  have hmarker : resetMarkerAddress < e.clearNodeVariables.store.capacity :=
    e.clearNodeVariables.identity_lt_capacity (by decide)
  rw [Store.read_write _ hmarker, if_neg]
  · exact e.read_clearNodeVariables ha
  · show a ≠ 5
    omega

/-- A byte that belongs to no part of the identity and to no node variable is erased. -/
theorem read_factoryReset_of_else (c : Configuration) {a : Nat}
    (ha : ¬ c.layout.InNodeVariables a) (hbehind : factoryIdentity.length ≤ a) :
    c.factoryReset.store.read a = Store.erased := by
  have hbehind : 6 ≤ a := hbehind
  rw [(changesOnly_factoryReset c).read a ?_]
  · exact Store.read_erase c.store a
  · intro p hp howns
    cases p with
    | nodeVariables => exact ha howns
    | records => revert hp; decide
    | learning => exact howns
    | index => exact howns
    | _ =>
      simp only [Part.Owns, modeAddress, busAddressAddress, nodeNumberAddress, flagsAddress,
        resetMarkerAddress] at howns
      omega

theorem read_factoryReset (c : Configuration) (a : Nat) :
    c.factoryReset.store.read a = factoryByte c.layout a := by
  unfold factoryByte
  split
  · rename_i ha
    exact c.read_factoryReset_nodeVariable ha
  · rename_i ha
    match a with
    | 0 => exact c.storedMode_factoryReset
    | 1 => exact c.read_factoryReset_address
    | 2 => exact c.read_factoryReset_number (i := 0) (by decide)
    | 3 => exact c.read_factoryReset_number (i := 1) (by decide)
    | 4 => exact c.read_factoryReset_flags
    | 5 => exact c.read_factoryReset_marker
    | a + 6 =>
      have hbehind : factoryIdentity.length ≤ a + 6 := Nat.le_add_left 6 a
      rw [c.read_factoryReset_of_else ha hbehind, List.getD_eq_default _ _ hbehind]

theorem transfer_foldl_write {α : Type} (f : α → Nat) (xs : List α) (v : UInt8)
    (c : Configuration) :
    (xs.foldl (fun d x => d.write (f x) v) c).store.transfer = c.store.transfer :=
  List.foldlRecOn xs _ (motive := fun d : Configuration => d.store.transfer = c.store.transfer) rfl
    fun _ hd _ _ => hd

theorem transfer_factoryReset (c : Configuration) :
    c.factoryReset.store.transfer = c.store.transfer := by
  show (clearNodeVariables _).store.transfer = _
  unfold clearNodeVariables
  rw [transfer_foldl_write]
  exact Store.transfer_writeBytes _ _ _

/-! ## What a factory reset leaves -/

theorem address_factoryReset (c : Configuration) : c.factoryReset.address = .unassigned :=
  (changesOnly_factoryReset_of_flags c).address (by decide)

theorem flags_factoryReset (c : Configuration) : c.factoryReset.flags = defaultFlags := by
  rw [factoryReset_eq, (changesOnly_resetRest _).flags (by decide)]
  rfl

theorem toList_index_factoryReset (c : Configuration) :
    c.factoryReset.index.toList = List.replicate c.layout.slots 0 := by
  have hindex : c.factoryReset.index.toList = List.replicate c.factoryReset.layout.slots 0 :=
    Vector.toList_replicate
  rw [hindex, c.layout_factoryReset]

/-- After a factory reset a configuration holds what its layout and the size of its store say,
    whatever it held before. -/
theorem contents_factoryReset (c : Configuration) :
    c.factoryReset.contents = factoryContents c.layout c.store.capacity := by
  have hbytes : c.factoryReset.store.bytes =
      Array.ofFn fun a : Fin c.store.capacity => factoryByte c.layout a := by
    refine Array.ext ?_ fun a ha _ => ?_
    · rw [Array.size_ofFn]
      exact c.capacity_factoryReset
    · rw [← Store.read_eq_getElem ha, c.read_factoryReset, Array.getElem_ofFn]
  exact Contents.ext c.layout_factoryReset hbytes c.mode_factoryReset c.nodeNumber_factoryReset
    c.address_factoryReset c.flags_factoryReset c.learning_factoryReset c.toList_index_factoryReset

/-- A second factory reset changes nothing. -/
theorem factoryReset_factoryReset (c : Configuration) :
    c.factoryReset.factoryReset = c.factoryReset := by
  refine eq_of_contents ?_ (transfer_factoryReset _)
  rw [contents_factoryReset, contents_factoryReset, c.layout_factoryReset,
    c.capacity_factoryReset]

/-- The state of a node as it leaves the factory. -/
structure AsNew (c : Configuration) : Prop where
  mode : c.mode = .uninitialised
  nodeNumber : c.nodeNumber = 0
  address : c.address.byte = 0
  heartbeat : c.heartbeat = true
  acknowledge : c.acknowledge = false
  learning : c.learning = false
  nodeVariable? : ∀ index, 1 ≤ index → index ≤ c.layout.nodeVariables →
    c.nodeVariable? index = some 0
  isFree : ∀ slot < c.layout.slots, c.isFree slot = true
  recordByte : ∀ slot < c.layout.slots, ∀ i < c.layout.recordSize,
    c.recordByte slot i = Store.erased
  resetMarked : c.resetMarked = true

theorem asNew_factoryReset (c : Configuration) : c.factoryReset.AsNew where
  mode := c.mode_factoryReset
  nodeNumber := c.nodeNumber_factoryReset
  address := by
    rw [c.address_factoryReset]
    rfl
  heartbeat := by
    unfold Configuration.heartbeat
    rw [c.flags_factoryReset]
    rfl
  acknowledge := by
    unfold Configuration.acknowledge
    rw [c.flags_factoryReset]
    rfl
  learning := c.learning_factoryReset
  nodeVariable? := by
    intro index h1 h2
    unfold Configuration.nodeVariable? nodeVariableAddress?
    rw [if_pos ⟨h1, h2⟩, Option.map_some]
    rw [c.layout_factoryReset] at h2 ⊢
    exact congrArg some (c.read_factoryReset_nodeVariable (Layout.inNodeVariables_address h1 h2))
  isFree := by
    intro slot hs
    refine ((indexAgrees_factoryReset c).isFree_iff hs).2 fun i hi => ?_
    have h4 := c.layout.recordHeaderSize_le_recordSize
    rw [c.layout_factoryReset] at hs
    exact c.recordByte_factoryReset hs (Nat.lt_of_lt_of_le hi h4)
  recordByte := by
    intro slot hs i hi
    rw [c.layout_factoryReset] at hs hi
    exact c.recordByte_factoryReset hs hi
  resetMarked := by
    unfold Configuration.resetMarked
    rw [c.read_factoryReset_marker]
    rfl

/-! ## The next start -/

theorem isVirgin_of_reset (hs : d.store = c.factoryReset.store) : d.isVirgin = false := by
  rw [isVirgin_eq, storedNumber_congr hs, c.storedNumber_factoryReset]
  exact Bool.and_false _

/-- What is read from the store that a factory reset has left is what the reset has left in
    memory. -/
theorem load_of_reset (hl : d.layout = c.layout) (hs : d.store = c.factoryReset.store) :
    d.load = c.factoryReset := by
  have hl' : d.layout = c.factoryReset.layout := hl.trans c.layout_factoryReset.symm
  have hindex : d.load.index.toList = c.factoryReset.index.toList := by
    rw [d.indexAgrees_load.toList_index, (indexAgrees_factoryReset c).toList_index, d.layout_load,
      hl']
    refine List.map_congr_left fun slot _ => indexEntry_congr ?_
    exact record?_congr_store (d.layout_load.trans hl') (d.store_load.trans hs) slot
  refine eq_of_contents (Contents.ext ?layout ?bytes ?mode ?number ?address ?flags ?learning hindex)
    (by rw [d.store_load, hs])
  case layout => exact d.layout_load.trans hl'
  case bytes => exact congrArg Store.bytes (d.store_load.trans hs)
  case mode =>
    show d.load.mode = c.factoryReset.mode
    rw [d.mode_load, storedMode_congr hs, storedNumber_congr hs, c.storedMode_factoryReset,
      c.storedNumber_factoryReset, c.mode_factoryReset]
    rfl
  case number =>
    show d.load.nodeNumber = c.factoryReset.nodeNumber
    rw [d.nodeNumber_load, storedNumber_congr hs, c.storedNumber_factoryReset,
      c.nodeNumber_factoryReset]
  case address =>
    show d.load.address = c.factoryReset.address
    rw [d.address_load, hs, c.read_factoryReset_address, c.address_factoryReset,
      BusAddress.truncate_byte]
  case flags =>
    show d.load.flags = c.factoryReset.flags
    rw [d.flags_load, hs, c.read_factoryReset_flags, c.flags_factoryReset]
  case learning => exact d.learning_load.trans c.learning_factoryReset.symm

/-- A start over the store that a factory reset has left does not restart. -/
theorem start_of_reset (hl : d.layout = c.layout) (hs : d.store = c.factoryReset.store) :
    d.start = .ready c.factoryReset := by
  unfold start
  rw [isVirgin_of_reset hs, if_neg (by decide), load_of_reset hl hs]

end Configuration

end RailNode
