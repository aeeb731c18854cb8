import RailNode.Proofs.Configuration.FactoryReset
import RailNode.Proofs.Configuration.Items
import RailNode.Recognition

/-
  Configurations over stores that move several bytes in different ways. Inside the store both ways
  do the same (`readBytes_moving`, `writeBytes_moving`), and a configuration never leaves its store.
  So every operation commutes with a change of the way, and whatever is done with configurations
  over a store comes to the same replies and the same bytes (`visits_moving`).
-/
namespace RailNode

variable {k : Transfer}

/-! ## Stores -/

namespace Store

variable {s : Store} {a n : Nat} {vs : List UInt8}

/-- The same bytes, moved in this way. -/
def moving (k : Transfer) (s : Store) : Store := { s with transfer := k }

theorem eq_of_read {s' : Store} (hcapacity : s'.capacity = s.capacity)
    (hread : ∀ i, s'.read i = s.read i) (ht : s'.transfer = s.transfer) : s' = s := by
  obtain ⟨bytes, transfer⟩ := s
  obtain ⟨bytes', transfer'⟩ := s'
  obtain rfl : transfer' = transfer := ht
  have hbytes : bytes' = bytes := by
    refine Array.ext hcapacity fun i h h' => ?_
    have heq := hread i
    rwa [read_eq_getElem (s := ⟨bytes', transfer'⟩) h,
      read_eq_getElem (s := ⟨bytes, transfer'⟩) h'] at heq
  rw [hbytes]

theorem readBytes_moving (h : a + n ≤ s.capacity) :
    (s.moving k).readBytes a n = s.readBytes a n := by
  have hmoving : a + n ≤ (s.moving k).capacity := h
  rw [readBytes_eq_map h, readBytes_eq_map hmoving]
  rfl

-- Outside the store the two ways differ.
example : (blank 1 .block).readBytes 0 2 ≠ (blank 1 .bytewise).readBytes 0 2 := by decide

theorem writeBytes_moving (h : a + vs.length ≤ s.capacity) :
    (s.moving k).writeBytes a vs = (s.writeBytes a vs).moving k := by
  have hmoving : a + vs.length ≤ (s.moving k).capacity := h
  refine eq_of_read ?_ (fun i => ?_) (transfer_writeBytes _ a vs)
  · rw [capacity_writeBytes]
    exact (s.capacity_writeBytes a vs).symm
  · rw [read_writeBytes hmoving]
    exact (read_writeBytes h i).symm

end Store

/-! ## Configurations -/

namespace Configuration

variable {c : Configuration} {slot : Nat}

/-- The same configuration over a store that moves several bytes in this way. -/
def moving (k : Transfer) (c : Configuration) : Configuration :=
  { c with
    store := c.store.moving k
    fits := c.fits }

@[simp]
theorem layout_moving : (c.moving k).layout = c.layout := rfl

@[simp]
theorem mode_moving : (c.moving k).mode = c.mode := rfl

@[simp]
theorem nodeNumber_moving : (c.moving k).nodeNumber = c.nodeNumber := rfl

@[simp]
theorem address_moving : (c.moving k).address = c.address := rfl

@[simp]
theorem learning_moving : (c.moving k).learning = c.learning := rfl

@[simp]
theorem contents_moving : (c.moving k).contents = c.contents := rfl

/-! ### Several bytes -/

theorem readWord_moving {a : Nat} (h : a + 2 ≤ c.store.capacity) :
    (c.moving k).readWord a = c.readWord a :=
  congrArg Word.ofBytes (Store.readBytes_moving h)

theorem writeBytes_moving {a : Nat} {vs : List UInt8} (h : a + vs.length ≤ c.store.capacity) :
    (c.moving k).writeBytes a vs = (c.writeBytes a vs).moving k := by
  simp only [writeBytes, moving, Store.writeBytes_moving h]

/-- Single bytes are written in the same way everywhere. -/
theorem foldl_write_moving {α : Type} (f : α → Nat) (v : UInt8) (xs : List α)
    (c : Configuration) : xs.foldl (fun d x => d.write (f x) v) (c.moving k) =
      (xs.foldl (fun d x => d.write (f x) v) c).moving k :=
  List.foldl_hom (moving k) fun _ _ => rfl

/-! ### The identity -/

theorem setNodeNumber_moving (w : UInt16) :
    (c.moving k).setNodeNumber w = (c.setNodeNumber w).moving k := by
  have hcapacity : nodeNumberAddress + (Word.bytes w).length ≤ c.store.capacity :=
    c.identity_lt_capacity (a := 3) (by decide)
  exact writeBytes_moving (c := { c with nodeNumber := w }) hcapacity

theorem storedNumber_moving : (c.moving k).storedNumber = c.storedNumber :=
  readWord_moving (c.identity_lt_capacity (a := 3) (by decide))

theorem isVirgin_moving : (c.moving k).isVirgin = c.isVirgin :=
  congrArg (fun w : UInt16 => c.store.read modeAddress == Store.erased && w == 0xffff)
    storedNumber_moving

theorem factoryReset_moving (c : Configuration) :
    (c.moving k).factoryReset = c.factoryReset.moving k := by
  refine eq_of_contents ?_ (transfer_factoryReset _)
  rw [contents_moving, contents_factoryReset, contents_factoryReset]
  rfl

/-! ### The event table -/

theorem header_le_capacity (h : slot < c.layout.slots) :
    c.layout.recordAddress slot + Layout.recordHeaderSize ≤ c.store.capacity := by
  have hrecord := c.layout_fits.record_le_capacity h
  have hheader := c.layout.recordHeaderSize_le_recordSize
  omega

@[simp]
theorem event_moving (slot : Nat) : (c.moving k).event slot = c.event slot := by
  by_cases h : slot < c.layout.slots
  · have hmoving : slot < (c.moving k).layout.slots := h
    have hheader : (c.moving k).recordHeader slot = c.recordHeader slot := rfl
    rw [event_eq _ h, event_eq _ hmoving, hheader]
  · rw [event, event, if_neg h, layout_moving, if_neg h]

theorem indexEntry_moving (h : slot < c.layout.slots) :
    (c.moving k).indexEntry slot = c.indexEntry slot := by
  refine indexEntry_congr (record?_congr rfl ?_ h)
  rfl

/-- Beyond the table there is nothing to index. -/
theorem reindex_moving (slot : Nat) : (c.moving k).reindex slot = (c.reindex slot).moving k := by
  have hindex : c.index.setIfInBounds slot ((c.moving k).indexEntry slot) =
      c.index.setIfInBounds slot (c.indexEntry slot) := by
    by_cases h : slot < c.layout.slots
    · rw [indexEntry_moving h]
    · have hout : ∀ v : UInt8, c.index.setIfInBounds slot v = c.index := fun v =>
        Vector.setIfInBounds_eq_of_size_le (Nat.le_of_not_lt h)
      rw [hout, hout]
  exact congrArg (fun index => { c.moving k with index := index }) hindex

theorem reindexAll_moving (c : Configuration) :
    (c.moving k).reindexAll = c.reindexAll.moving k :=
  List.foldl_hom (moving k) fun _ _ => reindex_moving _

@[simp]
theorem isFree_moving : (c.moving k).isFree = c.isFree := rfl

@[simp]
theorem find_moving (e : EventId) : (c.moving k).find e = c.find e := by
  unfold find
  simp only [event_moving]
  rfl

@[simp]
theorem findFree_moving : (c.moving k).findFree = c.findFree := rfl

@[simp]
theorem recognise?_moving (m : Message) : (c.moving k).recognise? m = c.recognise? m := by
  simp only [recognise?, find_moving]

theorem eraseRecord_moving (slot : Nat) :
    (c.moving k).eraseRecord slot = (c.eraseRecord slot).moving k :=
  foldl_write_moving (c.layout.recordAddress slot + ·) Store.erased _ c

theorem clearEvents_moving (c : Configuration) :
    (c.moving k).clearEvents = c.clearEvents.moving k := by
  have hslots : (List.range c.layout.slots).foldl
        (fun d slot => if d.isFree slot then d else d.eraseRecord slot) (c.moving k) =
      ((List.range c.layout.slots).foldl
        (fun d slot => if d.isFree slot then d else d.eraseRecord slot) c).moving k := by
    refine List.foldl_hom (moving k) fun d slot => ?_
    rw [isFree_moving, eraseRecord_moving]
    split_ifs <;> rfl
  exact congrArg clearIndex hslots

theorem writeEvent_moving (slot : Nat) (e : EventId) :
    (c.moving k).writeEvent slot e = (c.writeEvent slot e).map (moving k) := by
  unfold writeEvent
  rw [layout_moving]
  split_ifs with h
  · have hcapacity := c.header_le_capacity h
    exact congrArg Except.ok (writeBytes_moving (by rw [EventId.length_bytes]; exact hcapacity))
  · rfl

theorem clearEvent_moving (slot : Nat) :
    (c.moving k).clearEvent slot = (c.clearEvent slot).map (moving k) := by
  unfold clearEvent
  rw [layout_moving, eraseRecord_moving]
  split_ifs <;> rfl

@[simp]
theorem eventVariable_moving (slot index : Nat) :
    (c.moving k).eventVariable slot index = c.eventVariable slot index := rfl

theorem setEventVariable_moving (slot index : Nat) (v : UInt8) :
    (c.moving k).setEventVariable slot index v =
      (c.setEventVariable slot index v).map (moving k) := by
  have hvariable : (c.moving k).variableAddress slot index = c.variableAddress slot index := rfl
  unfold setEventVariable
  rw [hvariable]
  rcases c.variableAddress slot index with _ | _ <;> rfl

theorem insertEvent_moving (slot : Nat) (e : EventId) :
    (c.moving k).insertEvent slot e = (c.insertEvent slot e).map (moving k) := by
  by_cases h : slot < c.layout.slots
  · have hmoving : slot < (c.moving k).layout.slots := h
    have hcapacity := c.header_le_capacity h
    have hfile : (c.moving k).fileEvent slot e = (c.fileEvent slot e).moving k := by
      unfold fileEvent
      rw [layout_moving, writeBytes_moving (by rw [EventId.length_bytes]; exact hcapacity)]
      exact foldl_write_moving _ 0 _ _
    rw [insertEvent_eq _ h, insertEvent_eq _ hmoving, hfile, reindex_moving]
    rfl
  · rw [insertEvent, insertEvent, writeEvent, writeEvent, if_neg h, layout_moving, if_neg h]
    rfl

theorem removeEvent_moving (slot : Nat) :
    (c.moving k).removeEvent slot = (c.removeEvent slot).map (moving k) := by
  unfold removeEvent
  rw [clearEvent_moving]
  rcases c.clearEvent slot with _ | d
  · rfl
  · exact congrArg Except.ok (reindex_moving slot)

/-! ### Node variables -/

@[simp]
theorem nodeVariable?_moving (index : Nat) :
    (c.moving k).nodeVariable? index = c.nodeVariable? index := rfl

theorem setNodeVariable?_moving (index : Nat) (v : UInt8) :
    (c.moving k).setNodeVariable? index v = (c.setNodeVariable? index v).map (moving k) := by
  have haddress : (c.moving k).nodeVariableAddress? index = c.nodeVariableAddress? index := rfl
  unfold setNodeVariable?
  rw [haddress, Option.map_map]
  rfl

/-! ### Opening and starting -/

theorem load_moving (c : Configuration) : (c.moving k).load = c.load.moving k := by
  have hnumber : (c.moving k).readWord nodeNumberAddress = c.readWord nodeNumberAddress :=
    storedNumber_moving
  unfold load
  rw [hnumber]
  exact reindexAll_moving
    { c with
      nodeNumber := c.readWord nodeNumberAddress
      mode := startMode (c.store.read modeAddress) (c.readWord nodeNumberAddress)
      address := .truncate (c.store.read busAddressAddress)
      flags := c.store.read flagsAddress
      learning := false }

/-- The same start over a store that moves several bytes in this way. -/
def Start.moving (k : Transfer) : Start → Start
  | ready c => ready (c.moving k)
  | restart c => restart (c.moving k)

theorem start_moving (c : Configuration) : (c.moving k).start = c.start.moving k := by
  unfold start
  rw [isVirgin_moving, factoryReset_moving, load_moving]
  split_ifs <;> rfl

theorem ofStore_moving (l : Layout) (s : Store) :
    ofStore l (s.moving k) = (ofStore l s).map (moving k) := by
  unfold ofStore
  split
  · rename_i e h
    split
    · rename_i e' h'
      rw [Option.some.inj (h.symm.trans h')]
      rfl
    · rename_i h'
      exact absurd (h.symm.trans h') nofun
  · rename_i h
    split
    · rename_i e' h'
      exact absurd (h.symm.trans h') nofun
    · rfl

/-! ## Use -/

/-- What can be asked of a configuration. -/
inductive Question where
  | mode
  | nodeNumber
  | address
  | heartbeat
  | acknowledge
  | learning
  | resetMarked
  | nodeVariable (index : Nat)
  | event (slot : Nat)
  | eventVariable (slot index : Nat)
  /-- The index entries of all slots. -/
  | hashes
  | isFree (slot : Nat)
  | storedCount
  | freeCount
  | find (e : EventId)
  | findFree
deriving DecidableEq, Repr

namespace Question

def Answer : Question → Type
  | mode => Mode
  | nodeNumber => UInt16
  | address => BusAddress
  | heartbeat | acknowledge | learning | resetMarked | isFree _ => Bool
  | nodeVariable _ => Option UInt8
  | event _ => Except EventError EventId
  | eventVariable _ _ => Except EventError UInt8
  | hashes => List UInt8
  | storedCount | freeCount => Nat
  | find _ | findFree => Except EventError Nat

def answer (c : Configuration) : (q : Question) → q.Answer
  | mode => c.mode
  | nodeNumber => c.nodeNumber
  | address => c.address
  | heartbeat => c.heartbeat
  | acknowledge => c.acknowledge
  | learning => c.learning
  | resetMarked => c.resetMarked
  | nodeVariable index => c.nodeVariable? index
  | event slot => c.event slot
  | eventVariable slot index => c.eventVariable slot index
  | hashes => c.index.toList
  | isFree slot => c.isFree slot
  | storedCount => c.storedCount
  | freeCount => c.freeCount
  | find e => c.find e
  | findFree => c.findFree

theorem answer_moving (q : Question) : q.answer (c.moving k) = q.answer c := by
  cases q with
  | event slot => exact event_moving slot
  | find e => exact find_moving e
  | _ => rfl

end Question

theorem Call.run_moving (call : Call) : call.run (c.moving k) = (call.run c).map (moving k) := by
  cases call with
  | setNodeNumber number => exact congrArg Except.ok (setNodeNumber_moving number)
  | setNodeVariable index value =>
    show Except.ok _ = Except.ok _
    rw [setNodeVariable?_moving]
    rcases c.setNodeVariable? index value with _ | d <;> rfl
  | writeEvent slot e => exact writeEvent_moving slot e
  | clearEvent slot => exact clearEvent_moving slot
  | setEventVariable slot index value => exact setEventVariable_moving slot index value
  | clearEvents => exact congrArg Except.ok c.clearEvents_moving
  | reindex slot => exact congrArg Except.ok (reindex_moving slot)
  | reindexAll => exact congrArg Except.ok c.reindexAll_moving
  | _ => rfl

/-- What the owner of a configuration can do with it. -/
inductive Use where
  | write (call : Call)
  | ask (q : Question)
  | factoryReset
  /-- A factory reset with a restart of the device. -/
  | factoryRestart
  | start
deriving DecidableEq, Repr

/-- What a use tells. -/
inductive Reply where
  | done
  | failed (e : EventError)
  | answer (q : Question) (a : q.Answer)
  | restarted

/-- What a use leaves: the configuration, or what is behind it when the device restarts. -/
inductive Left where
  | stays (reply : Reply) (c : Configuration)
  | restarts (c : Configuration)

/-- The same over a store that moves several bytes in this way. -/
def Left.moving (k : Transfer) : Left → Left
  | stays reply c => stays reply (c.moving k)
  | restarts c => restarts (c.moving k)

def Use.run (c : Configuration) : Use → Left
  | write call =>
    match call.run c with
    | .ok d => .stays .done d
    | .error e => .stays (.failed e) c
  | ask q => .stays (.answer q (q.answer c)) c
  | factoryReset => .stays .done c.factoryReset
  | factoryRestart => .restarts c.factoryReset
  | start =>
    match c.start with
    | .ready d => .stays .done d
    | .restart d => .restarts d

theorem Use.run_moving (u : Use) : u.run (c.moving k) = (u.run c).moving k := by
  cases u with
  | write call =>
    unfold run
    dsimp only
    rw [call.run_moving]
    rcases call.run c with _ | d <;> rfl
  | ask q =>
    show Left.stays (.answer q (q.answer (c.moving k))) _ = _
    rw [q.answer_moving]
    rfl
  | factoryReset => exact congrArg (Left.stays .done) c.factoryReset_moving
  | factoryRestart => exact congrArg Left.restarts c.factoryReset_moving
  | start =>
    unfold run
    rw [start_moving]
    rcases c.start with d | d <;> rfl

/-- What uses one after the other tell and what the configuration holds after each, up to a restart
    of the device, and the store that they leave. -/
def serve (c : Configuration) : List Use → List (Reply × Contents) × Store
  | [] => ([], c.store)
  | u :: us =>
    match u.run c with
    | .stays reply d =>
      let (replies, store) := d.serve us
      ((reply, d.contents) :: replies, store)
    | .restarts d => ([(.restarted, d.contents)], d.store)

theorem serve_moving (us : List Use) :
    (c.moving k).serve us = ((c.serve us).1, (c.serve us).2.moving k) := by
  induction us generalizing c with
  | nil => rfl
  | cons u us ih =>
    unfold serve
    rw [u.run_moving]
    rcases u.run c with ⟨reply, d⟩ | d
    · simp only [Left.moving, ih]
      rfl
    · rfl

/-- What is done with a configuration from its opening on. -/
structure Visit where
  layout : Layout
  uses : List Use
deriving DecidableEq, Repr

/-- What comes of a visit: the replies, unless the layout does not fit, and the store. -/
def Visit.run (s : Store) (v : Visit) : Except LayoutError (List (Reply × Contents)) × Store :=
  match ofStore v.layout s with
  | .error e => (.error e, s)
  | .ok c =>
    let (replies, store) := c.serve v.uses
    (.ok replies, store)

theorem Visit.run_moving (s : Store) (v : Visit) :
    v.run (s.moving k) = ((v.run s).1, (v.run s).2.moving k) := by
  unfold run
  rw [ofStore_moving]
  rcases ofStore v.layout s with e | c
  · rfl
  · simp only [Except.map, serve_moving]

end Configuration

/-- What visits one after the other tell, and the bytes that are in the store in the end. -/
def Store.visits (s : Store) :
    List Configuration.Visit →
      List (Except LayoutError (List (Configuration.Reply × Configuration.Contents))) ×
        Array UInt8
  | [] => ([], s.bytes)
  | v :: vs =>
    let (replies, store) := v.run s
    let (rest, bytes) := store.visits vs
    (replies :: rest, bytes)

/-- Whatever is done with configurations over a store, it does not show how several bytes are
    moved. -/
theorem Store.visits_moving (s : Store) (vs : List Configuration.Visit) :
    (s.moving k).visits vs = s.visits vs := by
  induction vs generalizing s with
  | nil => rfl
  | cons v vs ih =>
    unfold visits
    rw [v.run_moving]
    simp only [ih]

end RailNode
