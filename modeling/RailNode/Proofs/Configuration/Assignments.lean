import RailNode.Proofs.Configuration.Items

/-
  What calls leave in the items of a configuration. After a call every item that it assigns holds
  its value (`holds_of_run`), and every other item is as before (`read?_of_run`), since no two items
  share a byte. By induction over the calls every item holds what was last assigned to it, and what
  was never assigned stays (`keepsLog`).
-/
namespace RailNode.Configuration

open Layout (Cell)

variable {c d : Configuration}

/-! ## What a call leaves in its items -/

/-- The byte of the flags after a flag was turned on or off. -/
def flagsWith (flag : UInt8) (on : Bool) (f : UInt8) : UInt8 :=
  if on then f ||| flag else f &&& ~~~flag

theorem flagsWith_and_self (flag : UInt8) (on : Bool) (f : UInt8) :
    flagsWith flag on f &&& flag = if on then flag else 0 := by
  refine UInt8.toBitVec_inj.1 (BitVec.eq_of_getElem_eq fun i hi => ?_)
  cases on with
  | true => simpa [flagsWith] using Or.inr
  | false => simp [flagsWith]

/-- A flag that is another bit stays. -/
theorem flagsWith_and_of_apart {flag other : UInt8} (h : flag &&& other = 0) (on : Bool)
    (f : UInt8) : flagsWith flag on f &&& other = f &&& other := by
  refine UInt8.toBitVec_inj.1 (BitVec.eq_of_getElem_eq fun i hi => ?_)
  have hbit : flag.toBitVec[i] = true → other.toBitVec[i] = false := by
    simpa using congrArg (fun f : UInt8 => f.toBitVec[i]) h
  cases hflag : flag.toBitVec[i] with
  | true => cases on <;> simp [flagsWith, hflag, hbit hflag]
  | false => cases on <;> simp [flagsWith, hflag]

theorem heartbeat_setHeartbeat (c : Configuration) (on : Bool) :
    (c.setHeartbeat on).heartbeat = on := by
  show (flagsWith heartbeatFlag on c.flags &&& heartbeatFlag != 0) = on
  rw [flagsWith_and_self]
  cases on <;> rfl

theorem acknowledge_setHeartbeat (c : Configuration) (on : Bool) :
    (c.setHeartbeat on).acknowledge = c.acknowledge :=
  congrArg (· != 0) (flagsWith_and_of_apart (by decide) on c.flags)

theorem acknowledge_setAcknowledge (c : Configuration) (on : Bool) :
    (c.setAcknowledge on).acknowledge = on := by
  show (flagsWith acknowledgeFlag on c.flags &&& acknowledgeFlag != 0) = on
  rw [flagsWith_and_self]
  cases on <;> rfl

theorem heartbeat_setAcknowledge (c : Configuration) (on : Bool) :
    (c.setAcknowledge on).heartbeat = c.heartbeat :=
  congrArg (· != 0) (flagsWith_and_of_apart (by decide) on c.flags)

theorem holds_setNodeNumber (c : Configuration) (number : UInt16) :
    Item.Holds (c.setNodeNumber number) .number number where
  read := rfl
  bytes := by
    have hcap : nodeNumberAddress + (Word.bytes number).length ≤ c.store.capacity :=
      c.identity_lt_capacity (a := 3) (by decide)
    have h0 := Store.read_writeBytes_inside (k := 0) hcap (by simp)
    have h1 := Store.read_writeBytes_inside (k := 1) hcap (by simp)
    show [_, _] = [Word.high number, Word.low number]
    exact congr (congrArg _ h0) (congrArg (fun b => [b]) h1)

theorem holds_clearResetMarker (c : Configuration) :
    Item.Holds c.clearResetMarker .marker false := by
  have hmarker : (c.clearResetMarker).store.read resetMarkerAddress = 0 :=
    c.read_write_identity (by decide) 0
  refine ⟨congrArg some ?_, congrArg (fun b => [b]) hmarker⟩
  show ((c.clearResetMarker).store.read resetMarkerAddress == resetPerformed) = false
  rw [hmarker]
  decide

theorem holds_setNodeVariable {index : Nat} (h1 : 1 ≤ index) (h2 : index ≤ c.layout.nodeVariables)
    (value : UInt8) :
    Item.Holds (c.write (c.layout.nodeVariableAddress index) value) (.nodeVariable index)
      value := by
  have hcap := c.layout_fits.lt_capacity_of_inNodeVariables
    (Layout.inNodeVariables_address h1 h2)
  have hread : (c.store.write (c.layout.nodeVariableAddress index) value).read
      (c.layout.nodeVariableAddress index) = value := by
    rw [Store.read_write value hcap, if_pos rfl]
  refine ⟨?_, congrArg (fun b => [b]) hread⟩
  show (if 1 ≤ index ∧ index ≤ c.layout.nodeVariables then
    some (c.layout.nodeVariableAddress index) else none).map _ = some value
  rw [if_pos ⟨h1, h2⟩]
  exact congrArg some hread

theorem Item.bytes_event (c : Configuration) (slot : Nat) :
    Item.bytes c (.event slot) = c.recordHeader slot := by
  unfold Item.bytes Item.cells recordHeader
  rw [List.map_map]
  rfl

theorem holds_event {slot : Nat} (hs : slot < c.layout.slots) {e : EventId}
    (h : c.recordHeader slot = e.bytes) : Item.Holds c (.event slot) e where
  read := by
    show (c.event slot).toOption = some e
    rw [c.event_eq hs, h, EventId.ofBytes_bytes]
    rfl
  bytes := by
    rw [Item.bytes_event]
    exact h

theorem holds_eventVariable {slot index : Nat} (hs : slot < c.layout.slots) (h1 : 1 ≤ index)
    (h2 : index ≤ c.layout.eventVariables) {v : UInt8}
    (h : c.recordByte slot (Layout.recordHeaderSize + (index - 1)) = v) :
    Item.Holds c (.eventVariable slot index) v where
  read := by
    show (c.eventVariable slot index).toOption = some v
    unfold eventVariable
    rw [c.variableAddress_eq hs h1 h2]
    exact congrArg some h
  bytes := by
    show [c.store.read (c.layout.eventVariableAddress slot index)] = [v]
    rw [Layout.eventVariableAddress_eq _ _ h1]
    exact congrArg (fun b => [b]) h

theorem recordHeader_writeHeader (c : Configuration) {slot : Nat} (hs : slot < c.layout.slots)
    (e : EventId) :
    (c.writeBytes (c.layout.recordAddress slot) e.bytes).recordHeader slot = e.bytes := by
  have hbytes : (c.writeBytes (c.layout.recordAddress slot) e.bytes).recordHeader slot =
      (List.range Layout.recordHeaderSize).map fun i => e.bytes.getD i 0 := by
    refine List.map_congr_left fun i hi => ?_
    have h4 := c.layout.recordHeaderSize_le_recordSize
    have hi : i < Layout.recordHeaderSize := List.mem_range.1 hi
    rw [c.recordByte_writeHeader hs e (Nat.lt_of_lt_of_le hi h4), if_pos ⟨rfl, hi⟩]
  rw [hbytes]
  rfl

/-- A slot whose record is erased. -/
theorem holds_erasure {slot : Nat} (hs : slot < c.layout.slots)
    (h : ∀ i < c.layout.recordSize, c.recordByte slot i = Store.erased) :
    ∀ x ∈ Call.erasure c.layout slot, x.item.Holds c x.value := by
  intro x hx
  rcases List.mem_cons.1 hx with rfl | hx
  · have hheader : c.recordHeader slot = List.replicate Layout.recordHeaderSize Store.erased := by
      refine List.eq_replicate_iff.2 ⟨c.length_recordHeader slot, fun b hb => ?_⟩
      obtain ⟨i, hi, rfl⟩ := List.mem_map.1 hb
      have h4 := c.layout.recordHeaderSize_le_recordSize
      exact h i (Nat.lt_of_lt_of_le (List.mem_range.1 hi) h4)
    exact holds_event hs (hheader.trans (EventId.bytes_eq_replicate_iff.2 rfl).symm)
  · obtain ⟨index, hindex, rfl⟩ := List.mem_map.1 hx
    obtain ⟨h1, h2⟩ := List.mem_range'_1.1 hindex
    have h2 : index ≤ c.layout.eventVariables := by omega
    exact holds_eventVariable hs h1 h2 (h _ (Layout.eventVariable_offset_lt h1 h2))

theorem holds_eraseRecord {slot : Nat} (hs : slot < c.layout.slots) :
    ∀ x ∈ Call.erasure c.layout slot, x.item.Holds (c.eraseRecord slot) x.value := by
  have hl := (c.changesOnly_eraseRecord hs).layout
  rw [← hl]
  refine holds_erasure (hl ▸ hs) fun i hi => ?_
  rw [c.recordByte_eraseRecord hs (hl ▸ hi), if_pos rfl]

theorem holds_clearEvents {slot : Nat} (hs : slot < c.layout.slots)
    (hoccupied : c.isFree slot = false) :
    ∀ x ∈ Call.erasure c.layout slot, x.item.Holds c.clearEvents x.value := by
  have hl : c.clearEvents.layout = c.layout := c.changesOnly_clearEvents.layout
  rw [← hl]
  refine holds_erasure (hl ▸ hs) fun i hi => ?_
  show (c.eraseOccupied (List.range c.layout.slots)).recordByte slot i = Store.erased
  rw [c.recordByte_eraseOccupied (fun _ hs => List.mem_range.1 hs) (hl ▸ hi),
    if_pos ⟨List.mem_range.2 hs, hoccupied⟩]

namespace Call

/-- Every item that a call assigns holds its value after the call. -/
theorem holds_of_run {call : Call} (hcall : call.IsProper c.layout) (h : call.run c = .ok d) :
    ∀ x ∈ call.assigns c, x.item.Holds d x.value := by
  intro x hx
  cases call with
  | setMode mode =>
    rw [List.mem_singleton.1 hx, ← Except.ok.inj h]
    exact ⟨rfl, congrArg (fun b => [b]) (c.storedMode_setMode mode)⟩
  | setNodeNumber number =>
    rw [List.mem_singleton.1 hx, ← Except.ok.inj h]
    exact c.holds_setNodeNumber number
  | setAddress address =>
    rw [List.mem_singleton.1 hx, ← Except.ok.inj h]
    exact ⟨rfl, congrArg (fun b => [b]) (c.read_write_identity (by decide) _)⟩
  | setHeartbeat on =>
    rw [List.mem_singleton.1 hx, ← Except.ok.inj h]
    exact ⟨congrArg some (c.heartbeat_setHeartbeat on),
      congrArg (fun b => [b]) (c.read_write_identity (by decide) _)⟩
  | setAcknowledge on =>
    rw [List.mem_singleton.1 hx, ← Except.ok.inj h]
    exact ⟨congrArg some (c.acknowledge_setAcknowledge on),
      congrArg (fun b => [b]) (c.read_write_identity (by decide) _)⟩
  | setLearning on =>
    rw [List.mem_singleton.1 hx, ← Except.ok.inj h]
    exact ⟨rfl, rfl⟩
  | clearResetMarker =>
    rw [List.mem_singleton.1 hx, ← Except.ok.inj h]
    exact c.holds_clearResetMarker
  | setNodeVariable index value =>
    rw [run_setNodeVariable hcall] at h
    rw [List.mem_singleton.1 hx, ← Except.ok.inj h]
    exact holds_setNodeVariable hcall.1 hcall.2 value
  | writeEvent slot e =>
    obtain ⟨hs, rfl⟩ := writeEvent_eq_ok h
    rw [List.mem_singleton.1 hx]
    exact holds_event (c := c.writeBytes (c.layout.recordAddress slot) e.bytes) hs
      (c.recordHeader_writeHeader hs e)
  | clearEvent slot =>
    obtain ⟨hs, rfl⟩ := clearEvent_eq_ok h
    exact holds_eraseRecord hs x hx
  | setEventVariable slot index value =>
    obtain ⟨hs, h1, h2⟩ := setEventVariable_eq_ok h
    rw [run, c.setEventVariable_eq hs h1 h2] at h
    rw [List.mem_singleton.1 hx, ← Except.ok.inj h]
    refine holds_eventVariable (c := c.write _ value) hs h1 h2 ?_
    rw [c.recordByte_write hs (Layout.eventVariable_offset_lt h1 h2) value
      (Layout.eventVariable_offset_lt h1 h2), if_pos ⟨rfl, rfl⟩]
  | clearEvents =>
    rw [← Except.ok.inj h]
    obtain ⟨slot, hslot, hx⟩ := List.mem_flatMap.1 hx
    obtain ⟨hmem, hfree⟩ := List.mem_filter.1 hslot
    exact holds_clearEvents (List.mem_range.1 hmem) (by simpa using hfree) x hx
  | reindex slot => exact absurd hx List.not_mem_nil
  | reindexAll => exact absurd hx List.not_mem_nil

/-! ## What a call leaves alone -/

/-- The bytes of an item that a call does not assign stay. -/
theorem read_cell_of_run {call : Call} (hcall : call.IsProper c.layout) (h : call.run c = .ok d)
    {i : Item} (hflag : ¬ i.IsFlag) (hi : ∀ x ∈ call.assigns c, x.item ≠ i) {x : Cell}
    (hx : x ∈ i.cells) (hxl : x.In c.layout) :
    d.store.read (x.address c.layout) = c.store.read (x.address c.layout) := by
  refine read_of_run hcall h fun y hy heq => ?_
  obtain ⟨z, hz, hyz⟩ := List.mem_flatMap.1 hy
  have hne : x ≠ y := Item.cells_disjoint (hi z hz).symm hflag hx hyz
  exact hne (Layout.Cell.address_injective c.layout_fits hxl
    (in_of_mem_assigns hcall h z hz y hyz) heq.symm)

theorem event_of_run {call : Call} (hcall : call.IsProper c.layout) (h : call.run c = .ok d)
    {slot : Nat} (hi : ∀ x ∈ call.assigns c, x.item ≠ .event slot) :
    d.event slot = c.event slot := by
  have hl := (changesOnly_run hcall h).layout
  by_cases hs : slot < c.layout.slots
  · have hheader : d.recordHeader slot = c.recordHeader slot := by
      refine List.map_congr_left fun k hk => ?_
      have hin : (Cell.header slot k).In c.layout := ⟨hs, List.mem_range.1 hk⟩
      unfold recordByte
      rw [hl]
      exact read_cell_of_run hcall h id hi (List.mem_map.2 ⟨k, hk, rfl⟩) hin
    rw [d.event_eq (hl ▸ hs), c.event_eq hs, hheader]
  · unfold event
    rw [hl, if_neg hs, if_neg hs]

theorem eventVariable_of_run {call : Call} (hcall : call.IsProper c.layout)
    (h : call.run c = .ok d) {slot index : Nat}
    (hi : ∀ x ∈ call.assigns c, x.item ≠ .eventVariable slot index) :
    d.eventVariable slot index = c.eventVariable slot index := by
  unfold eventVariable variableAddress
  rw [(changesOnly_run hcall h).layout]
  split
  · rfl
  · rename_i hs
    split
    · rfl
    · rename_i hindex
      have hin : (Cell.eventVariable slot index).In c.layout :=
        ⟨Nat.lt_of_not_le hs, by omega, by omega⟩
      have hread := read_cell_of_run hcall h id hi (List.mem_singleton_self _) hin
      exact congrArg Except.ok hread

theorem nodeVariable?_of_run {call : Call} (hcall : call.IsProper c.layout)
    (h : call.run c = .ok d) {index : Nat}
    (hi : ∀ x ∈ call.assigns c, x.item ≠ .nodeVariable index) :
    d.nodeVariable? index = c.nodeVariable? index := by
  unfold nodeVariable? nodeVariableAddress?
  rw [(changesOnly_run hcall h).layout]
  split
  · rename_i hindex
    have hread := read_cell_of_run hcall h id hi (List.mem_singleton_self _) hindex
    exact congrArg some hread
  · rfl

/-- What is read from an item that a call does not assign stays. -/
theorem read?_of_run {call : Call} (hcall : call.IsProper c.layout) (h : call.run c = .ok d)
    {i : Item} (hi : ∀ x ∈ call.assigns c, x.item ≠ i) : i.read? d = i.read? c := by
  have hch := changesOnly_run hcall h
  cases i with
  | mode =>
    refine congrArg some (hch.mode fun hp => ?_)
    cases call <;> simp [parts] at hp
    exact hi _ (List.mem_singleton_self _) rfl
  | number =>
    refine congrArg some (hch.nodeNumber fun hp => ?_)
    cases call <;> simp [parts] at hp
    exact hi _ (List.mem_singleton_self _) rfl
  | address =>
    refine congrArg some (hch.address fun hp => ?_)
    cases call <;> simp [parts] at hp
    exact hi _ (List.mem_singleton_self _) rfl
  | learning =>
    refine congrArg some (hch.learning fun hp => ?_)
    cases call <;> simp [parts] at hp
    exact hi _ (List.mem_singleton_self _) rfl
  | heartbeat =>
    by_cases hp : Part.flags ∈ call.parts
    · cases call <;> simp [parts] at hp
      · exact absurd rfl (hi _ (List.mem_singleton_self _))
      · rw [← Except.ok.inj h]
        exact congrArg some (c.heartbeat_setAcknowledge _)
    · exact congrArg (fun f => some (f &&& heartbeatFlag != 0)) (hch.flags hp)
  | acknowledge =>
    by_cases hp : Part.flags ∈ call.parts
    · cases call <;> simp [parts] at hp
      · rw [← Except.ok.inj h]
        exact congrArg some (c.acknowledge_setHeartbeat _)
      · exact absurd rfl (hi _ (List.mem_singleton_self _))
    · exact congrArg (fun f => some (f &&& acknowledgeFlag != 0)) (hch.flags hp)
  | marker =>
    have hin : (Cell.identity resetMarkerAddress).In c.layout := by
      show resetMarkerAddress < Layout.identitySize
      decide
    have hread := read_cell_of_run hcall h id hi (List.mem_singleton_self _) hin
    exact congrArg (fun b => some (b == resetPerformed)) hread
  | nodeVariable index => exact nodeVariable?_of_run hcall h hi
  | event slot => exact congrArg Except.toOption (event_of_run hcall h hi)
  | eventVariable slot index => exact congrArg Except.toOption (eventVariable_of_run hcall h hi)

/-- If the store holds the flags, it holds them after a call. -/
theorem stored_flags_of_run {call : Call} (hcall : call.IsProper c.layout)
    (h : call.run c = .ok d) (hc : c.store.read flagsAddress = c.flags) :
    d.store.read flagsAddress = d.flags := by
  have hch := changesOnly_run hcall h
  by_cases hp : Part.flags ∈ call.parts
  · cases call <;> simp [parts] at hp
    · rw [← Except.ok.inj h]
      exact c.read_write_identity (by decide) _
    · rw [← Except.ok.inj h]
      exact c.read_write_identity (by decide) _
  · rw [hch.read_of_owns hp rfl, hch.flags hp, hc]

/-- An item that holds a value keeps it if a call does not assign it. -/
theorem holds_of_run_of_ne {call : Call} (hcall : call.IsProper c.layout)
    (h : call.run c = .ok d) {i : Item} {v : i.Value}
    (hi : ∀ x ∈ call.assigns c, x.item ≠ i) (hv : i.Holds c v) (hin : i.In c.layout) :
    i.Holds d v where
  read := by rw [read?_of_run hcall h hi, hv.read]
  bytes := by
    have hch := changesOnly_run hcall h
    have hl := hch.layout
    by_cases hflag : i.IsFlag
    · cases i with
      | heartbeat =>
        have hc : c.store.read flagsAddress = c.flags := (List.cons_eq_cons.1 hv.bytes).1
        exact congrArg (fun b => [b]) (stored_flags_of_run hcall h hc)
      | acknowledge =>
        have hc : c.store.read flagsAddress = c.flags := (List.cons_eq_cons.1 hv.bytes).1
        exact congrArg (fun b => [b]) (stored_flags_of_run hcall h hc)
      | _ => exact hflag.elim
    · have hbytes : i.bytes d = i.bytes c := by
        unfold Item.bytes
        refine List.map_congr_left fun x hx => ?_
        rw [hl]
        exact read_cell_of_run hcall h hflag hi hx (hin x hx)
      rw [hbytes, hv.bytes]
      cases i with
      | heartbeat => exact absurd trivial hflag
      | acknowledge => exact absurd trivial hflag
      | _ => rfl

end Call

/-! ## Calls one after the other -/

/-- The configuration after a call; one that fails changes nothing. -/
def afterCall (c : Configuration) (call : Call) : Configuration :=
  match call.run c with
  | .ok d => d
  | .error _ => c

/-- What a call has assigned; nothing if it failed. -/
def assigned (c : Configuration) (call : Call) : List Assignment :=
  match call.run c with
  | .ok _ => call.assigns c
  | .error _ => []

/-- The configuration after several calls. -/
def afterCalls (c : Configuration) (calls : List Call) : Configuration := calls.foldl afterCall c

/-- What several calls have assigned, in order. -/
def log (c : Configuration) : List Call → List Assignment
  | [] => []
  | call :: calls => c.assigned call ++ (c.afterCall call).log calls

/-- The item got this value in the log, and no other one later. -/
def LastAssigned (i : Item) (v : i.Value) (log : List Assignment) : Prop :=
  ∃ before later, log = before ++ ⟨i, v⟩ :: later ∧ ∀ x ∈ later, x.item ≠ i

theorem lastAssigned_append {i : Item} {v : i.Value} {first rest : List Assignment}
    (h : LastAssigned i v (first ++ rest)) :
    LastAssigned i v rest ∨ LastAssigned i v first ∧ ∀ x ∈ rest, x.item ≠ i := by
  obtain ⟨before, later, heq, hlater⟩ := h
  rcases List.append_eq_append_iff.1 heq with ⟨between, rfl, hrest⟩ | ⟨between, hfirst, hbetween⟩
  · exact Or.inl ⟨between, later, hrest, hlater⟩
  · cases between with
    | nil => exact Or.inl ⟨[], later, hbetween.symm, hlater⟩
    | cons x between =>
      obtain ⟨rfl, rfl⟩ := List.cons_eq_cons.1 hbetween
      refine Or.inr ⟨⟨before, between, hfirst, fun y hy => ?_⟩, fun y hy => ?_⟩
      · exact hlater y (List.mem_append_left _ hy)
      · exact hlater y (List.mem_append_right _ hy)

/-- A call succeeds and assigns, or fails and changes nothing. -/
theorem afterCall_cases (c : Configuration) (call : Call) :
    (∃ d, call.run c = .ok d ∧ c.afterCall call = d ∧ c.assigned call = call.assigns c) ∨
      c.afterCall call = c ∧ c.assigned call = [] := by
  unfold afterCall assigned
  rcases hrun : call.run c with e | d
  · exact Or.inr ⟨rfl, rfl⟩
  · exact Or.inl ⟨d, rfl, rfl, rfl⟩

theorem layout_afterCall {call : Call} (hcall : call.IsProper c.layout) :
    (c.afterCall call).layout = c.layout := by
  rcases afterCall_cases c call with ⟨d, hrun, hd, _⟩ | ⟨hd, _⟩
  · rw [hd]
    exact (Call.changesOnly_run hcall hrun).layout
  · rw [hd]

/-- What every call keeps that succeeds and whose assignments are such as those of the log, several
    calls keep. -/
theorem afterCalls_induction {l : Layout} {P : Configuration → Prop} {Q : Assignment → Prop}
    (hstep : ∀ {c d : Configuration} {call : Call}, c.layout = l → call.IsProper l →
      call.run c = .ok d → (∀ x ∈ call.assigns c, Q x) → P c → P d)
    {calls : List Call} (h : ∀ call ∈ calls, call.IsProper l) (hl : c.layout = l)
    (hlog : ∀ x ∈ c.log calls, Q x) (hc : P c) : P (c.afterCalls calls) := by
  induction calls generalizing c with
  | nil => exact hc
  | cons call calls ih =>
    have hcall := h call List.mem_cons_self
    have hlayout : (c.afterCall call).layout = l := (layout_afterCall (hl ▸ hcall)).trans hl
    refine ih (c := c.afterCall call) (fun call' hc' => h call' (List.mem_cons_of_mem call hc'))
      hlayout (fun x hx => hlog x (List.mem_append_right _ hx)) ?_
    rcases afterCall_cases c call with ⟨d, hrun, hd, hassigned⟩ | ⟨hd, _⟩
    · rw [hd]
      refine hstep hl hcall hrun (fun x hx => hlog x (List.mem_append_left _ ?_)) hc
      rw [hassigned]
      exact hx
    · rw [hd]
      exact hc

theorem layout_afterCalls {calls : List Call} (h : ∀ call ∈ calls, call.IsProper c.layout) :
    (c.afterCalls calls).layout = c.layout :=
  afterCalls_induction (P := fun d => d.layout = c.layout) (Q := fun _ => True)
    (fun hl hcall hrun _ _ => (Call.changesOnly_run (hl ▸ hcall) hrun).layout.trans hl) h rfl
    (fun _ _ => trivial) rfl

/-- What was never assigned is as before. -/
theorem read?_afterCalls {calls : List Call} (h : ∀ call ∈ calls, call.IsProper c.layout)
    {i : Item} (hi : ∀ x ∈ c.log calls, x.item ≠ i) :
    i.read? (c.afterCalls calls) = i.read? c :=
  afterCalls_induction (P := fun d => i.read? d = i.read? c) (Q := fun x => x.item ≠ i)
    (fun hl hcall hrun hi hd => (Call.read?_of_run (hl ▸ hcall) hrun hi).trans hd) h rfl hi rfl

theorem store_afterCalls {calls : List Call} (h : ∀ call ∈ calls, call.IsProper c.layout)
    {a : Nat} (ha : ∀ x ∈ c.log calls, ∀ y ∈ x.item.cells, y.address c.layout ≠ a) :
    (c.afterCalls calls).store.read a = c.store.read a := by
  refine afterCalls_induction (P := fun d => d.store.read a = c.store.read a)
    (Q := fun x => ∀ y ∈ x.item.cells, y.address c.layout ≠ a) ?_ h rfl ha rfl
  intro d d' call hl hcall hrun ha hd
  refine (Call.read_of_run (hl ▸ hcall) hrun fun y hy => ?_).trans hd
  obtain ⟨x, hx, hyx⟩ := List.mem_flatMap.1 hy
  rw [hl]
  exact ha x hx y hyx

/-- An item keeps its value while nothing is assigned to it. -/
theorem holds_afterCalls_of_ne {calls : List Call} (h : ∀ call ∈ calls, call.IsProper c.layout)
    {i : Item} {v : i.Value} (hi : ∀ x ∈ c.log calls, x.item ≠ i) (hv : i.Holds c v)
    (hin : i.In c.layout) : i.Holds (c.afterCalls calls) v :=
  afterCalls_induction (P := fun d => i.Holds d v) (Q := fun x => x.item ≠ i)
    (fun hl hcall hrun hi hd => Call.holds_of_run_of_ne (hl ▸ hcall) hrun hi hd (hl ▸ hin)) h rfl
    hi hv

/-- Every item holds what was last assigned to it. By induction over the calls: the assignment is
    among the later calls, or it is one of the first call, and then the later ones leave it. -/
theorem holds_afterCalls {calls : List Call} (h : ∀ call ∈ calls, call.IsProper c.layout)
    {i : Item} {v : i.Value} (hlast : LastAssigned i v (c.log calls)) :
    i.Holds (c.afterCalls calls) v := by
  induction calls generalizing c with
  | nil =>
    obtain ⟨before, later, heq, _⟩ := hlast
    exact absurd heq.symm (by simp [log])
  | cons call calls ih =>
    have hcall := h call List.mem_cons_self
    have hl := layout_afterCall hcall
    have hproper : ∀ call' ∈ calls, call'.IsProper (c.afterCall call).layout := fun call' hc' =>
      hl ▸ h call' (List.mem_cons_of_mem call hc')
    rcases lastAssigned_append hlast with hrest | ⟨⟨before, later, hfirst, _⟩, hrest⟩
    · exact ih hproper hrest
    · have hmem : (⟨i, v⟩ : Assignment) ∈ c.assigned call := by
        rw [hfirst]
        exact List.mem_append_right _ List.mem_cons_self
      rcases afterCall_cases c call with ⟨d, hrun, hd, hassigned⟩ | ⟨_, hassigned⟩
      · rw [hassigned] at hmem
        refine holds_afterCalls_of_ne hproper hrest ?_ ?_
        · rw [hd]
          exact Call.holds_of_run hcall hrun _ hmem
        · rw [hl]
          exact Call.in_of_mem_assigns hcall hrun _ hmem
      · rw [hassigned] at hmem
        exact absurd hmem List.not_mem_nil

/-- What the log says of the configuration after the calls. -/
structure KeepsLog (c : Configuration) (calls : List Call) : Prop where
  /-- An item holds what was last assigned to it. -/
  holds : ∀ i v, LastAssigned i v (c.log calls) → i.Holds (c.afterCalls calls) v
  /-- An item to which nothing was assigned is as before. -/
  read : ∀ i, (∀ x ∈ c.log calls, x.item ≠ i) → i.read? (c.afterCalls calls) = i.read? c
  /-- No byte of the store outside the items that were assigned has changed. -/
  store : ∀ a, (∀ x ∈ c.log calls, ∀ y ∈ x.item.cells, y.address c.layout ≠ a) →
    (c.afterCalls calls).store.read a = c.store.read a
  /-- A further call fails just if the table has no such slot or variable, and then changes
      nothing. -/
  fails : ∀ call : Call, ((∃ e, call.run (c.afterCalls calls) = .error e) ↔
    ¬ call.InTable c.layout) ∧
    (¬ call.InTable c.layout → c.afterCalls (calls ++ [call]) = c.afterCalls calls)

theorem keepsLog {calls : List Call} (h : ∀ call ∈ calls, call.IsProper c.layout) :
    c.KeepsLog calls where
  holds _ _ hlast := holds_afterCalls h hlast
  read _ hi := read?_afterCalls h hi
  store _ ha := store_afterCalls h ha
  fails call := by
    have hiff := Call.exists_error_iff (c.afterCalls calls) call
    rw [layout_afterCalls h] at hiff
    refine ⟨hiff, fun hnot => ?_⟩
    obtain ⟨e, he⟩ := hiff.2 hnot
    unfold afterCalls at he ⊢
    rw [List.foldl_append, List.foldl_cons, List.foldl_nil]
    unfold afterCall at he ⊢
    rw [he]

/-! ## Separation -/

/-- A layout that fits its store keeps the bytes of the configuration apart, so that in every
    sequence of calls each item is a variable of its own; and a layout that is refused, though it
    has both regions, breaks one of the rules. -/
theorem separates (l : Layout) (capacity : Nat) :
    (l.error? capacity = none →
      (∀ x y : Cell, x.In l → y.In l → x.address l = y.address l → x = y) ∧
      (∀ x : Cell, x.In l → x.address l < capacity) ∧
      ∀ c : Configuration, c.layout = l → c.store.capacity = capacity →
        ∀ calls : List Call, (∀ call ∈ calls, call.IsProper l) → c.KeepsLog calls) ∧
    (0 < l.nodeVariables → 0 < l.slots → l.error? capacity ≠ none →
      l.nodeVariableStart < Layout.identitySize ∨ l.eventStart < Layout.identitySize ∨
        (∃ a, l.InNodeVariables a ∧ l.InEvents a) ∨
        (∃ a, (l.InNodeVariables a ∨ l.InEvents a) ∧ capacity ≤ a) ∨
        Layout.maxEventVariables < l.eventVariables) := by
  constructor
  · intro h
    have hf := Layout.error?_eq_none_iff.1 h
    refine ⟨fun x y hx hy => Cell.address_injective hf hx hy, fun x hx => Cell.address_lt hf hx, ?_⟩
    intro c hl _ calls hcalls
    exact keepsLog (hl ▸ hcalls)
  · exact fun hn he h => Layout.exists_fault hn he h

/-- A configuration with the events before the node variables, and no byte between or behind. -/
def eventsFirst : Configuration where
  layout :=
    { nodeVariableCount := 2, nodeVariableStart := 20
      eventCount := 2, eventVariableCount := 1, eventStart := 10 }
  store := .blank 22 .bytewise
  mode := .uninitialised
  nodeNumber := 0
  address := .unassigned
  flags := 0
  learning := false
  index := Vector.replicate _ 0
  fits := by decide

/-- The last variable of the last slot and the first node variable are neighbours; a write to one
    leaves the other. -/
theorem separates_eventsFirst :
    eventsFirst.layout.error? 22 = none ∧
      ((eventsFirst.afterCalls [.setEventVariable 1 1 7, .setNodeVariable 1 9]).eventVariable 1 1
        ).toOption = some 7 := by
  have hfits : eventsFirst.layout.error? 22 = none := by decide
  obtain ⟨_, _, hkeeps⟩ := (separates eventsFirst.layout 22).1 hfits
  have hproper : ∀ call ∈ [Call.setEventVariable 1 1 7, .setNodeVariable 1 9],
      call.IsProper eventsFirst.layout := by
    intro call hcall
    simp only [List.mem_cons, List.not_mem_nil, or_false] at hcall
    rcases hcall with rfl | rfl
    · trivial
    · exact ⟨by decide, by decide⟩
  have hlog := hkeeps eventsFirst rfl (by decide) _ hproper
  have hlast : LastAssigned (.eventVariable 1 1) (7 : UInt8)
      (eventsFirst.log [.setEventVariable 1 1 7, .setNodeVariable 1 9]) := by
    refine ⟨[], [⟨.nodeVariable 1, (9 : UInt8)⟩], rfl, fun x hx => ?_⟩
    rw [List.mem_singleton.1 hx]
    exact Item.noConfusion
  exact ⟨hfits, (hlog.holds _ _ hlast).read⟩

end RailNode.Configuration
