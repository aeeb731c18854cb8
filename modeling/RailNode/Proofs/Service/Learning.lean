import RailNode.Proofs.Configuration.Table
import RailNode.Proofs.Service.Teaching

/-
  The commands that change the event table, seen as operations on the map of learned events. The
  map says what a command should make of it and why it may be refused; the turn of the service
  makes just that of the records and gives the answers that go with it.
-/
namespace RailNode

/-! ## Commands on the map -/

namespace EventTable

/-- Teaches a variable of an event. An event that is not in the map is added, with all its other
    variables 0, if there is room for it. -/
def teach (l : Layout) (e : EventId) (index : Nat) (value : UInt8) (T : EventTable) :
    Except CommandError EventTable :=
  if index = 0 ∨ l.eventVariables < index then .error .invalidEventVariableIndex
  else
    match T.lookup e with
    | some vs => .ok (T.insert e (vs.set (index - 1) value))
    | none =>
      if T.keys.card < l.slots then
        .ok (T.insert e ((List.replicate l.eventVariables 0).set (index - 1) value))
      else .error .tooManyEvents

/-- Takes an event out of the map. -/
def forget (e : EventId) (T : EventTable) : Except CommandError EventTable :=
  if e ∈ T then .ok (T.erase e) else .error .noEvent

/-- What an EVLRN message asks of the map. -/
def obeyLearn (l : Layout) (m : Message) (T : EventTable) : Except CommandError EventTable :=
  match m.isComplete, m.event?, m.byte? 5, m.byte? 6 with
  | true, some e, some index, some value => T.teach l e index.toNat value
  | _, _, _, _ => .error .invalidCommand

/-- What an EVULN message asks of the map. -/
def obeyUnlearn (m : Message) (T : EventTable) : Except CommandError EventTable :=
  match m.isComplete, m.event? with
  | true, some e => T.forget e
  | _, _ => .error .invalidCommand

end EventTable

/-- The message is a complete lesson about the erased event, for a variable that there is. -/
def Message.TeachesErased (l : Layout) (m : Message) : Prop :=
  m.isComplete = true ∧ m.event? = some .erased ∧
    ∃ index, m.byte? 5 = some index ∧ 1 ≤ index.toNat ∧ index.toNat ≤ l.eventVariables

namespace Teaching

open RailNode.Configuration

/-! ## Answers -/

theorem length_refusal_le (e : CommandError) : [e.byte].length ≤ 5 := by
  simp

/-- The answers to a command of a node with this number. A command that was obeyed is confirmed by
    WRACK and GRSP with the result 0, and a change of one event is shown as activity; one that was
    refused is answered by CMDERR and GRSP with the error. -/
def answers (node : UInt16) (command : Opcode) : Except CommandError EventTable → List Action
  | .ok _ =>
    [.transmit (.addressed Opcode.wrack.byte node []),
      .transmit (.addressed Opcode.grsp.byte node
        [command.byte, ServiceId.teaching.byte, ResponseCode.ok.byte])] ++
      if command = .nnclr then [] else [.showActivity]
  | .error e =>
    [.transmit (.addressed Opcode.cmderr.byte node [e.byte] (length_refusal_le e)),
      .transmit (.addressed Opcode.grsp.byte node
        [command.byte, ServiceId.teaching.byte, (ResponseCode.ofError e).byte])]

/-- A report of the event table, as a series of reports gives it. -/
def IsReport (a : Action) : Prop :=
  ∃ m : Message, a = .transmit m ∧
    (m.opcode? = some .enrsp ∨ m.opcode? = some .evans ∨ m.opcode? = some .neval)

/-- From the state `t` to `t'` a command has been obeyed or refused: the map is the one that the
    command asks for, or nothing has changed, and the answers have been given. -/
structure Obeyed (command : Opcode) (result : Except CommandError EventTable)
    (t t' : Turn Teaching) : Prop where
  table : ∀ T, result = .ok T → t'.config.table = T
  config : ∀ e, result = .error e → t'.config = t.config
  given : t'.given = t.given ++ answers t.config.nodeNumber command result

/-- The same, with at most one report after the answers. -/
structure Answered (command : Opcode) (result : Except CommandError EventTable)
    (t t' : Turn Teaching) : Prop where
  table : ∀ T, result = .ok T → t'.config.table = T
  config : ∀ e, result = .error e → t'.config = t.config
  given : ∃ reports, t'.given = t.given ++ answers t.config.nodeNumber command result ++ reports ∧
    (∀ a ∈ reports, IsReport a) ∧ reports.length ≤ 1

variable {c : Cycle} {m : Message} {t t' : Turn Teaching}

theorem given_refuse (command : Opcode) (e : CommandError) (t : Turn Teaching) :
    (t.refuse command .teaching e).given =
      t.given ++ answers t.config.nodeNumber command (.error e) := by
  simp [Turn.refuse, Turn.respond, answers]

theorem given_confirm {command : Opcode} (h : command ≠ .nnclr) (T : EventTable)
    (t : Turn Teaching) :
    ((t.confirm command .teaching).put .showActivity).given =
      t.given ++ answers t.config.nodeNumber command (.ok T) := by
  simp [Turn.confirm, Turn.acknowledgeWrite, Turn.respond, answers, h]

theorem given_confirm_clear (T : EventTable) (t : Turn Teaching) :
    (t.confirm .nnclr .teaching).given =
      t.given ++ answers t.config.nodeNumber .nnclr (.ok T) := by
  simp [Turn.confirm, Turn.acknowledgeWrite, Turn.respond, answers]

theorem given_sendEvent (slot : Nat) (t : Turn Teaching) :
    ∃ reports, (sendEvent slot t).given = t.given ++ reports ∧
      (∀ a ∈ reports, IsReport a) ∧ reports.length ≤ 1 := by
  unfold sendEvent
  split
  · refine ⟨_, Turn.given_reply _ _ t _, fun a ha => ?_, le_rfl⟩
    exact ⟨_, List.mem_singleton.1 ha, Or.inl (Message.opcode?_addressed _ _ _ _)⟩
  · exact ⟨[], (List.append_nil _).symm, by simp, by simp⟩

theorem given_report (kind : EventListing) (number : Nat) (t : Turn Teaching) :
    ∃ reports, (report kind number t).given = t.given ++ reports ∧
      (∀ a ∈ reports, IsReport a) ∧ reports.length ≤ 1 := by
  cases kind with
  | events => exact given_sendEvent number t
  | eventVariables slot =>
    unfold report sendVariable
    dsimp only
    split
    · refine ⟨_, Turn.given_send _ t, fun a ha => ?_, le_rfl⟩
      exact ⟨_, List.mem_singleton.1 ha, Or.inr (Or.inl (Message.opcode?_addressed _ _ _ _))⟩
    · exact ⟨[], (List.append_nil _).symm, by simp, by simp⟩
  | slotVariables slot =>
    refine ⟨_, Turn.given_reply _ _ t _, fun a ha => ?_, le_rfl⟩
    exact ⟨_, List.mem_singleton.1 ha, Or.inr (Or.inr (Message.opcode?_addressed _ _ _ _))⟩

/-- A poll gives out at most one report. -/
theorem given_pollListing (c : Cycle) (t : Turn Teaching) :
    ∃ reports, (pollListing c t).given = t.given ++ reports ∧
      (∀ a ∈ reports, IsReport a) ∧ reports.length ≤ 1 := by
  unfold pollListing
  split
  · exact ⟨[], (List.append_nil _).symm, by simp, by simp⟩
  · dsimp only
    split
    · exact ⟨[], (List.append_nil _).symm, by simp, by simp⟩
    · exact given_report _ _ _

theorem Obeyed.pollListing {command : Opcode} {result : Except CommandError EventTable}
    (h : Obeyed command result t t') (c : Cycle) :
    Answered command result t (pollListing c t') where
  table T hT := by rw [config_pollListing, h.table T hT]
  config e he := by rw [config_pollListing, h.config e he]
  given := by
    obtain ⟨reports, hgiven, hreports⟩ := given_pollListing c t'
    exact ⟨reports, by rw [hgiven, h.given], hreports⟩

theorem obeyed_refuse (command : Opcode) (e : CommandError) (t : Turn Teaching) :
    Obeyed command (.error e) t (t.refuse command .teaching e) where
  table _ h := nomatch h
  config _ _ := Turn.config_refuse command .teaching e t
  given := given_refuse command e t

/-! ## Learning -/

/-- The configuration `d` and the answers to a command that was obeyed. -/
theorem obeyed_confirm {command : Opcode} {d : Configuration} {T : EventTable} (self : Teaching)
    (h : command ≠ .nnclr) (ht : d.table = T) (hn : d.nodeNumber = t.config.nodeNumber) :
    Obeyed command (.ok T) t
      (({ t with self, shared.config := d } : Turn Teaching).confirm command .teaching
        |>.put .showActivity) where
  table T' hT := by
    rw [Turn.config_put, Turn.config_confirm, ← Except.ok.inj hT]
    exact ht
  config _ h := nomatch h
  given := by
    rw [given_confirm h T, ← hn]
    rfl

/-- The node can set every variable that there is. -/
theorem obeyed_teachVariable {slot index : Nat} (value : UInt8) {e : EventId}
    (hu : t.config.Unique) (he : t.config.record? slot = some e) (hs : slot < t.config.layout.slots)
    (h1 : 1 ≤ index) (h2 : index ≤ t.config.layout.eventVariables) :
    ∃ t', teachVariable slot index value t = .ok t' ∧
      Obeyed .evlrn (.ok (t.config.table.insert e
        ((t.config.variableBytes slot).set (index - 1) value))) t t' := by
  have hd := t.config.setEventVariable_eq hs h1 h2 value
  have hnumber := (changesOnly_setEventVariable hd).nodeNumber (by decide)
  refine ⟨_, ?_,
    obeyed_confirm t.self (by decide) (hu.table_setEventVariable hd he) hnumber⟩
  rw [teachVariable, hd]
  rfl

/-- An event that is new can be learned in the slot that `findFree` gives. -/
theorem obeyed_learnEvent {slot index : Nat} {value : UInt8} {e : EventId}
    (hc : t.config.IndexAgrees) (hu : t.config.Unique) (hne : e ≠ .erased)
    (hfind : t.config.find e = .error .notFound) (hfree : t.config.findFree = .ok slot)
    (h1 : 1 ≤ index) (h2 : index ≤ t.config.layout.eventVariables) :
    ∃ t', learnEvent slot e t >>= teachVariable slot index value = .ok t' ∧
      Obeyed .evlrn (.ok (t.config.table.insert e
        ((List.replicate t.config.layout.eventVariables 0).set (index - 1) value))) t t' := by
  obtain ⟨hs, hv, _⟩ := hc.findFree_eq_ok_iff.1 hfree
  have hnew : e ∉ t.config.table := notMem_table.2 fun j hj hje =>
    hc.find_eq_error_iff.1 hfind j hj ((record?_eq_some_iff hj).1 hje)
  have hd := t.config.insertEvent_eq hs e
  have hch := changesOnly_insertEvent hd
  have huniq : (filed slot e t).config.Unique :=
    hu.edit (A := parts) hc (.insert (by decide) (by decide) hfind hfree hd)
  have hrecord : (filed slot e t).config.record? slot = some e := by
    show ((t.config.fileEvent slot e).reindex slot).record? slot = some e
    rw [record?_reindex, record?_fileEvent hs, if_neg hne]
  have htable := hu.table_insertEvent hd ((record?_eq_none_iff hs).2 hv) hne hnew
  have hvalues : (filed slot e t).config.variableBytes slot =
      List.replicate t.config.layout.eventVariables 0 := variables_fileEvent hs e
  have hl : (filed slot e t).config.layout = t.config.layout := hch.layout
  have hnumber : (filed slot e t).config.nodeNumber = t.config.nodeNumber :=
    hch.nodeNumber (by decide)
  obtain ⟨t', ht', hobeyed⟩ := obeyed_teachVariable value huniq hrecord
    (by rw [hl]; exact hs) h1 (by rw [hl]; exact h2)
  refine ⟨t', by rw [learnEvent_eq hs e]; exact ht', ?_⟩
  rw [hvalues, show (filed slot e t).config.table = _ from htable, Finmap.insert_insert] at hobeyed
  exact ⟨hobeyed.table, nofun, by rw [hobeyed.given, hnumber]; rfl⟩

/-- A complete EVLRN message does to the records what it asks of the map. Only a variable that there
    is needs another event than the erased one. -/
theorem obeyed_learn_of_event {e : EventId} {index value : UInt8} (hc : t.config.IndexAgrees)
    (hu : t.config.Unique) (hevent : m.event? = some e) (hindex : m.byte? 5 = some index)
    (hvalue : m.byte? 6 = some value)
    (hne : 1 ≤ index.toNat → index.toNat ≤ t.config.layout.eventVariables → e ≠ .erased) :
    ∃ t', learn m t = .ok t' ∧
      Obeyed .evlrn (t.config.table.teach t.config.layout e index.toNat value) t t' := by
  have hbad : (index = 0 ∨ t.config.layout.eventVariables < index.toNat) ↔
      (index.toNat = 0 ∨ t.config.layout.eventVariables < index.toNat) := by
    rw [← UInt8.toNat_inj]
    rfl
  simp only [learn, hevent, hindex, hvalue, hbad, EventTable.teach]
  by_cases h : index.toNat = 0 ∨ t.config.layout.eventVariables < index.toNat
  · simp only [if_pos h]
    exact ⟨_, rfl, obeyed_refuse _ _ t⟩
  · simp only [if_neg h]
    have h1 : 1 ≤ index.toNat := by omega
    have h2 : index.toNat ≤ t.config.layout.eventVariables := by omega
    rcases hfind : t.config.find e with x | slot
    · have hnone := eq_notFound_of_find hfind
      subst hnone
      have hnew : e ∉ t.config.table := notMem_table.2 fun j hj hje =>
        hc.find_eq_error_iff.1 hfind j hj ((record?_eq_some_iff hj).1 hje)
      simp only [Finmap.lookup_eq_none.2 hnew, hu.card_keys_table, heldCount_lt_iff]
      rcases hfree : t.config.findFree with x | slot
      · have hfull := eq_tableFull_of_findFree hfree
        subst hfull
        have hno := hc.findFree_eq_error_iff.1 hfree
        rw [if_neg fun ⟨slot, hs, hv⟩ => hno slot hs hv]
        exact ⟨_, rfl, obeyed_refuse _ _ t⟩
      · obtain ⟨hs, hv, _⟩ := hc.findFree_eq_ok_iff.1 hfree
        rw [if_pos ⟨slot, hs, hv⟩]
        exact obeyed_learnEvent hc hu (hne h1 h2) hfind hfree h1 h2
    · obtain ⟨hs, hholds, _⟩ := hc.find_eq_ok_iff.1 hfind
      have he := (record?_eq_some_iff hs).2 hholds
      simp only [(hu.lookup_table (e := e)).2 ⟨slot, hs, he, rfl⟩]
      exact obeyed_teachVariable value hu he hs h1 h2

/-- A message with all the bytes that its opcode asks for is complete. -/
theorem isComplete_of_byte? {o : Opcode} {i : Nat} {b : UInt8} (ho : m.opcode? = some o)
    (hlen : Opcode.messageLength o.byte = i + 1) (hb : m.byte? i = some b) :
    m.isComplete = true := by
  obtain ⟨first, hfirst, hofirst⟩ := Option.bind_eq_some_iff.1 ho
  have hi : i < m.length := (List.getElem?_eq_some_iff.1 hb).1
  rw [Message.isComplete, hfirst, Option.any_some, Opcode.ofByte?_eq_some_iff.1 hofirst, hlen]
  exact decide_eq_true hi

/-- An EVLRN message does to the records what it asks of the map, unless it is a complete lesson
    about the erased event. -/
theorem obeyed_learn (ho : m.opcode? = some .evlrn) (hc : t.config.IndexAgrees)
    (hu : t.config.Unique) (hne : ¬ m.TeachesErased t.config.layout) :
    ∃ t', learn m t = .ok t' ∧
      Obeyed .evlrn (t.config.table.obeyLearn t.config.layout m) t t' := by
  unfold EventTable.obeyLearn
  rcases hevent : m.event? with _ | e
  · cases m.isComplete <;>
      exact ⟨_, by simp only [learn, hevent], obeyed_refuse _ _ t⟩
  rcases hindex : m.byte? 5 with _ | index
  · cases m.isComplete <;>
      exact ⟨_, by simp only [learn, hevent, hindex], obeyed_refuse _ _ t⟩
  rcases hvalue : m.byte? 6 with _ | value
  · cases m.isComplete <;>
      exact ⟨_, by simp only [learn, hevent, hindex, hvalue], obeyed_refuse _ _ t⟩
  have hcomplete := isComplete_of_byte? ho (by decide) hvalue
  rw [hcomplete]
  refine obeyed_learn_of_event hc hu hevent hindex hvalue fun h1 h2 he => hne ?_
  exact ⟨hcomplete, he ▸ hevent, index, hindex, h1, h2⟩

/-! ## Unlearning -/

/-- A complete EVULN message does to the records what it asks of the map. -/
theorem obeyed_unlearn_of_event {e : EventId} (hc : t.config.IndexAgrees) (hu : t.config.Unique)
    (hevent : m.event? = some e) :
    ∃ t', unlearn m t = .ok t' ∧ Obeyed .evuln (t.config.table.forget e) t t' := by
  simp only [unlearn, hevent, EventTable.forget]
  rcases hfind : t.config.find e with x | slot
  · have hnone := eq_notFound_of_find hfind
    subst hnone
    have hnew : e ∉ t.config.table := notMem_table.2 fun j hj hje =>
      hc.find_eq_error_iff.1 hfind j hj ((record?_eq_some_iff hj).1 hje)
    rw [if_neg hnew]
    exact ⟨_, rfl, obeyed_refuse _ _ t⟩
  · obtain ⟨hs, hholds, _⟩ := hc.find_eq_ok_iff.1 hfind
    have he := (record?_eq_some_iff hs).2 hholds
    have hd := t.config.removeEvent_eq hs
    have hnumber := (changesOnly_removeEvent hd).nodeNumber (by decide)
    rw [if_pos (mem_table.2 ⟨slot, hs, he⟩)]
    refine ⟨_, ?_,
      obeyed_confirm t.self (by decide) (hu.table_removeEvent hd he) hnumber⟩
    dsimp only
    rw [hd]
    rfl

theorem exists_byte?_of_event? {e : EventId} (h : m.event? = some e) : ∃ b, m.byte? 4 = some b := by
  obtain ⟨_, _, h⟩ := Option.bind_eq_some_iff.1 h
  obtain ⟨_, h, _⟩ := Option.bind_eq_some_iff.1 h
  obtain ⟨_, _, h⟩ := Option.bind_eq_some_iff.1 h
  obtain ⟨b, hb, _⟩ := Option.bind_eq_some_iff.1 h
  exact ⟨b, hb⟩

/-- An EVULN message does to the records what it asks of the map. -/
theorem obeyed_unlearn (ho : m.opcode? = some .evuln) (hc : t.config.IndexAgrees)
    (hu : t.config.Unique) :
    ∃ t', unlearn m t = .ok t' ∧ Obeyed .evuln (t.config.table.obeyUnlearn m) t t' := by
  unfold EventTable.obeyUnlearn
  rcases hevent : m.event? with _ | e
  · cases m.isComplete <;>
      exact ⟨_, by simp only [unlearn, hevent], obeyed_refuse _ _ t⟩
  · obtain ⟨b, hb⟩ := exists_byte?_of_event? hevent
    rw [isComplete_of_byte? ho (by decide) hb]
    exact obeyed_unlearn_of_event hc hu hevent

/-! ## Clearing -/

/-- In learn mode NNCLR empties the map; otherwise it is refused. -/
theorem obeyed_clear (hc : t.config.IndexAgrees) :
    Obeyed .nnclr (if t.config.learning = true then .ok ∅ else .error .notInLearnMode) t
      (clear t) := by
  unfold clear
  split_ifs
  · have hnumber := t.config.changesOnly_clearEvents.nodeNumber (by decide)
    refine ⟨fun T hT => ?_, nofun, ?_⟩
    · rw [Turn.config_confirm, Turn.config_configure, ← Except.ok.inj hT]
      exact table_of_forall_vacant hc.vacant_clearEvents
    · rw [given_confirm_clear ∅, Turn.config_configure, hnumber, Turn.given_configure]
  · exact obeyed_refuse _ _ t

/-! ## The turn -/

/-- What a message asks of the map of a node with this number, in learn mode or not, if anything. -/
def demand? (l : Layout) (node : UInt16) (learning : Bool) (m : Message) (T : EventTable) :
    Option (Opcode × Except CommandError EventTable) :=
  match m.opcode? with
  | some .evlrn => if learning then some (.evlrn, T.obeyLearn l m) else none
  | some .evuln => if learning then some (.evuln, T.obeyUnlearn m) else none
  | some .nnclr =>
    if m.nodeNumber? = some node then
      some (.nnclr, if learning then .ok ∅ else .error .notInLearnMode)
    else none
  | _ => none

/-- What a message asks of the map in the state of a turn. -/
def demandIn? (m : Message) (c : Configuration) :
    Option (Opcode × Except CommandError EventTable) :=
  demand? c.layout c.nodeNumber c.learning m c.table

theorem isNamedBy_iff : t.isNamedBy m = true ↔ m.nodeNumber? = some t.config.nodeNumber :=
  beq_iff_eq

theorem obeyed_handle {command : Opcode} {result : Except CommandError EventTable}
    (hc : t.config.IndexAgrees) (hu : t.config.Unique)
    (hdemand : demandIn? m t.config = some (command, result))
    (hne : command = .evlrn → ¬ m.TeachesErased t.config.layout) :
    ∃ t', handle c m t = .ok t' ∧ Obeyed command result t t' := by
  unfold demandIn? demand? at hdemand
  unfold handle
  split at hdemand
  · rename_i ho
    split_ifs at hdemand with hl
    obtain ⟨rfl, rfl⟩ := Prod.mk.inj (Option.some.inj hdemand)
    simp only [ho, hl, if_true]
    exact obeyed_learn ho hc hu (hne rfl)
  · rename_i ho
    split_ifs at hdemand with hl
    obtain ⟨rfl, rfl⟩ := Prod.mk.inj (Option.some.inj hdemand)
    simp only [ho, hl, if_true]
    exact obeyed_unlearn ho hc hu
  · rename_i ho
    by_cases hnamed : m.nodeNumber? = some t.config.nodeNumber
    · rw [if_pos hnamed] at hdemand
      obtain ⟨rfl, rfl⟩ := Prod.mk.inj (Option.some.inj hdemand)
      simp only [ho, if_pos (isNamedBy_iff.2 hnamed)]
      exact ⟨_, rfl, obeyed_clear hc⟩
    · rw [if_neg hnamed] at hdemand
      contradiction
  · contradiction

/-- The turn of the service does to the records what the message asks of the map. -/
theorem answered_turn {command : Opcode} {result : Except CommandError EventTable}
    (hc : t.config.IndexAgrees) (hu : t.config.Unique) (hm : c.received? = some m)
    (hdemand : demandIn? m t.config = some (command, result))
    (hne : command = .evlrn → ¬ m.TeachesErased t.config.layout) :
    ∃ t', turn c t = .ok t' ∧ Answered command result t t' := by
  obtain ⟨t', ht', hobeyed⟩ := obeyed_handle (c := c) hc hu hdemand hne
  refine ⟨pollListing c t', ?_, hobeyed.pollListing c⟩
  unfold turn
  rw [hm]
  simp only [ht', Except.map]

theorem changesOnly_handleNamed {o : Opcode} (ho : o ≠ .nnclr) (c : Cycle) (m : Message)
    (t : Turn Teaching) : ChangesOnly [.learning] t.config (handleNamed c m o t).config := by
  cases o with
  | nnuln => exact changesOnly_setLearning _ _
  | mode =>
    unfold handleNamed obeyMode
    dsimp only
    split
    · exact changesOnly_setLearning _ _
    · exact changesOnly_setLearning _ _
    · exact .refl _ _
  | nnclr => exact absurd rfl ho
  | _ => simpa [handleNamed] using ChangesOnly.refl _ _

/-- A message that asks nothing of the map leaves the records. -/
theorem changesOnly_handle (hdemand : demandIn? m t.config = none) :
    ∃ t', handle c m t = .ok t' ∧ ChangesOnly [.learning] t.config t'.config := by
  unfold demandIn? demand? at hdemand
  unfold handle
  split
  · exact ⟨t, rfl, .refl _ _⟩
  · refine ⟨_, rfl, ?_⟩
    unfold yieldLearning
    split_ifs
    · exact changesOnly_setLearning _ _
    · exact changesOnly_setLearning _ _
    · exact .refl _ _
  · rename_i ho
    rw [ho] at hdemand
    dsimp only at hdemand
    split_ifs at hdemand with hl
    rw [if_neg hl]
    exact ⟨t, rfl, .refl _ _⟩
  · rename_i ho
    rw [ho] at hdemand
    dsimp only at hdemand
    split_ifs at hdemand with hl
    rw [if_neg hl]
    exact ⟨t, rfl, .refl _ _⟩
  · refine ⟨_, rfl, ?_⟩
    split_ifs
    · rw [config_answerVariable]
      exact .refl _ _
    · exact .refl _ _
  · rename_i o _ _ _ _ ho
    refine ⟨_, rfl, ?_⟩
    by_cases hnamed : t.isNamedBy m = true
    · rw [if_pos hnamed]
      refine changesOnly_handleNamed (fun hclear => ?_) c m t
      subst hclear
      rw [ho] at hdemand
      dsimp only at hdemand
      rw [if_pos (isNamedBy_iff.1 hnamed)] at hdemand
      contradiction
    · rw [if_neg hnamed]
      exact .refl _ _

/-- Without a command that asks something of the map, a turn leaves the records. -/
theorem changesOnly_turn (h : ∀ m, c.received? = some m → demandIn? m t.config = none) :
    ∃ t', turn c t = .ok t' ∧ ChangesOnly [.learning] t.config t'.config := by
  unfold turn
  rcases hm : c.received? with _ | m
  · refine ⟨_, rfl, ?_⟩
    rw [config_pollListing]
    exact .refl _ _
  · obtain ⟨t', ht', hch⟩ := changesOnly_handle (c := c) (h m hm)
    refine ⟨pollListing c t', by simp only [ht', Except.map], ?_⟩
    rw [config_pollListing]
    exact hch

end Teaching

end RailNode
