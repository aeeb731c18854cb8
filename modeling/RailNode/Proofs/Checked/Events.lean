import RailNode.Proofs.Checked.EventTable
import RailNode.Proofs.Checked.Turn
import RailNode.Service.EventAcknowledge
import RailNode.Service.EventConsumer
import RailNode.Service.EventProducer

/-
  The services that send and recognise events, under bounds. The opcode of an event counts its data
  bytes, so a complete message has them all; and three data bytes are the most for which there is
  an opcode.
-/
namespace RailNode.Checked

/-! ## Recognising an event -/

/-- The most data bytes of an event. -/
def eventDataCapacity : Nat := 3

/-- The data bytes of an event, put in the places that a recognised event has for them. -/
def eventData (length : Nat) (m : Message) : Except Halt (List UInt8) := do
  let stop ← add sizeLimit 5 length
  let bytes ← slice 5 stop m.bytes
  let data ← overwrite 0 length bytes (List.replicate eventDataCapacity 0)
  slice 0 length data

/-- The learned event that a message carries, if it is complete and in the table. -/
def recognise (c : Configuration) (m : Message) : Except Halt (Option RecognisedEvent) := do
  match m.eventCode? with
  | none => return none
  | some code =>
    let complete ← Message.isComplete m
    if !complete then return none
    match m.event? with
    | none => return none
    | some event =>
      match ← Configuration.find (event.key code.short) c with
      | .error _ => return none
      | .ok slot =>
        let data ← eventData code.data m
        return some { slot, event, short := code.short, on := code.on, data }

theorem messageLength_byte (code : EventCode) :
    Opcode.messageLength code.byte = 5 + code.data.val := by
  obtain ⟨short, on, data⟩ := code
  revert data
  cases short <;> cases on <;> decide

theorem eventData_eq {length : Nat} {m : Message} (h : length < 4) (hm : 5 + length ≤ m.length) :
    eventData length m = .ok ((m.bytes.drop 5).take length) := by
  have hlen : 5 + length ≤ m.bytes.length := hm
  have hbytes : ((m.bytes.take (5 + length)).drop 5).length = length := by
    rw [List.length_drop, List.length_take]
    omega
  have hplaces : length ≤ (List.replicate eventDataCapacity (0 : UInt8)).length :=
    Nat.le_of_lt_succ h
  rw [eventData, add_eq (by unfold sizeLimit; omega), ok_bind, slice_eq (by omega) hlen, ok_bind,
    overwrite_eq (Nat.zero_le _) hplaces hbytes, ok_bind, slice_eq (Nat.zero_le _)]
  · rw [List.take_zero, List.nil_append, List.drop_zero, List.take_left' hbytes, List.drop_take,
      Nat.add_sub_cancel_left]
  · rw [List.take_zero, List.nil_append, List.length_append, hbytes]
    exact Nat.le_add_right _ _

theorem recognise_eq (c : Configuration) (m : Message) :
    recognise c m = .ok (c.recognise? m) := by
  unfold recognise RailNode.Configuration.recognise?
  rcases hcode : m.eventCode? with _ | code
  · rfl
  dsimp only
  rw [Message.isComplete_eq, ok_bind]
  rcases hcomplete : m.isComplete with _ | _
  · rfl
  rcases m.event? with _ | event
  · rfl
  rw [if_neg (by decide)]
  dsimp only
  show _ = Except.ok ((c.find (event.key code.short)).toOption.bind fun slot =>
    some (RecognisedEvent.mk slot event code.short code.on ((m.bytes.drop 5).take code.data)))
  rw [Configuration.find_eq, ok_bind]
  rcases c.find (event.key code.short) with _ | slot
  · rfl
  · have hlen : 5 + code.data.val ≤ m.length := by
      obtain ⟨b, hb, hof⟩ := Option.bind_eq_some_iff.1 hcode
      rw [RailNode.Message.isComplete, hb, EventCode.ofByte?_eq_some_iff.1 hof, Option.any_some,
        decide_eq_true_eq, messageLength_byte] at hcomplete
      exact hcomplete
    dsimp only
    rw [eventData_eq code.data.isLt hlen]
    rfl

/-! ## The services -/

def EventConsumer.turn (c : Cycle) (t : Turn EventConsumer) : Except Halt (Turn EventConsumer) :=
  if t.config.mode = .normal then
    match RailNode.EventConsumer.observed? c t.self with
    | none => return t
    | some m => do
      match ← recognise t.config m with
      | none => return t
      | some e =>
        let pending ← Backlog.put e t.self.pending
        return { t with self.pending := pending }
  else return t

theorem EventConsumer.turn_eq (c : Cycle) (t : Turn EventConsumer) :
    EventConsumer.turn c t = .ok (RailNode.EventConsumer.turn c t) := by
  unfold EventConsumer.turn RailNode.EventConsumer.turn
  split_ifs
  · rcases RailNode.EventConsumer.observed? c t.self with _ | m
    · rfl
    · dsimp only [Option.bind_some]
      rw [recognise_eq, ok_bind]
      rcases t.config.recognise? m with _ | e
      · rfl
      · dsimp only
        rw [Backlog.put_eq _ _ (by decide)]
        rfl
  · rfl

/-- The most bytes that follow the node number in a message. -/
def argsCapacity : Nat := 5

/-- The number of an event and its data bytes, put in the places behind the node number. -/
def EventProducer.args (number : UInt16) (data : List UInt8) : Except Halt (List UInt8) := do
  let args ← overwrite 0 2 (Word.bytes number) (List.replicate argsCapacity 0)
  let stop ← add sizeLimit 2 data.length
  let args ← overwrite 2 stop data args
  slice 0 stop args

/-- The message that sends the event in a slot. -/
def EventProducer.message (c : Configuration) (slot : Nat) (on : Bool) (data : List UInt8) :
    Except Halt (Except ProduceError Message) := do
  if c.mode ≠ .normal then return .error .notNormal
  if eventDataCapacity < data.length then return .error .tooMuchData
  if c.isFree slot then return .error .emptySlot
  match ← Configuration.event slot c with
  | .error _ => return .error .emptySlot
  | .ok e =>
    let node := if e.node = 0 then c.nodeNumber else e.node
    let code ← trust (EventCode.ofLength? (e.node == 0) on data.length)
    let args ← EventProducer.args e.number data
    let m ← Message.addressed code.byte node args
    return .ok m

theorem EventProducer.args_eq (number : UInt16) {data : List UInt8} (h : data.length < 4) :
    EventProducer.args number data = .ok (Word.bytes number ++ data) := by
  match data, h with
  | [], _ => rfl
  | [_], _ => rfl
  | [_, _], _ => rfl
  | [_, _, _], _ => rfl
  | _ :: _ :: _ :: _ :: rest, h => exact absurd h (by simp)

theorem EventProducer.message_eq (c : Configuration) (slot : Nat) (on : Bool)
    (data : List UInt8) : EventProducer.message c slot on data =
      .ok (RailNode.EventProducer.message c slot on data) := by
  unfold EventProducer.message RailNode.EventProducer.message
  by_cases hmode : c.mode ≠ .normal
  · rw [if_pos hmode, if_pos hmode]
    rfl
  rw [if_neg hmode, if_neg hmode]
  by_cases hdata : data.length < 4
  · have hroom : ¬ eventDataCapacity < data.length := Nat.not_lt.2 (Nat.le_of_lt_succ hdata)
    rw [if_neg hroom, dif_pos hdata]
    split_ifs with hfree
    · rfl
    · rw [Configuration.event_eq, ok_bind]
      rcases c.event slot with _ | e
      · rfl
      · have hargs : (Word.bytes e.number ++ data).length ≤ 5 := by
          rw [List.length_append, Word.length_bytes]
          omega
        dsimp only
        rw [EventCode.ofLength?, dif_pos hdata, trust_some, ok_bind,
          EventProducer.args_eq _ hdata, ok_bind, Message.addressed_eq _ _ hargs]
        rfl
  · have hlong : eventDataCapacity < data.length := Nat.lt_of_succ_le (Nat.not_lt.1 hdata)
    rw [if_pos hlong, dif_neg hdata]
    rfl

def EventAcknowledge.acknowledge (m : Message) (t : Turn EventAcknowledge) :
    Except Halt (Turn EventAcknowledge) :=
  if t.config.acknowledge ∧ t.config.mode = .normal then do
    match ← recognise t.config m with
    | none => return t
    | some e =>
      Turn.reply .enrsp (e.event.bytes ++ [UInt8.ofNat e.slot])
        { t with self.acknowledged := t.self.acknowledged + 1 }
  else return t

def EventAcknowledge.obeyMode (m : Message) (t : Turn EventAcknowledge) :
    Except Halt (Turn EventAcknowledge) :=
  match (m.byte? 3).bind ModeCommand.ofByte? with
  | some .acknowledgeOn =>
    Turn.configure (Configuration.setFlag RailNode.Configuration.acknowledgeFlag true) t
  | some .acknowledgeOff =>
    Turn.configure (Configuration.setFlag RailNode.Configuration.acknowledgeFlag false) t
  | _ => return t

def EventAcknowledge.turn (c : Cycle) (t : Turn EventAcknowledge) :
    Except Halt (Turn EventAcknowledge) :=
  match c.received? with
  | none => return t
  | some m =>
    if m.opcode? = some .mode ∧ t.isNamedBy m then EventAcknowledge.obeyMode m t
    else EventAcknowledge.acknowledge m t

theorem EventAcknowledge.turn_eq (c : Cycle) (t : Turn EventAcknowledge) :
    EventAcknowledge.turn c t = .ok (RailNode.EventAcknowledge.turn c t) := by
  unfold EventAcknowledge.turn RailNode.EventAcknowledge.turn
  rcases c.received? with _ | m
  · rfl
  dsimp only
  split_ifs
  · unfold EventAcknowledge.obeyMode RailNode.EventAcknowledge.obeyMode
    rcases (m.byte? 3).bind ModeCommand.ofByte? with _ | k
    · rfl
    · cases k with
      | acknowledgeOn => exact Turn.configure_eq (Configuration.setFlag_eq _ _ _)
      | acknowledgeOff => exact Turn.configure_eq (Configuration.setFlag_eq _ _ _)
      | _ => rfl
  · unfold EventAcknowledge.acknowledge RailNode.EventAcknowledge.acknowledge
    split_ifs
    · rw [recognise_eq, ok_bind]
      rcases t.config.recognise? m with _ | e
      · rfl
      · exact Turn.reply_eq _ _ _ _
    · rfl

end RailNode.Checked
