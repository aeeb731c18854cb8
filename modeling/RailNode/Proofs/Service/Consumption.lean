import RailNode.Proofs.Recognition
import RailNode.Proofs.Service.Queueing

/-
  The two services that look for learned events in the messages of the bus. What they both
  recognise is said without the index: a complete message of one of the sixteen accessory events,
  and the lowest slot in use that holds the event under which the table files it
  (`IndexAgrees.recognise?_eq_some_iff`). Nothing else heeds such a message, so each of them finds
  the table as the cycle has found it.
-/
namespace RailNode

open Turn

/-! ## Messages -/

/-- Nobody else knows the opcode of an accessory event. -/
theorem Opcode.ofByte?_eventCode (code : EventCode) : Opcode.ofByte? code.byte = none := by
  obtain ⟨short, on, data⟩ := code
  revert data
  cases short <;> cases on <;> decide

namespace Message

variable {m : Message} {code : EventCode} {event : EventId} {data : List UInt8}

/-- The message is an accessory event with all its bytes: behind the opcode stand the event and as
    many data bytes as the opcode counts. -/
structure Carries (m : Message) (code : EventCode) (event : EventId) (data : List UInt8) :
    Prop where
  bytes : ∃ rest, m.bytes = code.byte :: (event.bytes ++ data ++ rest)
  length : data.length = code.data

theorem eventCode?_eq_some_iff : m.eventCode? = some code ↔ m.bytes.head? = some code.byte := by
  unfold eventCode? opcodeByte?
  rw [Option.bind_eq_some_iff]
  constructor
  · rintro ⟨b, hb, hcode⟩
    rw [hb, EventCode.ofByte?_eq_some_iff.1 hcode]
  · intro hb
    exact ⟨code.byte, hb, EventCode.ofByte?_byte code⟩

/-- Four bytes behind the opcode spell the event. -/
theorem event?_eq_some_iff (h : 5 ≤ m.length) :
    m.event? = some event ↔ (m.bytes.drop 1).take 4 = event.bytes := by
  unfold length at h
  unfold Message.event? word? byte?
  match m.bytes, h with
  | b :: n₁ :: n₂ :: e₁ :: e₂ :: rest, _ =>
    show some (⟨Word.join n₁ n₂, Word.join e₁ e₂⟩ : EventId) = some event ↔
      [n₁, n₂, e₁, e₂] = event.bytes
    have hbytes : (⟨Word.join n₁ n₂, Word.join e₁ e₂⟩ : EventId).bytes = [n₁, n₂, e₁, e₂] := by
      unfold EventId.bytes
      rw [Word.bytes_join, Word.bytes_join]
      rfl
    rw [Option.some.injEq, ← hbytes]
    refine ⟨congrArg EventId.bytes, fun heq => ?_⟩
    rw [← EventId.ofBytes_bytes ⟨Word.join n₁ n₂, Word.join e₁ e₂⟩, heq, EventId.ofBytes_bytes]

theorem isComplete_iff (h : m.eventCode? = some code) :
    m.isComplete = true ↔ 5 + code.data ≤ m.length := by
  have hbyte : m.opcodeByte? = some code.byte := eventCode?_eq_some_iff.1 h
  have hcount := code.dataLength_byte
  unfold isComplete
  rw [hbyte, Option.any_some, decide_eq_true_iff, Opcode.messageLength]
  omega

/-- The bytes of the message, part by part. -/
theorem carries_iff : m.Carries code event data ↔ m.eventCode? = some code ∧
    m.isComplete = true ∧ m.event? = some event ∧ (m.bytes.drop 5).take code.data = data := by
  constructor
  · rintro ⟨⟨rest, hbytes⟩, hlength⟩
    have hm : m.length = 5 + data.length + rest.length := by
      unfold length
      rw [hbytes, List.length_cons, List.length_append, List.length_append, EventId.length_bytes]
      omega
    have hcode : m.eventCode? = some code := by
      rw [eventCode?_eq_some_iff, hbytes]
      rfl
    refine ⟨hcode, (isComplete_iff hcode).2 (by omega), ?_, ?_⟩
    · rw [event?_eq_some_iff (by omega), hbytes]
      rfl
    · rw [hbytes, ← hlength]
      exact List.take_left
  · rintro ⟨hcode, hcomplete, hevent, hdata⟩
    have hlong := (isComplete_iff hcode).1 hcomplete
    unfold length at hlong
    rw [event?_eq_some_iff (Nat.le_trans (Nat.le_add_right 5 _) hlong)] at hevent
    obtain ⟨tail, htail⟩ := List.head?_eq_some_iff.1 (eventCode?_eq_some_iff.1 hcode)
    rw [htail, List.drop_succ_cons, List.drop_zero] at hevent
    rw [htail, List.drop_succ_cons] at hdata
    rw [htail, List.length_cons] at hlong
    refine ⟨⟨(tail.drop 4).drop code.data, ?_⟩, ?_⟩
    · rw [htail, ← hevent, ← hdata, List.append_assoc, List.take_append_drop,
        List.take_append_drop]
    · rw [← hdata, List.length_take, List.length_drop]
      omega

theorem Carries.opcode?_eq_none (h : m.Carries code event data) : m.opcode? = none := by
  have hbyte : m.opcodeByte? = some code.byte := eventCode?_eq_some_iff.1 (carries_iff.1 h).1
  unfold opcode?
  rw [hbyte, Option.bind_some]
  exact Opcode.ofByte?_eventCode code

end Message

/-! ## Tables -/

namespace Configuration

variable {c d : Configuration} {m : Message} {e : RecognisedEvent} {event : EventId} {slot : Nat}

/-- The slot is the lowest in use that holds the event. -/
structure LowestWith (c : Configuration) (event : EventId) (slot : Nat) : Prop where
  used : c.isFree slot = false
  holds : c.event slot = .ok event
  lowest : ∀ j < slot, c.isFree j = false → c.event j ≠ .ok event

/-- The message brings a learned event: it is complete, and the lowest slot in use that holds the
    event under which the table files it is the one that is given. The node number and the data are
    those that were sent. -/
structure Brings (c : Configuration) (m : Message) (e : RecognisedEvent) : Prop where
  carried : ∃ code : EventCode, m.Carries code e.event e.data ∧ e.short = code.short ∧
    e.on = code.on
  filed : c.LowestWith (e.event.key e.short) e.slot

theorem IndexAgrees.find_eq_ok_iff_lowestWith (hc : c.IndexAgrees) :
    c.find event = .ok slot ↔ c.LowestWith event slot := by
  rw [hc.find_eq_ok_iff]
  constructor
  · rintro ⟨hs, ⟨hvacant, hheld⟩, hlowest⟩
    refine ⟨(hc.isFree_eq_false_iff hs).2 hvacant, hheld, fun j hj hused heq => ?_⟩
    exact hlowest j hj ⟨(hc.isFree_eq_false_iff (Nat.lt_trans hj hs)).1 hused, heq⟩
  · rintro ⟨hused, hheld, hlowest⟩
    have hs := slot_lt_of_isFree hused
    refine ⟨hs, ⟨(hc.isFree_eq_false_iff hs).1 hused, hheld⟩, fun j hj hholds => ?_⟩
    exact hlowest j hj ((hc.isFree_eq_false_iff (Nat.lt_trans hj hs)).2 hholds.1) hholds.2

theorem recognise?_eq_some_iff_find : c.recognise? m = some e ↔
    ∃ code : EventCode, m.Carries code e.event e.data ∧ e.short = code.short ∧ e.on = code.on ∧
      c.find (e.event.key e.short) = .ok e.slot := by
  simp only [recognise?, Option.bind_eq_bind, Option.bind_eq_some_iff, guard, Message.carries_iff]
  constructor
  · rintro ⟨code, hcode, _, hcomplete, event, hevent, slot, hslot, heq⟩
    split_ifs at hcomplete with hcomplete'
    obtain rfl := Option.some.inj heq
    exact ⟨code, ⟨hcode, hcomplete', hevent, rfl⟩, rfl, rfl, toOption_eq_some_iff.1 hslot⟩
  · obtain ⟨slot, event, short, on, data⟩ := e
    rintro ⟨code, ⟨hcode, hcomplete, hevent, rfl⟩, rfl, rfl, hfind⟩
    refine ⟨code, hcode, (), if_pos hcomplete, event, hevent, slot, ?_, rfl⟩
    exact toOption_eq_some_iff.2 hfind

/-- What is recognised in a message is the learned event that the message brings. -/
theorem IndexAgrees.recognise?_eq_some_iff (hc : c.IndexAgrees) :
    c.recognise? m = some e ↔ c.Brings m e := by
  rw [recognise?_eq_some_iff_find]
  constructor
  · rintro ⟨code, hcarries, hshort, hon, hfind⟩
    exact ⟨⟨code, hcarries, hshort, hon⟩, hc.find_eq_ok_iff_lowestWith.1 hfind⟩
  · rintro ⟨⟨code, hcarries, hshort, hon⟩, hfiled⟩
    exact ⟨code, hcarries, hshort, hon, hc.find_eq_ok_iff_lowestWith.2 hfiled⟩

theorem opcode?_of_recognise? (h : c.recognise? m = some e) : m.opcode? = none := by
  obtain ⟨code, hcarries, -⟩ := recognise?_eq_some_iff_find.1 h
  exact hcarries.opcode?_eq_none

/-- Without a change of the table the same is recognised. -/
theorem IndexAgrees.recognise?_of_changesOnly {A : List Part} (hc : c.IndexAgrees)
    (hd : d.IndexAgrees) (h : ChangesOnly A c d) (hA : Part.records ∉ A) (m : Message) :
    d.recognise? m = c.recognise? m := by
  ext e
  simp only [recognise?_eq_some_iff_find,
    hc.find_congr hd h.layout fun _ hs => h.record? hA hs]

end Configuration

/-! ## The consumer -/

namespace EventConsumer

variable {c : Cycle} {d : Configuration} {s : EventConsumer}

/-- The event that the service keeps in its turn, if any. -/
def consumed? (c : Cycle) (d : Configuration) (s : EventConsumer) : Option RecognisedEvent :=
  if d.mode = .normal then (s.observed? c).bind d.recognise? else none

theorem consumed?_eq_some_iff {e : RecognisedEvent} : s.consumed? c d = some e ↔
    d.mode = .normal ∧ ∃ m, s.observed? c = some m ∧ d.recognise? m = some e := by
  unfold consumed?
  split_ifs with hmode
  · simp only [Option.bind_eq_some_iff, hmode, true_and]
  · simp only [hmode, false_and]

theorem consumed?_of_received {m : Message} (hm : c.action = some (.received m)) :
    s.consumed? c d = if d.mode = .normal then d.recognise? m else none := by
  unfold consumed? observed?
  rw [hm]
  rfl

/-- All that the service does. -/
theorem turn_eq (c : Cycle) (t : Turn EventConsumer) : turn c t =
    { t with
      self.pending := t.self.pending.putAll (t.self.consumed? c t.config).toList } := by
  unfold turn consumed?
  split_ifs
  · rcases (observed? c t.self).bind t.config.recognise? with _ | e <;> rfl
  · rfl

theorem exists_consumer {s : Service} (h : s.id = .consumer) : ∃ x, s = .consumer x := by
  cases s with
  | consumer x => exact ⟨x, rfl⟩
  | _ => exact absurd h (by simp only [Service.id]; decide)

end EventConsumer

/-! ## The service that acknowledges -/

theorem RecognisedEvent.length_acknowledgement_le (e : RecognisedEvent) :
    (e.event.bytes ++ [UInt8.ofNat e.slot]).length ≤ 5 := by
  simp

/-- The ENRSP message with which a node acknowledges an event. -/
def RecognisedEvent.acknowledgement (number : UInt16) (e : RecognisedEvent) : Action :=
  .transmit (.addressed Opcode.enrsp.byte number (e.event.bytes ++ [UInt8.ofNat e.slot])
    e.length_acknowledgement_le)

namespace EventAcknowledge

variable {c : Cycle} {m : Message}

theorem given_obeyMode (m : Message) (t : Turn EventAcknowledge) :
    (obeyMode m t).given = t.given := by
  unfold obeyMode
  split <;> rfl

theorem given_acknowledge (m : Message) (t : Turn EventAcknowledge) :
    (acknowledge m t).given = t.given ++
      if t.config.acknowledge ∧ t.config.mode = .normal then
        (t.config.recognise? m).toList.map (RecognisedEvent.acknowledgement t.config.nodeNumber)
      else [] := by
  unfold acknowledge
  split_ifs
  · rcases t.config.recognise? m with _ | e
    · exact (List.append_nil _).symm
    · exact given_reply _ _ _ _
  · exact (List.append_nil _).symm

/-- What the service queues about a message. A MODE message brings no event. -/
theorem given_turn (hm : c.received? = some m) (t : Turn EventAcknowledge) :
    (turn c t).given = t.given ++
      if t.config.acknowledge ∧ t.config.mode = .normal then
        (t.config.recognise? m).toList.map (RecognisedEvent.acknowledgement t.config.nodeNumber)
      else [] := by
  unfold turn
  rw [hm]
  dsimp only
  by_cases hmode : m.opcode? = some .mode ∧ t.isNamedBy m = true
  · have hnone : t.config.recognise? m = none := by
      refine Option.eq_none_iff_forall_ne_some.2 fun e he => ?_
      rw [Configuration.opcode?_of_recognise? he] at hmode
      exact absurd hmode.1 (by decide)
    rw [if_pos hmode, given_obeyMode, hnone, Option.toList_none, List.map_nil, ite_self,
      List.append_nil]
  · rw [if_neg hmode, given_acknowledge]

theorem exists_acknowledge {s : Service} (h : s.id = .acknowledge) : ∃ x, s = .acknowledge x := by
  cases s with
  | acknowledge x => exact ⟨x, rfl⟩
  | _ => exact absurd h (by simp only [Service.id]; decide)

end EventAcknowledge

end RailNode
