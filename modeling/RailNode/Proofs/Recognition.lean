import RailNode.Proofs.Configuration.Table
import RailNode.Recognition
import RailNode.Service.EventProducer

/-
  What is sent for a learned event, and what becomes of it in the table of whoever receives it. The
  two sides share no more than the layout of the opcodes. A producer puts the number of its node in
  place of a stored 0, which the lookup puts back (`EventId.key_sentBy`), so the message is filed
  under the stored event in every table (`EventProducer.exists_message`).
-/
namespace RailNode

/-! ## Messages -/

/-- The opcode counts the four bytes of the event and the data. -/
theorem EventCode.dataLength_byte (code : EventCode) :
    Opcode.dataLength code.byte = 4 + code.data := by
  obtain ⟨short, on, data⟩ := code
  revert data
  cases short <;> cases on <;> decide

namespace Message

variable {opcode : UInt8} {code : EventCode} {node number : UInt16} {args data : List UInt8}

theorem eventCode?_addressed (h : args.length ≤ 5) :
    (addressed code.byte node args h).eventCode? = some code := by
  simp [eventCode?, opcodeByte?, addressed, EventCode.ofByte?_byte]

theorem event?_addressed (h : (Word.bytes number ++ data).length ≤ 5) :
    (addressed opcode node (Word.bytes number ++ data) h).event? = some ⟨node, number⟩ := by
  simp [event?, word?, byte?, addressed, Word.bytes, Word.join_high_low]

theorem isComplete_addressed (hdata : data.length = code.data)
    (h : (Word.bytes number ++ data).length ≤ 5) :
    (addressed code.byte node (Word.bytes number ++ data) h).isComplete = true := by
  have hlength : (addressed code.byte node (Word.bytes number ++ data) h).length
      = 5 + data.length := by
    simp only [length, addressed, List.length_cons, List.length_append, Word.length_bytes]
    omega
  have hcount := code.dataLength_byte
  refine decide_eq_true ?_
  rw [hlength, Opcode.messageLength]
  omega

theorem drop_bytes_addressed (h : (Word.bytes number ++ data).length ≤ 5) :
    (addressed opcode node (Word.bytes number ++ data) h).bytes.drop 5 = data := rfl

end Message

/-! ## Identities -/

/-- A learned event as a node with this number sends it. -/
def EventId.sentBy (own : UInt16) (e : EventId) : EventId :=
  if e.node = 0 then { e with node := own } else e

/-- What is sent for an event is filed under it, whoever sends it. -/
theorem EventId.key_sentBy (own : UInt16) (e : EventId) :
    (e.sentBy own).key (e.node == 0) = e := by
  obtain ⟨node, number⟩ := e
  by_cases h : node = 0
  · subst h
    rfl
  · simp [sentBy, key, h]

/-! ## Tables -/

namespace Configuration

variable {c : Configuration} {slot : Nat} {e : EventId}

/-- A slot holds an event, and no other slot of the table does. -/
structure HoldsOnlyIn (c : Configuration) (slot : Nat) (e : EventId) : Prop where
  slot_lt : slot < c.layout.slots
  holds : c.Holds slot e
  only : ∀ j < c.layout.slots, c.Holds j e → j = slot

theorem IndexAgrees.find_of_holdsOnlyIn (hc : c.IndexAgrees) (h : c.HoldsOnlyIn slot e) :
    c.find e = .ok slot := by
  refine hc.find_eq_ok_iff.2 ⟨h.slot_lt, h.holds, fun j hj hheld => ?_⟩
  have hlt := Nat.lt_trans hj h.slot_lt
  exact Nat.ne_of_lt hj (h.only j hlt hheld)

theorem Unique.holdsOnlyIn (hu : c.Unique) (hs : slot < c.layout.slots) (h : c.Holds slot e) :
    c.HoldsOnlyIn slot e where
  slot_lt := hs
  holds := h
  only j hj hheld :=
    hu j hj slot hs e ((record?_eq_some_iff hj).2 hheld) ((record?_eq_some_iff hs).2 h)

/-- Recognising the message of an event comes down to a search for its key. -/
theorem recognise?_addressed {code : EventCode} {node number : UInt16} {data : List UInt8}
    (c : Configuration) (hdata : data.length = code.data)
    (h : (Word.bytes number ++ data).length ≤ 5) :
    c.recognise? (.addressed code.byte node (Word.bytes number ++ data) h) =
      (c.find (EventId.key ⟨node, number⟩ code.short)).toOption.map fun slot =>
        ⟨slot, ⟨node, number⟩, code.short, code.on, data⟩ := by
  have htake : data.take code.data = data := by rw [← hdata, List.take_length]
  unfold recognise?
  rw [Message.eventCode?_addressed, Message.isComplete_addressed hdata, Message.event?_addressed,
    Message.drop_bytes_addressed, guard, if_pos rfl]
  dsimp only [bind, Option.bind, pure]
  rw [htake]
  rcases c.find (EventId.key ⟨node, number⟩ code.short) with _ | slot <;> rfl

end Configuration

/-! ## Producers -/

namespace EventProducer

variable {c : Configuration} {slot : Nat} {data : List UInt8}

/-- What a node asks of a call that is to send an event. -/
structure Accepts (c : Configuration) (slot : Nat) (data : List UInt8) : Prop where
  mode : c.mode = .normal
  data : data.length ≤ 3
  slot : c.isFree slot = false

/-- There is a message for every call that is accepted, and in any table it is filed under the
    event that the slot holds. -/
theorem exists_message {e : EventId} (h : Accepts c slot data) (he : c.event slot = .ok e)
    (on : Bool) :
    ∃ m, message c slot on data = .ok m ∧ ∀ d : Configuration, d.recognise? m =
      (d.find e).toOption.map fun slot =>
        ⟨slot, e.sentBy c.nodeNumber, e.node == 0, on, data⟩ := by
  have hlength : data.length < 4 := Nat.lt_succ_of_le h.data
  have hargs : (Word.bytes e.number ++ data).length ≤ 5 := by
    rw [List.length_append, Word.length_bytes]
    omega
  let code : EventCode := ⟨e.node == 0, on, ⟨data.length, hlength⟩⟩
  have hsent : ⟨if e.node = 0 then c.nodeNumber else e.node, e.number⟩ =
      e.sentBy c.nodeNumber := by
    unfold EventId.sentBy
    split_ifs <;> rfl
  refine ⟨.addressed code.byte (if e.node = 0 then c.nodeNumber else e.node)
    (Word.bytes e.number ++ data) hargs, ?_, fun d => ?_⟩
  · unfold message
    rw [if_neg (not_not_intro h.mode), dif_pos hlength, h.slot, he]
    rfl
  · rw [d.recognise?_addressed (show data.length = code.data from rfl), hsent,
      EventId.key_sentBy]

/-- Any other call is refused. -/
theorem exists_error (h : ¬ Accepts c slot data) (on : Bool) :
    ∃ x, message c slot on data = .error x := by
  unfold message
  by_cases hmode : c.mode = .normal
  · rw [if_neg (not_not_intro hmode)]
    by_cases hlength : data.length < 4
    · have hfree : c.isFree slot = true := by
        rw [← Bool.not_eq_false]
        intro hslot
        exact h ⟨hmode, Nat.le_of_lt_succ hlength, hslot⟩
      rw [dif_pos hlength, hfree]
      exact ⟨_, rfl⟩
    · rw [dif_neg hlength]
      exact ⟨_, rfl⟩
  · rw [if_pos hmode]
    exact ⟨_, rfl⟩

end EventProducer

end RailNode
