import RailNode.Proofs.Pacing
import RailNode.Proofs.Service.Queueing
import RailNode.Proofs.Service.Safety

/-
  The long answers of the services and of the reporters, turn by turn. Each of them first does
  everything else that there is to do (`prepare`): a message may start a long answer and have it
  announced. Then it gives the reply that is due (`pollListing`). For each of them it stands in a
  module of its own which message starts which long answer, what else is sent with the opcode of its
  replies, and what a reply tells.
-/
namespace RailNode

/-- A message with an opcode, a node number and the first five of these bytes. -/
def Message.about (o : Opcode) (node : UInt16) (args : List UInt8) : Message :=
  .addressed o.byte node (args.take 5) (List.length_take_le 5 args)

theorem Action.sends_about (o : Opcode) (node : UInt16) (args : List UInt8) :
    (transmit (.about o node args)).sends o = true :=
  beq_iff_eq.2 (Message.opcode?_addressed o node (args.take 5) (List.length_take_le 5 args))

/-- After `before` the reply with this number has been queued to be sent, if there is a number. -/
inductive Replies (item? : Nat → Option Message) (before : List Action) :
    Option Nat → List Action → Prop
  | silent : Replies item? before none before
  | one (i : Nat) (m : Message) : item? i = some m →
      Replies item? before (some i) (before ++ [.transmit m])

theorem Replies.of_eq {item? : Nat → Option Message} {before after : List Action} {i : Nat}
    {m : Message} (hm : item? i = some m) (h : after = before ++ [.transmit m]) :
    Replies item? before (some i) after :=
  h ▸ .one i m hm

namespace Turn

variable {σ τ : Type}

/-! ## What is queued to be sent -/

/-- What a turn has queued to be sent with this opcode. -/
def sent (o : Opcode) (t : Turn σ) : List Action := t.given.filter (·.sends o)

theorem sent_put (o : Opcode) (a : Action) (t : Turn σ) :
    (t.put a).sent o = t.sent o ++ [a].filter (·.sends o) := by
  rw [sent, given_put, List.filter_append]
  rfl

theorem sent_send_self {o : Opcode} {m : Message} (h : m.opcode? = some o) (t : Turn σ) :
    (t.send m).sent o = t.sent o ++ [.transmit m] :=
  (sent_put o _ t).trans (congrArg _ (List.filter_cons_of_pos (beq_iff_eq.2 h)))

theorem sent_reply_self (o : Opcode) (args : List UInt8) (t : Turn σ) (h : args.length ≤ 5) :
    (t.reply o args h).sent o =
      t.sent o ++ [.transmit (.addressed o.byte t.config.nodeNumber args h)] :=
  sent_send_self (Message.opcode?_addressed o _ args h) t

/-- Who does not speak with an opcode sends nothing with it. -/
theorem Speaks.sent_eq {os : List Opcode} {o : Opcode} {t : Turn σ} {t' : Turn τ}
    (h : Speaks os t t') (ho : o ∉ os ++ Opcode.responses) : t'.sent o = t.sent o :=
  h.queues.filter_sends ho

end Turn

end RailNode
