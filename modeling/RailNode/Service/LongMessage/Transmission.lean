import RailNode.Service.LongMessage.Fragment
import RailNode.Time

/-
  The sending side of the long message service. The messages of a transfer leave one by one, with
  a delay between them so that slow receivers keep up.
-/
namespace RailNode.LongMessage

/-- Why a payload was not accepted. -/
inductive SendError where
  /-- Another transfer is going on. -/
  | busy
  /-- The payload is too long. -/
  | tooLong
deriving DecidableEq, Repr

structure Transmission where
  /-- The longest payload that can be sent. -/
  capacity : Nat
  /-- The delay between two messages. -/
  delay : Time
  /-- The messages that are still to be sent. -/
  pending : List Message := []
  /-- When the next message may leave; at once if there is no such moment. -/
  due : Option Time := none
deriving DecidableEq, Repr

namespace Transmission

/-- Whether a transfer is going on. -/
def isSending (s : Transmission) : Bool := !s.pending.isEmpty

/-- Starts a transfer. -/
def send (stream : UInt8) (payload : List UInt8) (s : Transmission) :
    Except SendError Transmission :=
  if s.isSending then .error .busy
  else if s.capacity < payload.length ∨ maxLength < payload.length then .error .tooLong
  else .ok { s with pending := messages stream payload, due := none }

/-- The message that may leave now, if any, and what is left to send. -/
def poll (now : Time) (s : Transmission) : Option Message × Transmission :=
  match s.pending with
  | [] => (none, s)
  | m :: rest =>
    if s.due.any (now < ·) then (none, s)
    else (some m, { s with pending := rest, due := some (Time.deadline now s.delay) })

end Transmission

end RailNode.LongMessage
