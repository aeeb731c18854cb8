import RailNode.Recognition
import RailNode.Service.Turn

/-
  The service that passes learned events on to the application.
-/
namespace RailNode

/-- The number of events that may wait for the application. -/
def EventConsumer.capacity : Nat := 8

structure EventConsumer where
  /-- Whether the events that this node sends count too. -/
  consumesOwn : Bool := false
  /-- The events that wait for the application; of too many the oldest is dropped. -/
  pending : Backlog RecognisedEvent EventConsumer.capacity := {}
deriving DecidableEq, Repr

namespace EventConsumer

/-- Keeps an event for the application. -/
def keep (e : RecognisedEvent) (s : EventConsumer) : EventConsumer :=
  { s with pending := s.pending.put e }

/-- Takes the oldest event. -/
def take? (s : EventConsumer) : Option (RecognisedEvent × EventConsumer) :=
  s.pending.pop?.map fun (e, pending) => (e, { s with pending })

/-- The message of a cycle that the service looks at. -/
def observed? (c : Cycle) (s : EventConsumer) : Option Message :=
  match c.action with
  | some (.received m) => some m
  | some (.transmit m) => if s.consumesOwn then some m else none
  | _ => none

def turn (c : Cycle) (t : Turn EventConsumer) : Turn EventConsumer :=
  if t.config.mode = .normal then
    match (observed? c t.self).bind t.config.recognise? with
    | none => t
    | some e => { t with self := t.self.keep e }
  else t

def flags (s : EventConsumer) : UInt8 :=
  if s.consumesOwn then ParameterFlag.consumer.mask ||| ParameterFlag.consumesOwn.mask
  else ParameterFlag.consumer.mask

def diagnosticCount : Nat := 2

/-- How many events have been kept, and how many of them were dropped. -/
def diagnostic? (s : EventConsumer) (code : Nat) : Option UInt16 :=
  match code with
  | 1 => some s.pending.stats.puts.toUInt16
  | 2 => some s.pending.stats.overflows.toUInt16
  | _ => none

end EventConsumer

end RailNode
