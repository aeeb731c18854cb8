import RailNode.Service.LongMessage.Reception
import RailNode.Service.LongMessage.Transmission
import RailNode.Service.Turn

/-
  The service for messages that are longer than a frame.
-/
namespace RailNode

/-- The times of long messages. -/
structure LongMessageTiming where
  /-- The delay between the messages of a transfer. -/
  fragmentDelay : Time
  /-- The longest silence of a sender. -/
  receiveTimeout : Time
deriving DecidableEq, Repr

def LongMessageTiming.standard : LongMessageTiming where
  fragmentDelay := Time.milliseconds 20
  receiveTimeout := Time.seconds 5

/-- The long message service: what comes in and what goes out. -/
structure LongMessage where
  reception : LongMessage.Reception
  transmission : LongMessage.Transmission
deriving DecidableEq, Repr

namespace LongMessage

/-- A service that keeps `received` bytes of a payload and sends up to `sent`. -/
def ofCapacities (timing : LongMessageTiming) (received sent : Nat) : LongMessage where
  reception := { capacity := received, timeout := timing.receiveTimeout }
  transmission := { capacity := sent, delay := timing.fragmentDelay }

/-- Subscribes to a stream; `none` if there are too many. -/
def subscribe? (stream : UInt8) (s : LongMessage) : Option LongMessage :=
  (s.reception.subscribe? stream).map fun reception => { s with reception }

/-- Starts to send a payload. -/
def send (stream : UInt8) (payload : List UInt8) (s : LongMessage) : Except SendError LongMessage :=
  (s.transmission.send stream payload).map fun transmission => { s with transmission }

/-- Takes the oldest receipt. -/
def takeReceipt? (s : LongMessage) : Option (Receipt × LongMessage) :=
  s.reception.takeReceipt?.map fun (receipt, reception) => (receipt, { s with reception })

/-- Takes in the message of the cycle, if there is one. -/
def react (c : Cycle) (r : Reception) : Reception :=
  match c.received? with
  | none => r
  | some m => r.receive c.now m

def turn (c : Cycle) (t : Turn LongMessage) : Turn LongMessage :=
  let (message, transmission) := t.self.transmission.poll c.now
  let t :=
    { t with self := { reception := (react c t.self.reception).pollTimeout c.now, transmission } }
  match message with
  | none => t
  | some m => t.send m

def diagnosticCount : Nat := 2

def diagnostic? (s : LongMessage) (code : Nat) : Option UInt16 :=
  match code with
  | 1 => some s.reception.completed
  | 2 => some s.reception.failed
  | _ => none

end LongMessage

end RailNode
