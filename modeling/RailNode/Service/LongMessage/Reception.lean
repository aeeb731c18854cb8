import RailNode.Backlog
import RailNode.Service.LongMessage.Fragment
import RailNode.Time

/-
  The receiving side of the long message service. One transfer is taken in at a time, on a stream
  that the application has subscribed to. A header that announces payload starts a new transfer.
  A header that announces none is a complete transfer in itself: it hides the received data, and
  a transfer that was going on may go on.
-/
namespace RailNode.LongMessage

/-- How a transfer has ended. -/
inductive ReceiveStatus where
  | complete
  /-- All was received, but not all could be kept. -/
  | truncated
  /-- A fragment was lost. -/
  | sequenceError
  /-- The sender went silent. -/
  | timeout
deriving DecidableEq, Repr

/-- The end of a transfer, as the application learns of it. -/
structure Receipt where
  stream : UInt8
  /-- How many bytes of the payload were received. -/
  length : Nat
  status : ReceiveStatus
deriving DecidableEq, Repr

/-- A transfer that is coming in. -/
structure Inbound where
  stream : UInt8
  /-- The bytes of the payload that have come. -/
  received : Nat
  /-- The bytes that are still to come. -/
  remaining : Nat
  /-- The sequence number of the next fragment. -/
  next : UInt8
  /-- When the last message came. -/
  latest : Time
  /-- The bytes that have been kept. -/
  kept : List UInt8
deriving DecidableEq, Repr

/-- The number of receipts that may wait. -/
def receiptCapacity : Nat := 4

structure Reception where
  /-- How many bytes of a payload can be kept. -/
  capacity : Nat
  /-- The longest silence of a sender. -/
  timeout : Time
  streams : List UInt8 := []
  inbound : Option Inbound := none
  /-- What the application sees of the latest transfer. -/
  data : List UInt8 := []
  /-- The receipts that wait for the application. -/
  receipts : Backlog Receipt receiptCapacity := {}
  completed : UInt16 := 0
  failed : UInt16 := 0
deriving DecidableEq, Repr

namespace Reception

/-- The number of streams that can be subscribed to. -/
def maxStreams : Nat := 4

/-- Subscribes to a stream; `none` if there are too many. -/
def subscribe? (stream : UInt8) (r : Reception) : Option Reception :=
  if r.streams.contains stream then some r
  else if r.streams.length < maxStreams then some { r with streams := r.streams ++ [stream] }
  else none

/-- Takes the oldest receipt. -/
def takeReceipt? (r : Reception) : Option (Receipt × Reception) :=
  r.receipts.pop?.map fun (receipt, receipts) => (receipt, { r with receipts })

/-- Leaves a receipt. If too many wait the oldest is dropped. -/
def leave (receipt : Receipt) (r : Reception) : Reception :=
  { r with receipts := r.receipts.put receipt }

/-- Reports a transfer of which all has come. -/
def complete (stream : UInt8) (length : Nat) (r : Reception) : Reception :=
  { r with completed := r.completed + 1 }.leave
    { stream, length, status := if r.capacity < length then .truncated else .complete }

/-- Gives the transfer up that is coming in. -/
def abort (status : ReceiveStatus) (r : Reception) : Reception :=
  match r.inbound with
  | none => r
  | some i =>
    { r with inbound := none, failed := r.failed + 1 }.leave
      { stream := i.stream, length := i.received, status }

/-- A header has announced a payload of this length. -/
def announce (now : Time) (stream : UInt8) (length : Nat) (r : Reception) : Reception :=
  let r := { r with data := [] }
  if length = 0 then r.complete stream 0
  else
    { r with
      inbound := some
        { stream, received := 0, remaining := length, next := 1, latest := now, kept := [] } }

/-- A fragment of the transfer `i` has come. Of its bytes those count that are still to come. -/
def extend (now : Time) (i : Inbound) (bytes : List UInt8) (r : Reception) : Reception :=
  let payload := bytes.take i.remaining
  let kept := (i.kept ++ payload).take r.capacity
  let i :=
    { i with
      received := i.received + payload.length
      remaining := i.remaining - payload.length
      next := nextSequence i.next
      latest := now
      kept }
  let r := { r with data := kept }
  if i.remaining = 0 then { r with inbound := none }.complete i.stream i.received
  else { r with inbound := some i }

/-- Takes a message in. Only the messages of long messages on subscribed streams count. -/
def receive (now : Time) (m : Message) (r : Reception) : Reception :=
  if m.opcode? ≠ some .dtxc then r
  else
    match m.byte? 1, m.byte? 2 with
    | some stream, some sequence =>
      if !r.streams.contains stream then r
      else if sequence = 0 then
        match m.word? 3 with
        | none => r
        | some length => r.announce now stream length.toNat
      else
        match r.inbound with
        | none => r
        | some i =>
          if i.stream ≠ stream then r
          else if sequence ≠ i.next then r.abort .sequenceError
          else r.extend now i (m.bytes.drop 3)
    | _, _ => r

/-- Gives the transfer up if its sender has been silent for too long. -/
def pollTimeout (now : Time) (r : Reception) : Reception :=
  match r.inbound with
  | none => r
  | some i => if r.timeout < Time.elapsed now i.latest then r.abort .timeout else r

end Reception

end RailNode.LongMessage
