import RailNode.Message

/-
  How a long message travels: a header with its length, then fragments of five bytes with the
  sequence numbers 1, 2, … 255, 1, … The last fragment is filled up with zeros.
-/
namespace RailNode.LongMessage

/-- The sequence number after another. A header alone has the number 0. -/
def nextSequence (n : UInt8) : UInt8 := if n = 255 then 1 else n + 1

/-- The longest payload that a header can announce. -/
def maxLength : Nat := 65535

/-- The message that announces a payload of a length. Checksum and flags are 0. -/
def header (stream : UInt8) (length : Nat) : Message :=
  let n := UInt16.ofNat length
  .ofOpcode .dtxc [stream, 0, Word.high n, Word.low n, 0, 0, 0]

/-- A message with five bytes of the payload. -/
def fragment (stream sequence a b c d e : UInt8) : Message :=
  .ofOpcode .dtxc [stream, sequence, a, b, c, d, e]

/-- The messages that carry a payload. -/
def fragments (stream sequence : UInt8) : List UInt8 → List Message
  | [] => []
  | [a] => [fragment stream sequence a 0 0 0 0]
  | [a, b] => [fragment stream sequence a b 0 0 0]
  | [a, b, c] => [fragment stream sequence a b c 0 0]
  | [a, b, c, d] => [fragment stream sequence a b c d 0]
  | a :: b :: c :: d :: e :: rest =>
    fragment stream sequence a b c d e :: fragments stream (nextSequence sequence) rest

/-- The header and the fragments of a payload. -/
def messages (stream : UInt8) (payload : List UInt8) : List Message :=
  header stream payload.length :: fragments stream 1 payload

end RailNode.LongMessage
