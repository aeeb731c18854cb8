import RailNode.Service

/-
  The diagnostics of one service. A request names a service by its position in the list, or all
  services with 0, and a value by its code, or all values with 0.
-/
namespace RailNode

structure Reporter where
  /-- The values that are still to be reported. -/
  listing : Option (Series Unit) := none
deriving DecidableEq, Repr

namespace Reporter

/-- Reports the value of a service with a code, 0 if there is none. -/
def sendValue (c : Cycle) (service : Service) (position code : Nat) (t : Turn Reporter) :
    Turn Reporter :=
  let value := (service.diagnostic? c t.shared code).getD 0
  t.reply .dgn [UInt8.ofNat position, UInt8.ofNat code, Word.high value, Word.low value]

/-- Answers a request if it concerns the service at this position. -/
def answer (c : Cycle) (service : Service) (position index code : Nat) (t : Turn Reporter) :
    Turn Reporter :=
  if index ≠ 0 ∧ index ≠ position then t
  else if code = 0 then
    if service.diagnosticCount = 0 then t
    else { t with self.listing := some (.start c.now () 1 (service.diagnosticCount + 1)) }
  else if code ≤ service.diagnosticCount then sendValue c service position code t
  else if index = 0 then t
  else t.respond .rdgn service.id .invalidDiagnostic

/-- Answers a request that names this node. -/
def handle (c : Cycle) (service : Service) (position : Nat) (m : Message) (t : Turn Reporter) :
    Turn Reporter :=
  if m.opcode? = some .rdgn ∧ t.isNamedBy m then
    match m.byte? 3, m.byte? 4 with
    | some index, some code => answer c service position index.toNat code.toNat t
    | _, _ => t
  else t

/-- Reports the value that is due. -/
def pollListing (c : Cycle) (service : Service) (position : Nat) (t : Turn Reporter) :
    Turn Reporter :=
  match t.self.listing with
  | none => t
  | some s =>
    let (number, rest) := s.poll c.now c.timing.replyGap
    let t := { t with self.listing := rest }
    match number with
    | none => t
    | some code => sendValue c service position code t

/-- The turn of the reporter, after that of its service. -/
def turn (c : Cycle) (service : Service) (position : Nat) (t : Turn Reporter) : Turn Reporter :=
  match c.received? with
  | some m => pollListing c service position (handle c service position m t)
  | none => pollListing c service position t

end Reporter

end RailNode
