import RailNode.Enumeration
import RailNode.Service.Turn

/-
  The service between the queue and the bus: it sends the messages that leave the queue, queues
  those that come in, and sees to it that the node has a bus address that no other node uses.
-/
namespace RailNode

structure BusAccess where
  enumeration : Enumeration := {}
  received : UInt16 := 0
  transmitted : UInt16 := 0
  /-- Messages that were lost because the link was full. -/
  refused : UInt16 := 0
  searches : UInt16 := 0
  conflicts : UInt16 := 0
  addressChanges : UInt16 := 0
deriving DecidableEq, Repr

namespace BusAccess

/-! ## Messages -/

/-- Sends a message. -/
def transmit (m : Message) (t : Turn BusAccess) : Turn BusAccess :=
  let s := t.self
  let s :=
    if t.hasRoom then { s with transmitted := s.transmitted + 1 }
    else { s with refused := s.refused + 1 }
  { t with self := s } |>.offerMessage m

/-- Takes an address. -/
def adopt (a : BusAddress) (t : Turn BusAccess) : Turn BusAccess :=
  let changes :=
    if a = t.config.address then t.self.addressChanges else t.self.addressChanges + 1
  { t with self.addressChanges := changes } |>.configure (·.setAddress a)

/-- The address that a CANID message assigns, if a node may claim it. -/
def assigned? (m : Message) : Option BusAddress :=
  ((m.byte? 3).bind BusAddress.ofByte?).filter BusAddress.isAssignable

/-- Takes the address that a message assigns. -/
def obeyAssignment (m : Message) (t : Turn BusAccess) : Turn BusAccess :=
  match assigned? m with
  | some a => (adopt a t).confirm .canid .busAccess
  | none =>
    t.reply .cmderr [CommandError.invalidEvent.byte]
      |>.respond .canid .busAccess .invalidParameter

/-- Obeys the messages about the bus address that name this node. -/
def handle (m : Message) (t : Turn BusAccess) : Turn BusAccess :=
  match m.opcode? with
  | some .enum => if t.isNamedBy m then t.put (.searchAddress true) else t
  | some .canid => if t.isNamedBy m then obeyAssignment m t else t
  | _ => t

/-! ## Search for an address -/

/-- Starts a search by asking every node, unless one is going on. -/
def startSearch (now : Time) (forPeer : Bool) (t : Turn BusAccess) : Turn BusAccess :=
  match t.self.enumeration.start? now forPeer with
  | none => t
  | some e =>
    { t with self.enumeration := e, self.searches := t.self.searches + 1 }
      |>.offer (.addressRequest t.config.address)

/-- Starts the search that a conflict has made necessary. -/
def startRequired (now : Time) (t : Turn BusAccess) : Turn BusAccess :=
  if t.self.enumeration.required then
    startSearch now false { t with self.enumeration.required := false }
  else t

/-- Takes the address that a search has found once its window is over. -/
def finishSearch (now window : Time) (t : Turn BusAccess) : Turn BusAccess :=
  match t.self.enumeration.finish? now window with
  | none => t
  | some (claim, e) =>
    let t := adopt claim.address { t with self.enumeration := e }
    if claim.forPeer then t.reply .nnack [] else t

/-! ## Frames -/

/-- Notes the sender of an empty frame, and answers it if it is a request for addresses. -/
def handleEmpty (remote : Bool) (sender : BusAddress) (t : Turn BusAccess) : Turn BusAccess :=
  let t := { t with self.enumeration := t.self.enumeration.note sender }
  if remote && t.config.address.isAssigned then t.offer (.addressAnswer t.config.address) else t

/-- Queues a message that has come in. If its sender uses the address of this node, a search for
    another is to follow. -/
def handleData (sender : BusAddress) (m : Message) (t : Turn BusAccess) : Turn BusAccess :=
  let s := t.self
  let s :=
    if t.config.address.isAssigned && sender = t.config.address then
      { s with conflicts := s.conflicts + 1, enumeration := s.enumeration.require }
    else s
  { t with self := { s with received := s.received + 1 } } |>.put (.received m)

/-- Handles a frame. Extended frames and remote frames with data are not for nodes. -/
def handleFrame (f : Frame) (t : Turn BusAccess) : Turn BusAccess :=
  match f.header? with
  | none => t
  | some h =>
    if f.data.isEmpty then handleEmpty f.remote h.sender t
    else if f.remote then t
    else handleData h.sender f.data t

/-- Takes a frame from the link, if one waits. -/
def receive (t : Turn BusAccess) : Turn BusAccess :=
  match t.shared.link.receive? with
  | none => t
  | some (f, link) => handleFrame f { t with shared.link := link }

/-! ## The turn -/

/-- What the service does about the action of the cycle. -/
def react (c : Cycle) (t : Turn BusAccess) : Turn BusAccess :=
  match c.action with
  | some (.transmit m) => transmit m t
  | some (.searchAddress forPeer) => startSearch c.now forPeer t
  | some (.received m) => handle m t
  | _ => t

def turn (c : Cycle) (t : Turn BusAccess) : Turn BusAccess :=
  react c t |> startRequired c.now |> receive |> finishSearch c.now c.timing.searchWindow

def diagnosticCount : Nat := 6

def diagnostic? (s : BusAccess) (code : Nat) : Option UInt16 :=
  match code with
  | 1 => some s.received
  | 2 => some s.transmitted
  | 3 => some s.refused
  | 4 => some s.searches
  | 5 => some s.conflicts
  | 6 => some s.addressChanges
  | _ => none

end BusAccess

end RailNode
