import RailNode.Proofs.Checked.Configuration
import RailNode.Proofs.Checked.Turn
import RailNode.Service.BusAccess

/-
  Bus access under bounds. The addresses that have answered are kept in a set of 16 bytes, one bit
  for each address of seven bits.
-/
namespace RailNode.Checked.BusAccess

/-! ## Sets of addresses -/

/-- The number of bytes of a set of addresses. -/
def setSize : Nat := 16

/-- Reaches the bit of an address in a set. -/
def reach (a : BusAddress) : Except Halt Unit := do
  ensure (a.val / 8 < setSize)
  ensure (a.val % 8 < 8)

/-- Whether an address is not in a set. -/
def isFree (taken : List BusAddress) (a : BusAddress) : Except Halt Bool := do
  reach a
  return !taken.contains a

def lowestFree (taken : List BusAddress) : Except Halt BusAddress := do
  let free ← Enumeration.assignable.findM? (isFree taken)
  return free.getD .firstAssignable

def note (a : BusAddress) (e : Enumeration) : Except Halt Enumeration :=
  if a.isAssigned then
    match e.search with
    | none => return e
    | some s => do
      reach a
      return { e with search := some { s with taken := a :: s.taken } }
  else return e

/-- Ends a search once its window is over. -/
def finish (now window : Time) (e : Enumeration) :
    Except Halt (Option (AddressClaim × Enumeration)) :=
  match e.search with
  | none => return none
  | some s =>
    if Time.elapsed now s.started < window then return none
    else do
      let address ← lowestFree s.taken
      return some (⟨address, s.forPeer⟩, { e with search := none })

@[simp]
theorem reach_eq (a : BusAddress) : reach a = .ok () := by
  have hbyte : a.val / 8 < setSize := Nat.div_lt_of_lt_mul a.isLt
  rw [reach, ensure_eq hbyte, ok_bind, ensure_eq (Nat.mod_lt _ (by decide))]

theorem isFree_eq (taken : List BusAddress) (a : BusAddress) :
    isFree taken a = .ok (!taken.contains a) := by
  rw [isFree, reach_eq]
  rfl

theorem lowestFree_eq (taken : List BusAddress) :
    lowestFree taken = .ok (Enumeration.lowestFree taken) := by
  rw [lowestFree, findM?_eq_ok fun a _ => isFree_eq taken a]
  rfl

theorem note_eq (a : BusAddress) (e : Enumeration) : note a e = .ok (e.note a) := by
  unfold note Enumeration.note
  split_ifs
  · obtain ⟨_ | s, required⟩ := e
    · rfl
    · simp [pure_eq_ok]
  · rfl

theorem finish_eq (now window : Time) (e : Enumeration) :
    finish now window e = .ok (e.finish? now window) := by
  unfold finish Enumeration.finish?
  rcases e.search with _ | s
  · rfl
  · dsimp only
    split_ifs
    · rfl
    · rw [lowestFree_eq]
      rfl

/-! ## The turn -/

def adopt (a : BusAddress) (t : Turn BusAccess) : Except Halt (Turn BusAccess) :=
  let changes :=
    if a = t.config.address then t.self.addressChanges else t.self.addressChanges + 1
  Turn.configure (Configuration.setAddress a) { t with self.addressChanges := changes }

def obeyAssignment (m : Message) (t : Turn BusAccess) : Except Halt (Turn BusAccess) :=
  match RailNode.BusAccess.assigned? m with
  | some a => do
    let t ← adopt a t
    Turn.confirm .canid .busAccess t
  | none => do
    let t ← Turn.reply .cmderr [CommandError.invalidEvent.byte] t
    Turn.respond .canid .busAccess .invalidParameter t

def handle (m : Message) (t : Turn BusAccess) : Except Halt (Turn BusAccess) :=
  match m.opcode? with
  | some .enum => if t.isNamedBy m then Turn.put (.searchAddress true) t else return t
  | some .canid => if t.isNamedBy m then obeyAssignment m t else return t
  | _ => return t

def finishSearch (now window : Time) (t : Turn BusAccess) : Except Halt (Turn BusAccess) := do
  match ← finish now window t.self.enumeration with
  | none => return t
  | some (claim, e) =>
    let t ← adopt claim.address { t with self.enumeration := e }
    if claim.forPeer then Turn.reply .nnack [] t else return t

def handleEmpty (remote : Bool) (sender : BusAddress) (t : Turn BusAccess) :
    Except Halt (Turn BusAccess) := do
  let e ← note sender t.self.enumeration
  let t := { t with self.enumeration := e }
  return if remote && t.config.address.isAssigned then t.offer (.addressAnswer t.config.address)
    else t

def handleData (sender : BusAddress) (m : Message) (t : Turn BusAccess) :
    Except Halt (Turn BusAccess) :=
  let s := t.self
  let s :=
    if t.config.address.isAssigned && sender = t.config.address then
      { s with conflicts := s.conflicts + 1, enumeration := s.enumeration.require }
    else s
  Turn.put (.received m) { t with self := { s with received := s.received + 1 } }

def handleFrame (f : Frame) (t : Turn BusAccess) : Except Halt (Turn BusAccess) :=
  match f.header? with
  | none => return t
  | some h =>
    if f.data.isEmpty then handleEmpty f.remote h.sender t
    else if f.remote then return t
    else handleData h.sender f.data t

def receive (t : Turn BusAccess) : Except Halt (Turn BusAccess) :=
  match t.shared.link.receive? with
  | none => return t
  | some (f, link) => handleFrame f { t with shared.link := link }

def react (c : Cycle) (t : Turn BusAccess) : Except Halt (Turn BusAccess) :=
  match c.action with
  | some (.transmit m) => return RailNode.BusAccess.transmit m t
  | some (.searchAddress forPeer) => return RailNode.BusAccess.startSearch c.now forPeer t
  | some (.received m) => handle m t
  | _ => return t

def turn (c : Cycle) (t : Turn BusAccess) : Except Halt (Turn BusAccess) := do
  let t ← react c t
  let t ← receive (RailNode.BusAccess.startRequired c.now t)
  finishSearch c.now c.timing.searchWindow t

theorem adopt_eq (a : BusAddress) (t : Turn BusAccess) :
    adopt a t = .ok (RailNode.BusAccess.adopt a t) :=
  Turn.configure_eq (Configuration.setAddress_eq _ _)

theorem obeyAssignment_eq (m : Message) (t : Turn BusAccess) :
    obeyAssignment m t = .ok (RailNode.BusAccess.obeyAssignment m t) := by
  unfold obeyAssignment RailNode.BusAccess.obeyAssignment
  rcases RailNode.BusAccess.assigned? m with _ | a
  · dsimp only
    rw [Turn.reply_eq .cmderr [_] t (by simp), ok_bind, Turn.respond_eq]
  · dsimp only
    rw [adopt_eq, ok_bind, Turn.confirm_eq]

theorem handle_eq (m : Message) (t : Turn BusAccess) :
    handle m t = .ok (RailNode.BusAccess.handle m t) := by
  unfold handle RailNode.BusAccess.handle
  rcases m.opcode? with _ | o
  · rfl
  cases o with
  | enum =>
    dsimp only
    split_ifs
    · exact Turn.put_eq _ t
    · rfl
  | canid =>
    dsimp only
    split_ifs
    · exact obeyAssignment_eq m t
    · rfl
  | _ => rfl

theorem finishSearch_eq (now window : Time) (t : Turn BusAccess) :
    finishSearch now window t = .ok (RailNode.BusAccess.finishSearch now window t) := by
  unfold finishSearch RailNode.BusAccess.finishSearch
  rw [finish_eq, ok_bind]
  rcases t.self.enumeration.finish? now window with _ | ⟨claim, e⟩
  · rfl
  · dsimp only
    rw [adopt_eq, ok_bind]
    split_ifs
    · exact Turn.reply_eq _ _ _ _
    · rfl

theorem handleFrame_eq (f : Frame) (t : Turn BusAccess) :
    handleFrame f t = .ok (RailNode.BusAccess.handleFrame f t) := by
  unfold handleFrame RailNode.BusAccess.handleFrame
  rcases f.header? with _ | h
  · rfl
  dsimp only
  split_ifs
  · rw [handleEmpty, note_eq]
    rfl
  · rfl
  · exact Turn.put_eq _ _

theorem receive_eq (t : Turn BusAccess) : receive t = .ok (RailNode.BusAccess.receive t) := by
  unfold receive RailNode.BusAccess.receive
  rcases t.shared.link.receive? with _ | ⟨f, link⟩
  · rfl
  · exact handleFrame_eq f _

theorem react_eq (c : Cycle) (t : Turn BusAccess) :
    react c t = .ok (RailNode.BusAccess.react c t) := by
  unfold react RailNode.BusAccess.react
  rcases c.action with _ | a
  · rfl
  cases a with
  | received m => exact handle_eq m t
  | _ => rfl

/-- No bound is passed in a turn. -/
theorem turn_eq (c : Cycle) (t : Turn BusAccess) :
    turn c t = .ok (RailNode.BusAccess.turn c t) := by
  simp only [turn, react_eq, receive_eq, finishSearch_eq, ok_bind]
  rfl

end RailNode.Checked.BusAccess
