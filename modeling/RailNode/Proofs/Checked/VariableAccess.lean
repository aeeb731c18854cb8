import RailNode.Proofs.Checked.Configuration
import RailNode.Proofs.Checked.Turn
import RailNode.Proofs.Service.Safety

/-
  Variable access under bounds. A command is checked for all its bytes and for a valid index before
  it is carried out, so no byte is missing and no variable is out of range; a series of reports
  runs over the node variables, of which there are at most 255.
-/
namespace RailNode.Checked.VariableAccess

open RailNode.Configuration

variable {c : Cycle} {m : Message} {t : Turn VariableAccess}

/-- Reports a variable that there must be. -/
def sendVariable (index : Nat) (t : Turn VariableAccess) : Except Halt (Turn VariableAccess) := do
  let value ← Configuration.nodeVariable index t.config
  Turn.reply .nvans [UInt8.ofNat index, value] t

def answerRead (c : Cycle) (m : Message) (t : Turn VariableAccess) :
    Except Halt (Turn VariableAccess) := do
  let complete ← Message.isComplete m
  if !complete then Turn.refuse .nvrd .nodeVariables .invalidCommand t
  else
    let index ← Message.byte m 3
    if index = 0 then
      let listing ← Series.start c.now () t.config.layout.nodeVariables
      Turn.reply .nvans [0, t.config.layout.nodeVariableCount]
        { t with self.listing := some listing }
    else if t.config.layout.nodeVariables < index.toNat then
      Turn.refuse .nvrd .nodeVariables .invalidNodeVariableIndex t
    else sendVariable index.toNat t

def obeyWrite (command : Opcode) (m : Message)
    (andThen : Nat → Turn VariableAccess → Except Halt (Turn VariableAccess))
    (t : Turn VariableAccess) : Except Halt (Turn VariableAccess) := do
  let complete ← Message.isComplete m
  if !complete then Turn.refuse command .nodeVariables .invalidCommand t
  else
    let index ← Message.byte m 3
    if index = 0 ∨ t.config.layout.nodeVariables < index.toNat then
      Turn.refuse command .nodeVariables .invalidNodeVariableIndex t
    else
      let value ← Message.byte m 4
      let t ← Turn.configure (Configuration.setNodeVariable index.toNat value) t
      andThen index.toNat t

def handle (c : Cycle) (m : Message) (t : Turn VariableAccess) :
    Except Halt (Turn VariableAccess) :=
  if t.isNamedBy m then
    match m.opcode? with
    | some .nvrd => answerRead c m t
    | some .nvset => obeyWrite .nvset m (fun _ t => Turn.reply .wrack [] t) t
    | some .nvsetrd => obeyWrite .nvsetrd m sendVariable t
    | _ => return t
  else return t

def pollListing (c : Cycle) (t : Turn VariableAccess) : Except Halt (Turn VariableAccess) :=
  match t.self.listing with
  | none => return t
  | some s => do
    let (number, rest) ← Series.poll c.now c.timing.replyGap s
    let t := { t with self.listing := rest }
    match number with
    | none => return t
    | some index => sendVariable index t

def turn (c : Cycle) (t : Turn VariableAccess) : Except Halt (Turn VariableAccess) :=
  match c.received? with
  | some m => do
    let t ← handle c m t
    pollListing c t
  | none => pollListing c t

/-! ## The same without bounds -/

theorem sendVariable_eq (index : Nat) (t : Turn VariableAccess) :
    sendVariable index t = RailNode.VariableAccess.sendVariable index t := by
  rw [sendVariable, Configuration.nodeVariable_eq]
  unfold RailNode.VariableAccess.sendVariable
  cases t.config.nodeVariable? index with
  | none => rfl
  | some value =>
    rw [trust_some, ok_bind, map_ok]
    exact Turn.reply_eq _ _ _ _

theorem pos_of_ne_zero {b : UInt8} (h : b ≠ 0) : 1 ≤ b.toNat :=
  Nat.pos_of_ne_zero fun h0 => h (UInt8.toNat_inj.1 h0)

theorem answerRead_eq (ho : m.opcode? = some .nvrd) :
    answerRead c m t = .ok (RailNode.VariableAccess.answerRead c m t) := by
  rw [answerRead, Message.isComplete_eq, ok_bind]
  unfold RailNode.VariableAccess.answerRead
  rcases hcomplete : m.isComplete with _ | _
  · rw [Message.byte?_eq_none (i := 3) ho hcomplete (by decide)]
    exact Turn.refuse_eq _ _ _ _
  · obtain ⟨index, hindex⟩ := Message.byte?_of_isComplete (i := 3) ho hcomplete (by decide)
    rw [if_neg (by decide), Message.byte, hindex, trust_some, ok_bind]
    dsimp only
    split_ifs with h0 hrange
    · have hcount : t.config.layout.nodeVariables ≤ 255 :=
        Nat.le_of_lt_succ t.config.layout.nodeVariableCount.toNat_lt
      rw [Series.start_eq _ _ hcount, ok_bind, Turn.reply_eq .nvans [_, _] _ (by simp)]
    · rw [nodeVariable?, nodeVariableAddress?, if_neg (by omega), Turn.refuse_eq]
      rfl
    · obtain ⟨value, hvalue⟩ := RailNode.VariableAccess.exists_nodeVariable? (pos_of_ne_zero h0)
        (Nat.le_of_not_lt hrange)
      rw [sendVariable_eq, RailNode.VariableAccess.sendVariable, hvalue]
      rfl

theorem obeyWrite_eq {command : Opcode} (ho : m.opcode? = some command)
    (hlen : Opcode.messageLength command.byte = 5)
    {f g : Nat → Turn VariableAccess → Except Halt (Turn VariableAccess)} (hfg : f = g) :
    obeyWrite command m f t = RailNode.VariableAccess.obeyWrite command m g t := by
  rw [obeyWrite, Message.isComplete_eq, ok_bind]
  unfold RailNode.VariableAccess.obeyWrite
  rcases hcomplete : m.isComplete with _ | _
  · rw [Message.byte?_eq_none (i := 4) ho hcomplete (by omega)]
    cases m.byte? 3 <;> exact Turn.refuse_eq _ _ _ _
  · obtain ⟨index, hindex⟩ := Message.byte?_of_isComplete (i := 3) ho hcomplete (by omega)
    obtain ⟨value, hvalue⟩ := Message.byte?_of_isComplete (i := 4) ho hcomplete (by omega)
    rw [if_neg (by decide), Message.byte, Message.byte, hindex, hvalue, trust_some, ok_bind]
    dsimp only
    rw [setNodeVariable?, nodeVariableAddress?]
    split_ifs with hbad hrange hrange
    · rcases hbad with rfl | hbad
      · exact absurd hrange.1 (by decide)
      · omega
    · exact Turn.refuse_eq _ _ _ _
    · rw [trust_some, ok_bind, Turn.configure, Configuration.setNodeVariable_eq value hrange, hfg]
      rfl
    · refine absurd ⟨pos_of_ne_zero (mt Or.inl hbad), ?_⟩ hrange
      exact Nat.le_of_not_lt (mt Or.inr hbad)

theorem handle_eq (c : Cycle) (m : Message) (t : Turn VariableAccess) :
    handle c m t = RailNode.VariableAccess.handle c m t := by
  unfold handle RailNode.VariableAccess.handle
  split_ifs
  · rcases ho : m.opcode? with _ | o
    · rfl
    · cases o with
      | nvrd => exact answerRead_eq ho
      | nvset =>
        exact obeyWrite_eq ho (by decide) (funext fun _ => funext fun t => Turn.reply_eq _ _ _ _)
      | nvsetrd =>
        exact obeyWrite_eq ho (by decide) (funext fun i => funext fun t => sendVariable_eq i t)
      | _ => rfl
  · rfl

theorem pollListing_eq (h : Series.Short t.self.listing) :
    pollListing c t = RailNode.VariableAccess.pollListing c t := by
  unfold pollListing RailNode.VariableAccess.pollListing
  rcases hs : t.self.listing with _ | s
  · rfl
  · dsimp only
    rw [Series.poll_eq _ _ (h s hs), ok_bind]
    rcases (s.poll c.now c.timing.replyGap).1 with _ | index
    · rfl
    · exact sendVariable_eq index _

theorem short_of_sound {n : Nat} {listing : Option (Series Unit)} (hn : n ≤ 255)
    (h : RailNode.VariableAccess.Sound n listing) : Series.Short listing := by
  intro s hs
  have := (h s hs).2
  omega

/-- As long as the variables that are to be reported are there, no bound is passed. -/
theorem turn_eq
    (ht : RailNode.VariableAccess.Sound t.config.layout.nodeVariables t.self.listing) :
    turn c t = RailNode.VariableAccess.turn c t := by
  have hcount : t.config.layout.nodeVariables ≤ 255 :=
    Nat.le_of_lt_succ t.config.layout.nodeVariableCount.toNat_lt
  unfold turn RailNode.VariableAccess.turn
  rcases c.received? with _ | m
  · exact pollListing_eq (short_of_sound hcount ht)
  · obtain ⟨u, hu, hsound⟩ := RailNode.VariableAccess.handle_eq_ok (c := c) (m := m) ht
    dsimp only
    rw [handle_eq, hu, ok_bind, ok_bind]
    exact pollListing_eq (short_of_sound hcount hsound)

end RailNode.Checked.VariableAccess
