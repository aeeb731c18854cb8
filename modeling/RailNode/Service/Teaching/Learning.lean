import RailNode.Service.Teaching.Basic

/-
  The commands that change the event table, and learn mode, which gates them.
-/
namespace RailNode.Teaching

/-! ## Learn mode -/

/-- Learn mode is on in one node only: a message that puts another in takes this one out. -/
def yieldLearning (m : Message) (t : Turn Teaching) : Turn Teaching :=
  if t.isNamedBy m then t.configure (·.setLearning true)
  else if m.nodeNumber?.isSome then t.configure (·.setLearning false)
  else t

/-- Obeys the mode commands for learn mode. -/
def obeyMode (m : Message) (t : Turn Teaching) : Turn Teaching :=
  match (m.byte? 3).bind ModeCommand.ofByte? with
  | some .learnOn => t.configure (·.setLearning true)
  | some .learnOff => t.configure (·.setLearning false)
  | _ => t

/-! ## The event table -/

/-- Sets a variable of the event in a slot. -/
def teachVariable (slot index : Nat) (value : UInt8) (t : Turn Teaching) :
    Except Halt (Turn Teaching) := do
  let config ← trust (t.config.setEventVariable slot index value).toOption
  return { t with shared.config := config }
    |>.confirm .evlrn .teaching
    |>.put .showActivity

/-- Learns a new event in a slot. -/
def learnEvent (slot : Nat) (e : EventId) (t : Turn Teaching) : Except Halt (Turn Teaching) := do
  let config ← trust (t.config.insertEvent slot e).toOption
  return { t with shared.config := config, self.learned := t.self.learned + 1 }

/-- Teaches a variable of an event; an event that is not in the table is learned first. -/
def learn (m : Message) (t : Turn Teaching) : Except Halt (Turn Teaching) :=
  match m.event?, m.byte? 5, m.byte? 6 with
  | some e, some index, some value =>
    if index = 0 ∨ t.config.layout.eventVariables < index.toNat then
      .ok (t.refuse .evlrn .teaching .invalidEventVariableIndex)
    else
      match t.config.find e with
      | .ok slot => teachVariable slot index.toNat value t
      | .error _ =>
        match t.config.findFree with
        | .ok slot => learnEvent slot e t >>= teachVariable slot index.toNat value
        | .error _ => .ok (t.refuse .evlrn .teaching .tooManyEvents)
  | _, _, _ => .ok (t.refuse .evlrn .teaching .invalidCommand)

/-- Takes an event out of the table. -/
def unlearn (m : Message) (t : Turn Teaching) : Except Halt (Turn Teaching) :=
  match m.event? with
  | some e =>
    match t.config.find e with
    | .ok slot => do
      let config ← trust (t.config.removeEvent slot).toOption
      return { t with shared.config := config }
        |>.confirm .evuln .teaching
        |>.put .showActivity
    | .error _ => .ok (t.refuse .evuln .teaching .noEvent)
  | none => .ok (t.refuse .evuln .teaching .invalidCommand)

/-- Clears the table, in learn mode only. -/
def clear (t : Turn Teaching) : Turn Teaching :=
  if t.config.learning then t.configure (·.clearEvents) |>.confirm .nnclr .teaching
  else t.refuse .nnclr .teaching .notInLearnMode

end RailNode.Teaching
