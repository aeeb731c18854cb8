import RailNode.Service.Teaching.Basic

/-
  The reads of the event table. A read of all the variables of an event, or of all events, is
  answered by a series of reports.
-/
namespace RailNode.Teaching

/-- Starts a series of reports, with numbers from `first` to before `stop`. -/
def startListing (now : Time) (kind : EventListing) (first stop : Nat) (t : Turn Teaching) :
    Turn Teaching :=
  { t with self.listing := some (.start now kind first stop) }

/-! ## Answers -/

/-- Answers a request for a variable of an event, or for all with index 0. -/
def answerVariable (c : Cycle) (m : Message) (t : Turn Teaching) : Turn Teaching :=
  match m.event?, m.byte? 5 with
  | some e, some index =>
    match t.config.find e with
    | .error _ => t.refuse .reqev .teaching .noEvent
    | .ok slot =>
      if index = 0 then
        sendVariable slot 0 t.config.layout.eventVariableCount t
          |> startListing c.now (.eventVariables slot) 1 (t.config.layout.eventVariables + 1)
      else
        match t.config.eventVariable slot index.toNat with
        | .ok value => sendVariable slot index value t
        | .error _ => t.refuse .reqev .teaching .invalidEventVariableIndex
  | _, _ => t.refuse .reqev .teaching .invalidCommand

/-- Answers a request for the event in a slot. -/
def answerEvent (m : Message) (t : Turn Teaching) : Turn Teaching :=
  match m.byte? 3 with
  | none => t.refuse .nenrd .teaching .invalidEventIndex
  | some slot =>
    if t.config.isFree slot.toNat then t.refuse .nenrd .teaching .invalidEventIndex
    else sendEvent slot.toNat t

/-- Answers a request for a variable of a slot, or for all with index 0. -/
def answerSlotVariable (c : Cycle) (m : Message) (t : Turn Teaching) : Turn Teaching :=
  match m.byte? 3, m.byte? 4 with
  | some slot, some index =>
    if t.config.isFree slot.toNat then t.refuse .reval .teaching .invalidEventIndex
    else if index = 0 then
      sendSlotVariable slot.toNat 0 t.config.layout.eventVariableCount t
        |> startListing c.now (.slotVariables slot.toNat) 1 (t.config.layout.eventVariables + 1)
    else
      match t.config.eventVariable slot.toNat index.toNat with
      | .ok value => sendSlotVariable slot.toNat index value t
      | .error .invalidVariable => t.refuse .reval .teaching .invalidEventVariableIndex
      | .error _ => t.refuse .reval .teaching .invalidEventIndex
  | _, _ => t.refuse .reval .teaching .invalidCommand

/-! ## Series of reports -/

/-- Gives the report of a series with this number. -/
def report (kind : EventListing) (number : Nat) (t : Turn Teaching) : Turn Teaching :=
  let value (slot : Nat) : UInt8 := (t.config.eventVariable slot number).toOption.getD 0
  match kind with
  | .events => sendEvent number t
  | .eventVariables slot => sendVariable slot (UInt8.ofNat number) (value slot) t
  | .slotVariables slot => sendSlotVariable slot (UInt8.ofNat number) (value slot) t

/-- Gives the report that is due. The list of the events passes over free slots. -/
def pollListing (c : Cycle) (t : Turn Teaching) : Turn Teaching :=
  match t.self.listing with
  | none => t
  | some s =>
    let s := if s.kind = .events then s.skip t.config.isFree else s
    let (number, rest) := s.poll c.now c.timing.replyGap
    let t := { t with self.listing := rest }
    match number with
    | none => t
    | some i => report s.kind i t

end RailNode.Teaching
