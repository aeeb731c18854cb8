import RailNode.Proofs.Checked.EventTable
import RailNode.Proofs.Checked.Turn
import RailNode.Proofs.Service.Safety

/-
  Teaching under bounds. A command is checked for all its bytes and for a valid index before it is
  carried out, and the slots that it works on have just been found in the table; a series of
  reports runs over the slots or over the variables of an event, at most 255 of either.
-/
namespace RailNode.Checked.Teaching

variable {c : Cycle} {m : Message} {t t' : Turn Teaching}

/-! ## Reports -/

def sendEvent (slot : Nat) (t : Turn Teaching) : Except Halt (Turn Teaching) := do
  match ← Configuration.event slot t.config with
  | .ok e => Turn.reply .enrsp (e.bytes ++ [UInt8.ofNat slot]) t
  | .error _ => return t

def sendVariable (slot : Nat) (index value : UInt8) (t : Turn Teaching) :
    Except Halt (Turn Teaching) := do
  match ← Configuration.event slot t.config with
  | .ok e =>
    let m ← Message.addressed Opcode.evans.byte e.node (Word.bytes e.number ++ [index, value])
    Turn.send m t
  | .error _ => return t

def sendSlotVariable (slot : Nat) (index value : UInt8) (t : Turn Teaching) :
    Except Halt (Turn Teaching) :=
  Turn.reply .neval [UInt8.ofNat slot, index, value] t

@[simp]
theorem sendEvent_eq (slot : Nat) (t : Turn Teaching) :
    sendEvent slot t = .ok (RailNode.Teaching.sendEvent slot t) := by
  unfold sendEvent RailNode.Teaching.sendEvent
  rw [Configuration.event_eq, ok_bind]
  rcases t.config.event slot with _ | e
  · rfl
  · exact Turn.reply_eq _ _ _ _

@[simp]
theorem sendVariable_eq (slot : Nat) (index value : UInt8) (t : Turn Teaching) :
    sendVariable slot index value t = .ok (RailNode.Teaching.sendVariable slot index value t) := by
  unfold sendVariable RailNode.Teaching.sendVariable
  rw [Configuration.event_eq, ok_bind]
  rcases t.config.event slot with _ | e
  · rfl
  · have hlen : (Word.bytes e.number ++ [index, value]).length ≤ 5 := by simp
    dsimp only
    rw [Message.addressed_eq _ _ hlen, ok_bind, Turn.send_eq]

@[simp]
theorem sendSlotVariable_eq (slot : Nat) (index value : UInt8) (t : Turn Teaching) :
    sendSlotVariable slot index value t =
      .ok (RailNode.Teaching.sendSlotVariable slot index value t) :=
  Turn.reply_eq _ _ _ _

/-! ## Learning -/

def teachVariable (slot index : Nat) (value : UInt8) (t : Turn Teaching) :
    Except Halt (Turn Teaching) := do
  let written ← Configuration.setEventVariable slot index value t.config
  let config ← trust written.toOption
  let t ← Turn.confirm .evlrn .teaching { t with shared.config := config }
  Turn.put .showActivity t

def learnEvent (slot : Nat) (e : EventId) (t : Turn Teaching) : Except Halt (Turn Teaching) := do
  let config ← Configuration.insertEvent slot e t.config
  return { t with shared.config := config, self.learned := t.self.learned + 1 }

def learn (m : Message) (t : Turn Teaching) : Except Halt (Turn Teaching) := do
  let complete ← Message.isComplete m
  if !complete then Turn.refuse .evlrn .teaching .invalidCommand t
  else
    let e ← Message.event m
    let index ← Message.byte m 5
    let value ← Message.byte m 6
    if index = 0 ∨ t.config.layout.eventVariables < index.toNat then
      Turn.refuse .evlrn .teaching .invalidEventVariableIndex t
    else
      match ← Configuration.find e t.config with
      | .ok slot => teachVariable slot index.toNat value t
      | .error _ =>
        match t.config.findFree with
        | .ok slot =>
          let t ← learnEvent slot e t
          teachVariable slot index.toNat value t
        | .error _ => Turn.refuse .evlrn .teaching .tooManyEvents t

def unlearn (m : Message) (t : Turn Teaching) : Except Halt (Turn Teaching) := do
  let complete ← Message.isComplete m
  if !complete then Turn.refuse .evuln .teaching .invalidCommand t
  else
    let e ← Message.event m
    match ← Configuration.find e t.config with
    | .ok slot =>
      let config ← Configuration.removeEvent slot t.config
      let t ← Turn.confirm .evuln .teaching { t with shared.config := config }
      Turn.put .showActivity t
    | .error _ => Turn.refuse .evuln .teaching .noEvent t

def clear (t : Turn Teaching) : Except Halt (Turn Teaching) :=
  if t.config.learning then do
    let t ← Turn.configure Configuration.clearEvents t
    Turn.confirm .nnclr .teaching t
  else Turn.refuse .nnclr .teaching .notInLearnMode t

theorem teachVariable_eq (slot index : Nat) (value : UInt8) (t : Turn Teaching) :
    teachVariable slot index value t = RailNode.Teaching.teachVariable slot index value t := by
  rw [teachVariable, Configuration.setEventVariable_eq, ok_bind, RailNode.Teaching.teachVariable]
  rcases trust (t.config.setEventVariable slot index value).toOption with _ | config
  · rfl
  · simp only [ok_bind, Turn.confirm_eq, Turn.put_eq]
    rfl

theorem learnEvent_eq (slot : Nat) (e : EventId) (t : Turn Teaching) :
    learnEvent slot e t = RailNode.Teaching.learnEvent slot e t := by
  rw [learnEvent, Configuration.insertEvent_eq]
  rfl

theorem learn_eq (ho : m.opcode? = some .evlrn) : learn m t = RailNode.Teaching.learn m t := by
  rw [learn, Message.isComplete_eq, ok_bind]
  unfold RailNode.Teaching.learn
  rcases hcomplete : m.isComplete with _ | _
  · rw [Message.byte?_eq_none (i := 6) ho hcomplete (by decide)]
    cases m.event? <;> cases m.byte? 5 <;> exact Turn.refuse_eq _ _ _ _
  · obtain ⟨e, he⟩ := Message.event?_of_isComplete ho hcomplete (by decide)
    obtain ⟨index, hindex⟩ := Message.byte?_of_isComplete (i := 5) ho hcomplete (by decide)
    obtain ⟨value, hvalue⟩ := Message.byte?_of_isComplete (i := 6) ho hcomplete (by decide)
    rw [if_neg (by decide), Message.event_eq, Message.byte, Message.byte, he, hindex, hvalue]
    simp only [trust_some, ok_bind]
    split_ifs
    · exact Turn.refuse_eq _ _ _ _
    · rw [Configuration.find_eq, ok_bind]
      rcases t.config.find e with _ | slot
      · dsimp only
        rcases t.config.findFree with _ | slot
        · exact Turn.refuse_eq _ _ _ _
        · dsimp only
          rw [learnEvent_eq]
          exact congrArg _ (funext fun t => teachVariable_eq slot index.toNat value t)
      · exact teachVariable_eq slot index.toNat value t

theorem unlearn_eq (ho : m.opcode? = some .evuln) :
    unlearn m t = RailNode.Teaching.unlearn m t := by
  rw [unlearn, Message.isComplete_eq, ok_bind]
  unfold RailNode.Teaching.unlearn
  rcases hcomplete : m.isComplete with _ | _
  · have hevent : m.event? = none := by
      simp [Message.event?, Message.word?,
        Message.byte?_eq_none (i := 4) ho hcomplete (by decide)]
    rw [hevent]
    exact Turn.refuse_eq _ _ _ _
  · obtain ⟨e, he⟩ := Message.event?_of_isComplete ho hcomplete (by decide)
    rw [if_neg (by decide), Message.event_eq, he, trust_some, ok_bind, Configuration.find_eq,
      ok_bind]
    dsimp only
    rcases t.config.find e with _ | slot
    · exact Turn.refuse_eq _ _ _ _
    · dsimp only
      rw [Configuration.removeEvent_eq]
      rcases trust (t.config.removeEvent slot).toOption with _ | config
      · rfl
      · simp only [ok_bind, Turn.confirm_eq, Turn.put_eq]
        rfl

theorem clear_eq (t : Turn Teaching) : clear t = .ok (RailNode.Teaching.clear t) := by
  unfold clear RailNode.Teaching.clear
  split_ifs
  · rw [Turn.configure_eq (Configuration.clearEvents_eq _), ok_bind, Turn.confirm_eq]
  · exact Turn.refuse_eq _ _ _ _

/-! ## Reading -/

/-- Starts a series of reports for the variables of an event. -/
def listVariables (now : Time) (kind : EventListing) (t : Turn Teaching) :
    Except Halt (Turn Teaching) := do
  let listing ← Series.start now kind t.config.layout.eventVariables
  return { t with self.listing := some listing }

def answerVariable (c : Cycle) (m : Message) (t : Turn Teaching) :
    Except Halt (Turn Teaching) := do
  let complete ← Message.isComplete m
  if !complete then Turn.refuse .reqev .teaching .invalidCommand t
  else
    let e ← Message.event m
    let index ← Message.byte m 5
    match ← Configuration.find e t.config with
    | .error _ => Turn.refuse .reqev .teaching .noEvent t
    | .ok slot =>
      if index = 0 then
        let t ← sendVariable slot 0 t.config.layout.eventVariableCount t
        listVariables c.now (.eventVariables slot) t
      else
        match ← Configuration.eventVariable slot index.toNat t.config with
        | .ok value => sendVariable slot index value t
        | .error _ => Turn.refuse .reqev .teaching .invalidEventVariableIndex t

def answerEvent (m : Message) (t : Turn Teaching) : Except Halt (Turn Teaching) :=
  match m.byte? 3 with
  | none => Turn.refuse .nenrd .teaching .invalidEventIndex t
  | some slot =>
    if t.config.isFree slot.toNat then Turn.refuse .nenrd .teaching .invalidEventIndex t
    else sendEvent slot.toNat t

def answerSlotVariable (c : Cycle) (m : Message) (t : Turn Teaching) :
    Except Halt (Turn Teaching) :=
  match m.byte? 3, m.byte? 4 with
  | some slot, some index =>
    if t.config.isFree slot.toNat then Turn.refuse .reval .teaching .invalidEventIndex t
    else if index = 0 then do
      let t ← sendSlotVariable slot.toNat 0 t.config.layout.eventVariableCount t
      listVariables c.now (.slotVariables slot.toNat) t
    else do
      match ← Configuration.eventVariable slot.toNat index.toNat t.config with
      | .ok value => sendSlotVariable slot.toNat index value t
      | .error .invalidVariable => Turn.refuse .reval .teaching .invalidEventVariableIndex t
      | .error _ => Turn.refuse .reval .teaching .invalidEventIndex t
  | _, _ => Turn.refuse .reval .teaching .invalidCommand t

def report (kind : EventListing) (number : Nat) (t : Turn Teaching) :
    Except Halt (Turn Teaching) :=
  match kind with
  | .events => sendEvent number t
  | .eventVariables slot => do
    let value ← Configuration.eventVariable slot number t.config
    sendVariable slot (UInt8.ofNat number) (value.toOption.getD 0) t
  | .slotVariables slot => do
    let value ← Configuration.eventVariable slot number t.config
    sendSlotVariable slot (UInt8.ofNat number) (value.toOption.getD 0) t

/-- The list of the events passes over free slots. -/
def passFree (c : Configuration) (s : Series EventListing) : Except Halt (Series EventListing) :=
  if s.kind = .events then Series.skip c.isFree s else return s

def pollListing (c : Cycle) (t : Turn Teaching) : Except Halt (Turn Teaching) :=
  match t.self.listing with
  | none => return t
  | some s => do
    let s ← passFree t.config s
    let (number, rest) ← Series.poll c.now c.timing.replyGap s
    let t := { t with self.listing := rest }
    match number with
    | none => return t
    | some i => report s.kind i t

theorem eventVariables_le (t : Turn Teaching) : t.config.layout.eventVariables ≤ 255 :=
  Nat.le_of_lt_succ t.config.layout.eventVariableCount.toNat_lt

@[simp]
theorem listVariables_eq (now : Time) (kind : EventListing) (t : Turn Teaching) :
    listVariables now kind t = .ok (RailNode.Teaching.startListing now kind 1
      (t.config.layout.eventVariables + 1) t) := by
  rw [listVariables, Series.start_eq _ _ (eventVariables_le t)]
  rfl

theorem answerVariable_eq (ho : m.opcode? = some .reqev) :
    answerVariable c m t = .ok (RailNode.Teaching.answerVariable c m t) := by
  rw [answerVariable, Message.isComplete_eq, ok_bind]
  unfold RailNode.Teaching.answerVariable
  rcases hcomplete : m.isComplete with _ | _
  · rw [Message.byte?_eq_none (i := 5) ho hcomplete (by decide)]
    cases m.event? <;> exact Turn.refuse_eq _ _ _ _
  · obtain ⟨e, he⟩ := Message.event?_of_isComplete ho hcomplete (by decide)
    obtain ⟨index, hindex⟩ := Message.byte?_of_isComplete (i := 5) ho hcomplete (by decide)
    rw [if_neg (by decide), Message.event_eq, Message.byte, he, hindex]
    simp only [trust_some, ok_bind, Configuration.find_eq]
    rcases t.config.find e with _ | slot
    · exact Turn.refuse_eq _ _ _ _
    · dsimp only
      split_ifs
      · rw [sendVariable_eq, ok_bind, listVariables_eq,
          RailNode.Teaching.config_sendVariable]
      · rw [Configuration.eventVariable_eq, ok_bind]
        rcases t.config.eventVariable slot index.toNat with _ | value
        · exact Turn.refuse_eq _ _ _ _
        · exact sendVariable_eq _ _ _ _

theorem answerEvent_eq (m : Message) (t : Turn Teaching) :
    answerEvent m t = .ok (RailNode.Teaching.answerEvent m t) := by
  unfold answerEvent RailNode.Teaching.answerEvent
  rcases m.byte? 3 with _ | slot
  · exact Turn.refuse_eq _ _ _ _
  · dsimp only
    split_ifs
    · exact Turn.refuse_eq _ _ _ _
    · exact sendEvent_eq _ _

theorem answerSlotVariable_eq (c : Cycle) (m : Message) (t : Turn Teaching) :
    answerSlotVariable c m t = .ok (RailNode.Teaching.answerSlotVariable c m t) := by
  unfold answerSlotVariable RailNode.Teaching.answerSlotVariable
  rcases m.byte? 3 with _ | slot
  · exact Turn.refuse_eq _ _ _ _
  rcases m.byte? 4 with _ | index
  · exact Turn.refuse_eq _ _ _ _
  dsimp only
  split_ifs
  · exact Turn.refuse_eq _ _ _ _
  · rw [sendSlotVariable_eq, ok_bind, listVariables_eq,
      RailNode.Teaching.config_sendSlotVariable]
  · rw [Configuration.eventVariable_eq, ok_bind]
    rcases t.config.eventVariable slot.toNat index.toNat with e | value
    · cases e <;> exact Turn.refuse_eq _ _ _ _
    · exact sendSlotVariable_eq _ _ _ _

@[simp]
theorem report_eq (kind : EventListing) (number : Nat) (t : Turn Teaching) :
    report kind number t = .ok (RailNode.Teaching.report kind number t) := by
  cases kind with
  | events => exact sendEvent_eq number t
  | eventVariables slot =>
    rw [report, Configuration.eventVariable_eq, ok_bind]
    exact sendVariable_eq _ _ _ _
  | slotVariables slot =>
    rw [report, Configuration.eventVariable_eq, ok_bind]
    exact sendSlotVariable_eq _ _ _ _

/-- A series is as long after free slots have been passed over. -/
theorem passFree_eq {d : Configuration} {s : Series EventListing} (h : s.stop ≤ 256) :
    ∃ s', passFree d s = .ok s' ∧ s'.stop ≤ 256 ∧
      s' = if s.kind = .events then s.skip d.isFree else s := by
  unfold passFree
  split_ifs
  · exact ⟨_, Series.skip_eq _ h, h, rfl⟩
  · exact ⟨s, rfl, h, rfl⟩

theorem pollListing_eq (h : Series.Short t.self.listing) :
    pollListing c t = .ok (RailNode.Teaching.pollListing c t) := by
  unfold pollListing RailNode.Teaching.pollListing
  rcases hs : t.self.listing with _ | s
  · rfl
  · obtain ⟨s', hpass, hstop, hs'⟩ := passFree_eq (d := t.config) (h s hs)
    dsimp only
    rw [hpass, ok_bind, Series.poll_eq _ _ hstop, ok_bind, ← hs']
    rcases (s'.poll c.now c.timing.replyGap).1 with _ | i
    · rfl
    · exact report_eq _ _ _

/-! ## The turn -/

def handleNamed (c : Cycle) (m : Message) (o : Opcode) (t : Turn Teaching) :
    Except Halt (Turn Teaching) :=
  match o with
  | .nnuln => return t.configure (·.setLearning false)
  | .mode => return RailNode.Teaching.obeyMode m t
  | .nnclr => clear t
  | .nnevn => do
    let free ← Configuration.freeCount t.config
    Turn.reply .evnlf [UInt8.ofNat free] t
  | .rqevn => Turn.reply .numev [UInt8.ofNat t.config.storedCount] t
  | .nerd => return RailNode.Teaching.startListing c.now .events 0 t.config.layout.slots t
  | .nenrd => answerEvent m t
  | .reval => answerSlotVariable c m t
  | _ => return t

def handle (c : Cycle) (m : Message) (t : Turn Teaching) : Except Halt (Turn Teaching) :=
  match m.opcode? with
  | none => return t
  | some .nnlrn => return RailNode.Teaching.yieldLearning m t
  | some .evlrn => if t.config.learning then learn m t else return t
  | some .evuln => if t.config.learning then unlearn m t else return t
  | some .reqev => if t.config.learning then answerVariable c m t else return t
  | some o => if t.isNamedBy m then handleNamed c m o t else return t

def turn (c : Cycle) (t : Turn Teaching) : Except Halt (Turn Teaching) :=
  match c.received? with
  | some m => do
    let t ← handle c m t
    pollListing c t
  | none => pollListing c t

theorem handleNamed_eq (c : Cycle) (m : Message) (o : Opcode) (t : Turn Teaching) :
    handleNamed c m o t = .ok (RailNode.Teaching.handleNamed c m o t) := by
  cases o with
  | nnclr => exact clear_eq t
  | nnevn =>
    rw [handleNamed, Configuration.freeCount_eq, ok_bind]
    exact Turn.reply_eq _ _ _ _
  | rqevn => exact Turn.reply_eq _ _ _ _
  | nenrd => exact answerEvent_eq m t
  | reval => exact answerSlotVariable_eq c m t
  | _ => rfl

theorem handle_eq (c : Cycle) (m : Message) (t : Turn Teaching) :
    handle c m t = RailNode.Teaching.handle c m t := by
  unfold handle RailNode.Teaching.handle
  rcases ho : m.opcode? with _ | o
  · rfl
  cases o with
  | nnlrn => rfl
  | evlrn =>
    dsimp only
    split_ifs
    · exact learn_eq ho
    · rfl
  | evuln =>
    dsimp only
    split_ifs
    · exact unlearn_eq ho
    · rfl
  | reqev =>
    dsimp only
    split_ifs
    · exact answerVariable_eq ho
    · rfl
  | _ =>
    dsimp only
    split_ifs
    · exact handleNamed_eq c m _ t
    · rfl

/-! ## The length of a series -/

theorem short_startListing {now : Time} {kind : EventListing} {first stop : Nat}
    (h : stop ≤ 255 + 1) :
    Series.Short (RailNode.Teaching.startListing now kind first stop t).self.listing :=
  Series.short_start kind first h

theorem short_answerVariable (h : Series.Short t.self.listing) :
    Series.Short (RailNode.Teaching.answerVariable c m t).self.listing := by
  unfold RailNode.Teaching.answerVariable
  split
  · split
    · simpa using h
    · split_ifs
      · exact short_startListing (Nat.succ_le_succ (eventVariables_le t))
      · split <;> simpa using h
  · simpa using h

theorem short_answerSlotVariable (h : Series.Short t.self.listing) :
    Series.Short (RailNode.Teaching.answerSlotVariable c m t).self.listing := by
  unfold RailNode.Teaching.answerSlotVariable
  split
  · split_ifs
    · simpa using h
    · exact short_startListing (Nat.succ_le_succ (eventVariables_le t))
    · split <;> simpa using h
  · simpa using h

theorem short_handleNamed {o : Opcode} (h : Series.Short t.self.listing) :
    Series.Short (RailNode.Teaching.handleNamed c m o t).self.listing := by
  unfold RailNode.Teaching.handleNamed
  split
  · exact h
  · unfold RailNode.Teaching.obeyMode
    split <;> exact h
  · unfold RailNode.Teaching.clear
    split_ifs <;> simpa using h
  · simpa using h
  · simpa using h
  · exact short_startListing (Nat.le_succ_of_le
      (Nat.le_of_lt_succ t.config.layout.eventCount.toNat_lt))
  · unfold RailNode.Teaching.answerEvent
    split
    · simpa using h
    · split_ifs <;> simpa using h
  · exact short_answerSlotVariable h
  · exact h

theorem listing_teachVariable {slot index : Nat} {value : UInt8}
    (h : RailNode.Teaching.teachVariable slot index value t = .ok t') :
    t'.self.listing = t.self.listing := by
  obtain ⟨config, _, h⟩ := bind_eq_ok_iff.1 h
  rw [← Except.ok.inj h]
  simp

theorem listing_learn (h : RailNode.Teaching.learn m t = .ok t') :
    t'.self.listing = t.self.listing := by
  unfold RailNode.Teaching.learn at h
  split at h
  · split_ifs at h
    · rw [← Except.ok.inj h, Turn.self_refuse]
    · split at h
      · exact listing_teachVariable h
      · split at h
        · obtain ⟨u, hu, h⟩ := bind_eq_ok_iff.1 h
          obtain ⟨config, _, hu⟩ := bind_eq_ok_iff.1 hu
          rw [listing_teachVariable h, ← Except.ok.inj hu]
        · rw [← Except.ok.inj h, Turn.self_refuse]
  · rw [← Except.ok.inj h, Turn.self_refuse]

theorem listing_unlearn (h : RailNode.Teaching.unlearn m t = .ok t') :
    t'.self.listing = t.self.listing := by
  unfold RailNode.Teaching.unlearn at h
  split at h
  · split at h
    · obtain ⟨config, _, h⟩ := bind_eq_ok_iff.1 h
      rw [← Except.ok.inj h]
      simp
    · rw [← Except.ok.inj h, Turn.self_refuse]
  · rw [← Except.ok.inj h, Turn.self_refuse]

theorem short_handle (ht : Series.Short t.self.listing)
    (h : RailNode.Teaching.handle c m t = .ok t') : Series.Short t'.self.listing := by
  unfold RailNode.Teaching.handle at h
  split at h
  · exact Except.ok.inj h ▸ ht
  · rw [← Except.ok.inj h]
    unfold RailNode.Teaching.yieldLearning
    split_ifs <;> exact ht
  · split_ifs at h
    · rw [listing_learn h]
      exact ht
    · exact Except.ok.inj h ▸ ht
  · split_ifs at h
    · rw [listing_unlearn h]
      exact ht
    · exact Except.ok.inj h ▸ ht
  · rw [← Except.ok.inj h]
    split_ifs
    · exact short_answerVariable ht
    · exact ht
  · rw [← Except.ok.inj h]
    split_ifs
    · exact short_handleNamed ht
    · exact ht

theorem short_pollListing (h : Series.Short t.self.listing) :
    Series.Short (RailNode.Teaching.pollListing c t).self.listing := by
  unfold RailNode.Teaching.pollListing
  rcases hs : t.self.listing with _ | s
  · dsimp only
    rw [hs]
    exact Series.short_none
  · obtain ⟨s', _, hstop, hs'⟩ := passFree_eq (d := t.config) (h s hs)
    dsimp only
    rw [← hs']
    split
    · exact Series.short_poll hstop
    · rw [RailNode.Teaching.self_report]
      exact Series.short_poll hstop

/-- As long as its series are short, no bound is passed in a turn, and they stay so. -/
theorem turn_eq (ht : Series.Short t.self.listing) :
    turn c t = RailNode.Teaching.turn c t ∧
      ∀ t', RailNode.Teaching.turn c t = .ok t' → Series.Short t'.self.listing := by
  unfold turn RailNode.Teaching.turn
  rcases c.received? with _ | m
  · refine ⟨pollListing_eq ht, fun t' h => ?_⟩
    rw [← Except.ok.inj h]
    exact short_pollListing ht
  · dsimp only
    rw [handle_eq]
    rcases hu : RailNode.Teaching.handle c m t with x | u
    · exact ⟨rfl, fun _ h => by contradiction⟩
    · have hshort := short_handle ht hu
      refine ⟨pollListing_eq hshort, fun t' h => ?_⟩
      rw [← Except.ok.inj h]
      exact short_pollListing hshort

end RailNode.Checked.Teaching
