import RailNode.Proofs.Service.LearnMode

/-
  Messages that make no difference to a node. Most commands are for the node that they name, and the
  few others have opcodes of their own; the lessons among these are for the node in learn mode. A
  service that finds a message for others, or a lesson for somebody else, has the turn that it would
  have in a cycle without an action (`Service.turn_of_ignored`).
-/
namespace RailNode

/-- The same cycle, with no action taken from the queue. -/
def Cycle.quiet (c : Cycle) : Cycle := { c with action := none }

/-- The opcodes that concern a node which they do not name; those of accessory events aside. -/
def Opcode.unnamed : List Opcode :=
  [.qnn, .rqnp, .rqmn, .snn, .nnlrn, .evlrn, .evuln, .reqev, .dtxc]

/-- The message is not for the node with this number, which it would have to name. -/
structure Message.ForOthers (number : UInt16) (m : Message) : Prop where
  opcode : ∀ o ∈ Opcode.unnamed, m.opcode? ≠ some o
  event : ∀ code : EventCode, m.opcodeByte? ≠ some code.byte
  nodeNumber : m.nodeNumber? ≠ some number

/-- The message is for other nodes, or it is a lesson and the node is not in learn mode. -/
def Message.Ignored (config : Configuration) (m : Message) : Prop :=
  m.ForOthers config.nodeNumber ∨ m.IsLesson ∧ config.learning = false

theorem Cycle.received?_eq {c : Cycle} {m : Message} (h : c.action = some (.received m)) :
    c.received? = some m := by
  rw [received?, h]

@[simp]
theorem Cycle.received?_quiet (c : Cycle) : c.quiet.received? = none := rfl

namespace Message.ForOthers

variable {number : UInt16} {m : Message}

theorem eventCode? (h : m.ForOthers number) : m.eventCode? = none := by
  rw [Message.eventCode?, Option.bind_eq_none_iff]
  intro b hb
  rw [Option.eq_none_iff_forall_ne_some]
  intro code hcode
  rw [EventCode.ofByte?_eq_some_iff.1 hcode] at hb
  exact h.event code hb

theorem isNamedBy {σ : Type} {t : Turn σ} (h : m.ForOthers t.config.nodeNumber) :
    t.isNamedBy m = false :=
  beq_eq_false_iff_ne.2 h.nodeNumber

end Message.ForOthers

theorem Message.IsLesson.eventCode? {m : Message} (h : m.IsLesson) : m.eventCode? = none := by
  have hbyte : ∀ {o : Opcode}, m.opcode? = some o → m.eventCode? = EventCode.ofByte? o.byte := by
    intro o ho
    obtain ⟨b, hb, hb'⟩ := Option.bind_eq_some_iff.1 ho
    rw [Message.eventCode?, hb, Opcode.ofByte?_eq_some_iff.1 hb']
    rfl
  rcases h with ho | ho | ho
  all_goals
    rw [hbyte ho]
    decide

theorem Message.Ignored.recognise? {m : Message} {config : Configuration}
    (h : m.Ignored config) : config.recognise? m = none := by
  have hcode : m.eventCode? = none := by
    rcases h with h | ⟨h, _⟩
    · exact h.eventCode?
    · exact h.eventCode?
  rw [Configuration.recognise?, hcode]
  rfl

variable {c : Cycle} {m : Message}

/-! ## What services do about such a message -/

theorem MinimumNode.handle_of_ignored {t : Turn MinimumNode} (h : m.Ignored t.config) :
    handle c m t = .ok t := by
  rcases h with h | ⟨ho | ho | ho, _⟩
  · unfold handle
    split
    · rfl
    · exact absurd ‹_› (h.opcode .qnn (by decide))
    · exact absurd ‹_› (h.opcode .rqnp (by decide))
    · exact absurd ‹_› (h.opcode .rqmn (by decide))
    · exact absurd ‹_› (h.opcode .snn (by decide))
    · rw [h.isNamedBy]
      rfl
  all_goals simp [handle, handleNamed, ho]

theorem BusAccess.handle_of_ignored {t : Turn BusAccess} (h : m.Ignored t.config) :
    handle m t = t := by
  rcases h with h | ⟨ho | ho | ho, _⟩
  · unfold handle
    rw [h.isNamedBy]
    split <;> rfl
  all_goals simp [handle, ho]

theorem VariableAccess.handle_of_ignored {t : Turn VariableAccess} (h : m.Ignored t.config) :
    handle c m t = .ok t := by
  rcases h with h | ⟨ho | ho | ho, _⟩
  · rw [handle, h.isNamedBy]
    rfl
  all_goals simp [handle, ho]

theorem Teaching.handle_of_ignored {t : Turn Teaching} (h : m.Ignored t.config) :
    handle c m t = .ok t := by
  rcases h with h | ⟨ho | ho | ho, hlearning⟩
  · unfold handle
    split
    · rfl
    · exact absurd ‹_› (h.opcode .nnlrn (by decide))
    · exact absurd ‹_› (h.opcode .evlrn (by decide))
    · exact absurd ‹_› (h.opcode .evuln (by decide))
    · exact absurd ‹_› (h.opcode .reqev (by decide))
    · rw [h.isNamedBy]
      rfl
  all_goals simp [handle, ho, hlearning]

theorem EventAcknowledge.not_mode_of_ignored {t : Turn EventAcknowledge}
    (h : m.Ignored t.config) : ¬ (m.opcode? = some .mode ∧ t.isNamedBy m) := by
  rintro ⟨hmode, hnamed⟩
  rcases h with h | ⟨ho | ho | ho, _⟩
  · rw [h.isNamedBy] at hnamed
    contradiction
  all_goals
    rw [ho] at hmode
    contradiction

theorem LongMessage.receive_of_ignored {config : Configuration} {now : Time} {r : Reception}
    (h : m.Ignored config) : r.receive now m = r := by
  unfold Reception.receive
  refine if_pos ?_
  rcases h with h | ⟨ho | ho | ho, _⟩
  · exact h.opcode .dtxc (by decide)
  all_goals
    rw [ho]
    decide

theorem Reporter.handle_of_ignored {service : Service} {position : Nat} {t : Turn Reporter}
    (h : m.Ignored t.config) : handle c service position m t = t := by
  unfold handle
  refine if_neg ?_
  rintro ⟨hdiagnostics, hnamed⟩
  rcases h with h | ⟨ho | ho | ho, _⟩
  · rw [h.isNamedBy] at hnamed
    contradiction
  all_goals
    rw [ho] at hdiagnostics
    contradiction

/-! ## Turns -/

variable (hm : c.action = some (.received m))

include hm

theorem MinimumNode.turn_of_ignored {t : Turn MinimumNode}
    (h : m.Ignored t.config) : turn c t = turn c.quiet t := by
  unfold turn react
  rw [hm]
  exact congrArg (· >>= poll c) (handle_of_ignored h)

theorem BusAccess.turn_of_ignored {t : Turn BusAccess}
    (h : m.Ignored t.config) : turn c t = turn c.quiet t := by
  have hreact : react c t = t := by
    rw [react, hm]
    exact handle_of_ignored h
  unfold turn
  rw [hreact]
  rfl

theorem VariableAccess.turn_of_ignored {t : Turn VariableAccess}
    (h : m.Ignored t.config) : turn c t = turn c.quiet t := by
  unfold turn
  rw [Cycle.received?_eq hm, Cycle.received?_quiet]
  exact congrArg (· >>= pollListing c) (handle_of_ignored h)

theorem Teaching.turn_of_ignored {t : Turn Teaching}
    (h : m.Ignored t.config) : turn c t = turn c.quiet t := by
  unfold turn
  rw [Cycle.received?_eq hm, Cycle.received?_quiet]
  exact congrArg (Except.map (pollListing c)) (handle_of_ignored h)

theorem EventConsumer.turn_of_ignored {t : Turn EventConsumer}
    (h : m.Ignored t.config) : turn c t = turn c.quiet t := by
  unfold turn observed?
  rw [hm]
  dsimp only [Option.bind_some]
  rw [h.recognise?]
  rfl

theorem EventAcknowledge.turn_of_ignored {t : Turn EventAcknowledge}
    (h : m.Ignored t.config) : turn c t = turn c.quiet t := by
  unfold turn
  rw [Cycle.received?_eq hm, Cycle.received?_quiet]
  dsimp only
  rw [if_neg (not_mode_of_ignored h)]
  unfold acknowledge
  rw [h.recognise?]
  exact ite_self t

theorem LongMessage.turn_of_ignored {t : Turn LongMessage}
    (h : m.Ignored t.config) : turn c t = turn c.quiet t := by
  have hreact : react c t.self.reception = react c.quiet t.self.reception := by
    rw [react, react, Cycle.received?_eq hm, Cycle.received?_quiet]
    exact receive_of_ignored h
  unfold turn
  rw [hreact]
  rfl

/-- Such a message does nothing to the turn of a service. -/
theorem Service.turn_of_ignored {t : Turn Service} (h : m.Ignored t.config) :
    turn c t = turn c.quiet t := by
  obtain ⟨s, shared, trace⟩ := t
  cases s with
  | minimumNode s =>
    exact congrArg (Except.map (Turn.map minimumNode)) (MinimumNode.turn_of_ignored hm h)
  | busAccess s =>
    exact congrArg (Except.ok ∘ Turn.map busAccess) (BusAccess.turn_of_ignored hm h)
  | nodeVariables s =>
    exact congrArg (Except.map (Turn.map nodeVariables)) (VariableAccess.turn_of_ignored hm h)
  | teaching s =>
    exact congrArg (Except.map (Turn.map teaching)) (Teaching.turn_of_ignored hm h)
  | consumer s =>
    exact congrArg (Except.ok ∘ Turn.map consumer) (EventConsumer.turn_of_ignored hm h)
  | producer s => rfl
  | acknowledge s =>
    exact congrArg (Except.ok ∘ Turn.map acknowledge) (EventAcknowledge.turn_of_ignored hm h)
  | longMessage s =>
    exact congrArg (Except.ok ∘ Turn.map longMessage) (LongMessage.turn_of_ignored hm h)

/-- Nor does it do anything to the turn of a reporter. -/
theorem Reporter.turn_of_ignored {service : Service} {position : Nat} {t : Turn Reporter}
    (h : m.Ignored t.config) :
    turn c service position t = turn c.quiet service position t := by
  unfold turn
  rw [Cycle.received?_eq hm, Cycle.received?_quiet]
  dsimp only
  rw [handle_of_ignored h]
  unfold pollListing sendValue Service.diagnostic?
  rfl

end RailNode
