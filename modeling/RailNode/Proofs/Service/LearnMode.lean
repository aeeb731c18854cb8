import RailNode.Proofs.Service.Edits

/-
  How the services of a node turn learn mode on and off. Only the service that teaches events turns
  it on, for a message that names the node and asks for it (`Message.StartsLearning`). An NNLRN
  message for another node takes the node out of it, and so does a command that names the node
  (`Message.EndsLearning`); a MODE message for another node does not. What the service makes of
  learn mode can be told from the message alone (`Message.learningAfter`,
  `Teaching.learning_turn`).
-/
namespace RailNode

open RailNode.Configuration

/-! ## Messages -/

namespace Message

/-- A MODE message that turns learn mode on in the node it names. -/
def IsLearnOn (m : Message) : Prop :=
  m.opcode? = some .mode ∧ (m.byte? 3).bind ModeCommand.ofByte? = some .learnOn

instance (m : Message) : Decidable m.IsLearnOn :=
  inferInstanceAs (Decidable (m.opcode? = some .mode ∧
    (m.byte? 3).bind ModeCommand.ofByte? = some .learnOn))

/-- A MODE message that turns learn mode off in the node it names. -/
def IsLearnOff (m : Message) : Prop :=
  m.opcode? = some .mode ∧ (m.byte? 3).bind ModeCommand.ofByte? = some .learnOff

instance (m : Message) : Decidable m.IsLearnOff :=
  inferInstanceAs (Decidable (m.opcode? = some .mode ∧
    (m.byte? 3).bind ModeCommand.ofByte? = some .learnOff))

/-- The message puts the node with this number in learn mode. -/
def StartsLearning (number : UInt16) (m : Message) : Prop :=
  m.nodeNumber? = some number ∧ (m.opcode? = some .nnlrn ∨ m.IsLearnOn)

instance (number : UInt16) (m : Message) : Decidable (m.StartsLearning number) :=
  inferInstanceAs (Decidable (m.nodeNumber? = some number ∧
    (m.opcode? = some .nnlrn ∨ m.IsLearnOn)))

/-- The message puts another node in learn mode, and takes the node with this number out of it. -/
def TakesOver (number : UInt16) (m : Message) : Prop :=
  m.opcode? = some .nnlrn ∧ ∃ k, m.nodeNumber? = some k ∧ k ≠ number

instance (number : UInt16) (m : Message) : Decidable (m.TakesOver number) :=
  inferInstanceAs (Decidable (m.opcode? = some .nnlrn ∧ ∃ k ∈ m.nodeNumber?, k ≠ number))

/-- The message takes the node with this number out of learn mode: another node takes over, or the
    node is told to stop. -/
def EndsLearning (number : UInt16) (m : Message) : Prop :=
  m.TakesOver number ∨ m.nodeNumber? = some number ∧ (m.opcode? = some .nnuln ∨ m.IsLearnOff)

instance (number : UInt16) (m : Message) : Decidable (m.EndsLearning number) :=
  inferInstanceAs (Decidable (m.TakesOver number ∨
    m.nodeNumber? = some number ∧ (m.opcode? = some .nnuln ∨ m.IsLearnOff)))

/-- The message is a command for whatever node is in learn mode. -/
def IsLesson (m : Message) : Prop :=
  m.opcode? = some .evlrn ∨ m.opcode? = some .evuln ∨ m.opcode? = some .reqev

/-- Whether a node with this number is in learn mode after the message, given whether it was so
    before it. -/
def learningAfter (number : UInt16) (learning : Bool) (m : Message) : Bool :=
  decide (m.StartsLearning number) || learning && !decide (m.EndsLearning number)

/-- Whether a node with this number that was not in learn mode is so after these messages. -/
def learningBy (number : UInt16) (messages : List Message) : Bool :=
  messages.foldl (learningAfter number) false

variable {number : UInt16} {learning : Bool} {m : Message}

theorem learningBy_concat (number : UInt16) (messages : List Message) (m : Message) :
    learningBy number (messages ++ [m]) = m.learningAfter number (learningBy number messages) := by
  rw [learningBy, List.foldl_append]
  rfl

theorem learningAfter_eq_true_iff : m.learningAfter number learning = true ↔
    m.StartsLearning number ∨ learning = true ∧ ¬ m.EndsLearning number := by
  simp [learningAfter]

theorem learningAfter_of_opcode
    (ho : m.opcode? ∉ [some Opcode.nnlrn, some Opcode.nnuln, some Opcode.mode]) :
    m.learningAfter number learning = learning := by
  simp only [List.mem_cons, List.not_mem_nil, or_false, not_or] at ho
  simp [learningAfter, StartsLearning, EndsLearning, TakesOver, IsLearnOn, IsLearnOff, ho]

theorem learningAfter_of_nnlrn (ho : m.opcode? = some .nnlrn) :
    m.learningAfter number learning = m.nodeNumber?.elim learning (· == number) := by
  rcases hk : m.nodeNumber? with _ | k
  · simp [learningAfter, StartsLearning, EndsLearning, TakesOver, hk]
  · by_cases hnumber : k = number <;>
      simp [learningAfter, StartsLearning, EndsLearning, TakesOver, IsLearnOff, ho, hk, hnumber]

/-- What the message does to another node than the one it names. -/
theorem learningAfter_of_ne (ho : m.opcode? ≠ some .nnlrn) (hn : m.nodeNumber? ≠ some number) :
    m.learningAfter number learning = learning := by
  simp [learningAfter, StartsLearning, EndsLearning, TakesOver, ho, hn]

theorem learningAfter_of_nnuln (ho : m.opcode? = some .nnuln)
    (hn : m.nodeNumber? = some number) : m.learningAfter number learning = false := by
  simp [learningAfter, StartsLearning, EndsLearning, IsLearnOn, ho, hn]

theorem learningAfter_of_mode (ho : m.opcode? = some .mode) (hn : m.nodeNumber? = some number) :
    m.learningAfter number learning =
      (decide ((m.byte? 3).bind ModeCommand.ofByte? = some .learnOn) ||
        learning && !decide ((m.byte? 3).bind ModeCommand.ofByte? = some .learnOff)) := by
  simp [learningAfter, StartsLearning, EndsLearning, TakesOver, IsLearnOn, IsLearnOff, ho, hn]

end Message

/-! ## Teaching -/

namespace Teaching

variable {c : Cycle} {m : Message} {o : Opcode} {t t' : Turn Teaching}

theorem learning_yieldLearning (ho : m.opcode? = some .nnlrn) (t : Turn Teaching) :
    (yieldLearning m t).config.learning =
      m.learningAfter t.config.nodeNumber t.config.learning := by
  rw [m.learningAfter_of_nnlrn ho]
  unfold yieldLearning Turn.isNamedBy
  rcases m.nodeNumber? with _ | k
  · rfl
  · by_cases hk : k = t.config.nodeNumber <;> simp [hk, Configuration.setLearning]

theorem learning_obeyMode (ho : m.opcode? = some .mode)
    (hn : m.nodeNumber? = some t.config.nodeNumber) :
    (obeyMode m t).config.learning = m.learningAfter t.config.nodeNumber t.config.learning := by
  rw [Message.learningAfter_of_mode ho hn]
  unfold obeyMode
  split
  · rename_i hon
    rw [hon]
    rfl
  · rename_i hoff
    rw [hoff]
    simp [Configuration.setLearning]
  · rename_i hon hoff
    rw [decide_eq_false hon, decide_eq_false hoff, Bool.not_false, Bool.and_true, Bool.false_or]

theorem learning_handleNamed (ho : m.opcode? = some o) (hne : o ≠ .nnlrn)
    (hn : m.nodeNumber? = some t.config.nodeNumber) :
    (handleNamed c m o t).config.learning =
      m.learningAfter t.config.nodeNumber t.config.learning := by
  by_cases hmem : o = .nnuln ∨ o = .mode
  · rcases hmem with rfl | rfl
    · rw [Message.learningAfter_of_nnuln ho hn]
      rfl
    · exact learning_obeyMode ho hn
  · rw [Message.learningAfter_of_opcode (by simpa [ho, hne] using hmem)]
    rw [not_or] at hmem
    cases o with
    | nnuln => exact absurd rfl hmem.1
    | mode => exact absurd rfl hmem.2
    | nnclr => exact (edits_clear t).changesOnly.learning (by decide)
    | _ => simp [handleNamed]

/-- What a message makes of learn mode. -/
theorem learning_handle (h : handle c m t = .ok t') :
    t'.config.learning = m.learningAfter t.config.nodeNumber t.config.learning := by
  unfold handle at h
  split at h
  · rename_i ho
    rw [← Except.ok.inj h, Message.learningAfter_of_opcode (by rw [ho]; decide)]
  · rename_i ho
    rw [← Except.ok.inj h, learning_yieldLearning ho]
  · rename_i ho
    rw [Message.learningAfter_of_opcode (by rw [ho]; decide)]
    split_ifs at h
    · exact (edits_learn h).changesOnly.learning (by decide)
    · rw [← Except.ok.inj h]
  · rename_i ho
    rw [Message.learningAfter_of_opcode (by rw [ho]; decide)]
    split_ifs at h
    · exact (edits_unlearn h).changesOnly.learning (by decide)
    · rw [← Except.ok.inj h]
  · rename_i ho
    rw [← Except.ok.inj h, Message.learningAfter_of_opcode (by rw [ho]; decide)]
    split_ifs
    · rw [config_answerVariable]
    · rfl
  · rename_i o hnnlrn _ _ _ ho
    have hne : o ≠ .nnlrn := hnnlrn
    rw [← Except.ok.inj h]
    split_ifs with hnamed
    · exact learning_handleNamed ho hne (beq_iff_eq.1 hnamed)
    · rw [Message.learningAfter_of_ne]
      · rw [ho]
        exact fun heq => hne (Option.some.inj heq)
      · exact fun heq => hnamed (beq_iff_eq.2 heq)

/-- What a turn of the service makes of learn mode, with a message and without. -/
theorem learning_turn (h : turn c t = .ok t') : t'.config.learning =
    c.received?.elim t.config.learning
      (·.learningAfter t.config.nodeNumber t.config.learning) := by
  unfold turn at h
  split at h
  · rename_i m hm
    obtain ⟨u, hu, rfl⟩ := map_eq_ok_iff.1 h
    rw [config_pollListing, hm]
    exact learning_handle hu
  · rename_i hnone
    rw [← Except.ok.inj h, config_pollListing, hnone]
    rfl

end Teaching

/-! ## The number -/

namespace MinimumNode

variable {c : Cycle} {m : Message} {now limit : Time} {t t' : Turn MinimumNode}

theorem learning_inMode {mode : Mode} {d : Configuration}
    (h : (inMode mode d).learning = true) : d.learning = true := by
  unfold inMode at h
  split_ifs at h
  · exact h
  · contradiction

theorem learning_setNodeNumber (number : UInt16) (d : Configuration) :
    (d.setNodeNumber number).learning = d.learning :=
  (d.changesOnly_setNodeNumber number).learning (by decide)

theorem learning_cancelNegotiation (h : (cancelNegotiation t).config.learning = true) :
    t.config.learning = true := by
  unfold cancelNegotiation at h
  split at h
  · exact h
  · dsimp only at h
    split_ifs at h
    · rw [Turn.config_reply, config_switchMode, Turn.config_configure] at h
      have hset := learning_inMode h
      rwa [learning_setNodeNumber] at hset
    · rw [config_switchMode] at h
      exact learning_inMode h

theorem learning_obeyAssignment (h : (obeyAssignment m t).config.learning = true) :
    t.config.learning = true := by
  unfold obeyAssignment at h
  split_ifs at h
  · split at h
    · exact h
    · split_ifs at h
      · exact h
      · rw [config_acceptNumber] at h
        have hset := learning_inMode h
        rwa [learning_setNodeNumber] at hset
  · exact h

theorem learning_renegotiate (h : (renegotiate now t).config.learning = true) :
    t.config.learning = true := by
  unfold renegotiate at h
  split_ifs at h
  · rw [Turn.config_reply, config_beginNegotiation] at h
    exact learning_inMode h
  · exact h

theorem learning_advanceMode (h : (advanceMode now t).config.learning = true) :
    t.config.learning = true := by
  unfold advanceMode at h
  split at h
  · rw [Turn.config_reply, Turn.config_put, config_beginNegotiation] at h
    exact learning_inMode h
  · rw [Turn.config_reply, config_beginNegotiation, Turn.config_reply] at h
    exact learning_inMode h
  · exact learning_cancelNegotiation h

theorem learning_obeyMode {command : UInt8} (h : (obeyMode now command t).config.learning = true) :
    t.config.learning = true := by
  unfold obeyMode at h
  split at h
  · exact learning_renegotiate h
  · unfold resume at h
    split_ifs at h
    · rw [config_switchMode] at h
      exact learning_inMode h
    · exact h
  · exact h
  · exact h
  · exact h
  · rwa [Turn.config_respond] at h

theorem learning_handle (h : handle c m t = .ok t') (hl : t'.config.learning = true) :
    t.config.learning = true := by
  unfold handle at h
  split at h
  · rwa [← Except.ok.inj h] at hl
  · rw [← Except.ok.inj h] at hl
    split_ifs at hl
    · exact hl
    · rwa [unmoved_introduce.config] at hl
  · rw [← Except.ok.inj h] at hl
    split_ifs at hl
    · rwa [Turn.config_send] at hl
    · exact hl
  · rw [← Except.ok.inj h] at hl
    split_ifs at hl
    · rwa [Turn.config_send] at hl
    · exact hl
  · rw [← Except.ok.inj h] at hl
    exact learning_obeyAssignment hl
  · split_ifs at h
    · unfold handleNamed at h
      split at h
      · rwa [← Except.ok.inj h, unmoved_answerParameter.config] at hl
      · contradiction
      · contradiction
      · split at h
        · rwa [← Except.ok.inj h] at hl
        · rw [← Except.ok.inj h] at hl
          exact learning_obeyMode hl
      · rwa [← Except.ok.inj h, unmoved_answerServices.config] at hl
      · rwa [← Except.ok.inj h, unmoved_answerDiagnostics.config] at hl
      · rwa [← Except.ok.inj h] at hl
    · rwa [← Except.ok.inj h] at hl

theorem learning_react (h : react c t = .ok t') (hl : t'.config.learning = true) :
    t.config.learning = true := by
  unfold react at h
  split at h
  · rw [← Except.ok.inj h] at hl
    exact learning_advanceMode hl
  · rw [← Except.ok.inj h] at hl
    exact learning_renegotiate hl
  · exact learning_handle h hl
  · rwa [← Except.ok.inj h] at hl

theorem learning_poll (h : poll c t = .ok t') (hl : t'.config.learning = true) :
    t.config.learning = true := by
  rw [config_poll h] at hl
  unfold pollNegotiation at hl
  split at hl
  · exact hl
  · split_ifs at hl
    · exact learning_cancelNegotiation hl
    · exact hl

/-- The service for the number never turns learn mode on. -/
theorem learning_turn (h : turn c t = .ok t') (hl : t'.config.learning = true) :
    t.config.learning = true := by
  rw [turn_eq] at h
  obtain ⟨u, hu, hpoll⟩ := bind_eq_ok_iff.1 h
  exact learning_react (t := noteStart c t) hu (learning_poll hpoll hl)

end MinimumNode

/-! ## All services -/

namespace Service

variable {c : Cycle} {t t' : Turn Service}

/-- Only two services may change learn mode at all. -/
theorem learning_notMem_parts {s : Service} (hteaching : s.id ≠ .teaching)
    (hminimum : s.id ≠ .minimumNode) : .learning ∉ s.parts := by
  cases s with
  | teaching s => exact absurd rfl hteaching
  | minimumNode s => exact absurd rfl hminimum
  | _ => simp only [parts]; decide

/-- A service other than that for events never turns learn mode on. -/
theorem learning_turn_of_ne (hid : t.self.id ≠ .teaching) (h : turn c t = .ok t')
    (hl : t'.config.learning = true) : t.config.learning = true := by
  obtain ⟨s, shared, trace⟩ := t
  by_cases hminimum : s.id = .minimumNode
  · cases s with
    | minimumNode s =>
      obtain ⟨u, hu, rfl⟩ := map_eq_ok_iff.1 h
      exact MinimumNode.learning_turn hu hl
    | _ => exact nomatch hminimum
  · have hsame := (edits_turn h).changesOnly.learning (learning_notMem_parts hid hminimum)
    rwa [hsame] at hl

/-- The service that teaches events, seen as one of all services. -/
theorem learning_turn_of_teaching (hid : t.self.id = .teaching) (h : turn c t = .ok t') :
    t'.config.learning = c.received?.elim t.config.learning
      (·.learningAfter t.config.nodeNumber t.config.learning) := by
  obtain ⟨s, shared, trace⟩ := t
  cases s with
  | teaching s =>
    obtain ⟨u, hu, rfl⟩ := map_eq_ok_iff.1 h
    exact Teaching.learning_turn hu
  | _ => exact nomatch hid

/-- A service leaves the node in learn mode only if the message of the cycle puts the node there, or
    if it finds the node there and, if it teaches events, the message does not take the node out. -/
theorem learning_turn (h : turn c t = .ok t') (hl : t'.config.learning = true) :
    (∃ m, c.received? = some m ∧ m.StartsLearning t.config.nodeNumber) ∨
      t.config.learning = true ∧
        (t.self.id = .teaching →
          ∀ m, c.received? = some m → ¬ m.EndsLearning t.config.nodeNumber) := by
  by_cases hid : t.self.id = .teaching
  · rw [learning_turn_of_teaching hid h] at hl
    rcases hm : c.received? with _ | m
    · rw [hm] at hl
      exact Or.inr ⟨hl, fun _ m hm => nomatch hm⟩
    · rw [hm] at hl
      rcases Message.learningAfter_eq_true_iff.1 hl with hstarts | ⟨hlearning, hstays⟩
      · exact Or.inl ⟨m, rfl, hstarts⟩
      · exact Or.inr ⟨hlearning, fun _ m' hm' => Option.some.inj hm' ▸ hstays⟩
  · exact Or.inr ⟨learning_turn_of_ne hid h hl, fun hid' => absurd hid' hid⟩

/-- Without an action no service turns learn mode on. -/
theorem learning_turn_quiet (hnone : c.received? = none) (h : turn c t = .ok t')
    (hl : t.config.learning = false) : t'.config.learning = false := by
  refine Bool.eq_false_iff.2 fun hlearning => ?_
  rcases learning_turn h hlearning with ⟨m, hm, _⟩ | ⟨hbefore, _⟩
  · rw [hnone] at hm
    contradiction
  · rw [hl] at hbefore
    contradiction

end Service

end RailNode
