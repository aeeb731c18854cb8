import RailNode.Proofs.Service.LearnMode
import RailNode.Proofs.Service.Learning
import RailNode.Proofs.Service.Negotiation

/-
  Learn mode and normal mode. The service for the number turns learn mode off whenever it switches
  to another mode than normal (`MaySwitch`). The service for events turns it on in whatever mode the
  node is, so learn mode stays within normal mode only if no message turns it on elsewhere. A node
  that stays in normal mode is taken out of learn mode by the service for events alone
  (`MinimumNode.changesOnly_turn_of_normal`). Without learn mode that service leaves the table
  (`Teaching.changesOnly_turn_of_unlearned`).
-/
namespace RailNode

open RailNode.Configuration

/-! ## Configurations -/

namespace Configuration

variable {c d e : Configuration}

/-- Learn mode is on in normal mode only. -/
def LearnsInNormal (c : Configuration) : Prop := c.learning = true → c.mode = .normal

/-- From `c` to `d` mode and learn mode have stayed, or the mode was switched and learn mode is not
    on outside normal mode. -/
def MaySwitch (c d : Configuration) : Prop :=
  d.mode = c.mode ∧ d.learning = c.learning ∨ d.LearnsInNormal

namespace MaySwitch

theorem refl (c : Configuration) : c.MaySwitch c := Or.inl ⟨rfl, rfl⟩

theorem of_changesOnly {A : List Part} (h : ChangesOnly A c d)
    (hA : .mode ∉ A ∧ .learning ∉ A) : c.MaySwitch d :=
  Or.inl ⟨h.mode hA.1, h.learning hA.2⟩

theorem learnsInNormal (h : c.MaySwitch d) (hc : c.LearnsInNormal) : d.LearnsInNormal := by
  rcases h with ⟨hmode, hlearning⟩ | h
  · intro hl
    rw [hmode]
    exact hc (hlearning ▸ hl)
  · exact h

theorem trans (h : c.MaySwitch d) (h' : d.MaySwitch e) : c.MaySwitch e := by
  rcases h with ⟨hmode, hlearning⟩ | h
  · rcases h' with ⟨hmode', hlearning'⟩ | h'
    · exact Or.inl ⟨hmode'.trans hmode, hlearning'.trans hlearning⟩
    · exact Or.inr h'
  · exact Or.inr (h'.learnsInNormal h)

end MaySwitch

theorem learnsInNormal_load (c : Configuration) : c.load.LearnsInNormal := by
  intro h
  rw [c.learning_load] at h
  contradiction

end Configuration

/-! ## The service for the number -/

namespace MinimumNode

variable {c : Cycle} {m : Message} {now : Time} {t t' : Turn MinimumNode} {mode : Mode}

theorem learnsInNormal_inMode (mode : Mode) (d : Configuration) :
    (inMode mode d).LearnsInNormal := by
  intro h
  unfold inMode at h ⊢
  split_ifs at h ⊢ with hnormal
  · exact hnormal
  · contradiction

theorem maySwitch_inMode (mode : Mode) (d e : Configuration) : d.MaySwitch (inMode mode e) :=
  Or.inr (learnsInNormal_inMode mode e)

theorem maySwitch_cancelNegotiation (t : Turn MinimumNode) :
    t.config.MaySwitch (cancelNegotiation t).config := by
  unfold cancelNegotiation
  split
  · exact .refl _
  · dsimp only
    split_ifs
    · rw [Turn.config_reply, config_switchMode]
      exact maySwitch_inMode _ _ _
    · rw [config_switchMode]
      exact maySwitch_inMode _ _ _

theorem maySwitch_obeyAssignment (m : Message) (t : Turn MinimumNode) :
    t.config.MaySwitch (obeyAssignment m t).config := by
  unfold obeyAssignment
  split_ifs
  · split
    · exact .refl _
    · split_ifs
      · exact .refl _
      · rw [config_acceptNumber]
        exact maySwitch_inMode _ _ _
  · exact .refl _

theorem maySwitch_renegotiate (now : Time) (t : Turn MinimumNode) :
    t.config.MaySwitch (renegotiate now t).config := by
  unfold renegotiate
  split_ifs
  · rw [Turn.config_reply, config_beginNegotiation]
    exact maySwitch_inMode _ _ _
  · exact .refl _

theorem maySwitch_advanceMode (now : Time) (t : Turn MinimumNode) :
    t.config.MaySwitch (advanceMode now t).config := by
  unfold advanceMode
  split
  · rw [Turn.config_reply, Turn.config_put, config_beginNegotiation]
    exact maySwitch_inMode _ _ _
  · rw [Turn.config_reply, config_beginNegotiation]
    exact maySwitch_inMode _ _ _
  · exact maySwitch_cancelNegotiation t

theorem maySwitch_obeyMode (now : Time) (command : UInt8) (t : Turn MinimumNode) :
    t.config.MaySwitch (obeyMode now command t).config := by
  have hflags : ∀ on, t.config.MaySwitch (t.config.setHeartbeat on) := fun on =>
    .of_changesOnly (t.config.changesOnly_setFlags _) (by decide)
  unfold obeyMode
  split
  · exact maySwitch_renegotiate now t
  · unfold resume
    split_ifs
    · rw [config_switchMode]
      exact maySwitch_inMode _ _ _
    · exact .refl _
  · exact hflags true
  · exact hflags false
  · exact .refl _
  · rw [Turn.config_respond]
    exact .refl _

theorem maySwitch_handle (h : handle c m t = .ok t') : t.config.MaySwitch t'.config := by
  unfold handle at h
  split at h
  · rw [← Except.ok.inj h]
    exact .refl _
  · rw [← Except.ok.inj h]
    split_ifs <;> simpa [introduce] using .refl _
  · rw [← Except.ok.inj h]
    split_ifs <;> simpa using .refl _
  · rw [← Except.ok.inj h]
    split_ifs <;> simpa using .refl _
  · rw [← Except.ok.inj h]
    exact maySwitch_obeyAssignment m t
  · split_ifs at h
    · unfold handleNamed at h
      split at h
      · rw [← Except.ok.inj h, unmoved_answerParameter.config]
        exact .refl _
      · contradiction
      · contradiction
      · split at h
        · rw [← Except.ok.inj h]
          exact .refl _
        · rw [← Except.ok.inj h]
          exact maySwitch_obeyMode _ _ t
      · rw [← Except.ok.inj h, unmoved_answerServices.config]
        exact .refl _
      · rw [← Except.ok.inj h, unmoved_answerDiagnostics.config]
        exact .refl _
      · rw [← Except.ok.inj h]
        exact .refl _
    · rw [← Except.ok.inj h]
      exact .refl _

theorem maySwitch_react (h : react c t = .ok t') : t.config.MaySwitch t'.config := by
  unfold react at h
  split at h
  · rw [← Except.ok.inj h]
    exact maySwitch_advanceMode _ t
  · rw [← Except.ok.inj h]
    exact maySwitch_renegotiate _ t
  · exact maySwitch_handle h
  · rw [← Except.ok.inj h]
    exact .refl _

theorem maySwitch_turn (h : turn c t = .ok t') : t.config.MaySwitch t'.config := by
  rw [turn_eq] at h
  obtain ⟨u, hu, hpoll⟩ := bind_eq_ok_iff.1 h
  refine (maySwitch_react (t := noteStart c t) hu).trans ?_
  rw [config_poll hpoll]
  unfold pollNegotiation
  split
  · exact .refl _
  · split_ifs
    · exact maySwitch_cancelNegotiation u
    · exact .refl _

theorem changesOnly_obeyMode {command : UInt8} (hmode : t.config.mode = .normal)
    (hne : ModeCommand.ofByte? command ≠ some .setup) :
    ChangesOnly [.flags] t.config (obeyMode now command t).config := by
  have hsetup : ¬ (t.config.mode = .setup ∧ t.config.nodeNumber ≠ 0) := by
    rw [hmode]
    exact fun h => nomatch h.1
  unfold obeyMode
  split
  · contradiction
  · rw [resume, if_neg hsetup]
    exact .refl _ _
  · exact t.config.changesOnly_setFlags _
  · exact t.config.changesOnly_setFlags _
  · exact .refl _ _
  · rw [Turn.config_respond]
    exact .refl _ _

theorem changesOnly_handle (hmode : t.config.mode = .normal)
    (hopens : ¬ Standing.Commands .setup t.config.nodeNumber (some (.received m)))
    (h : handle c m t = .ok t') : ChangesOnly [.flags] t.config t'.config := by
  unfold handle at h
  split at h
  · exact Except.ok.inj h ▸ .refl _ _
  · rw [← Except.ok.inj h]
    split_ifs <;> simpa [introduce] using .refl _ _
  · rw [← Except.ok.inj h]
    split_ifs <;> simpa using .refl _ _
  · rw [← Except.ok.inj h]
    split_ifs <;> simpa using .refl _ _
  · rw [← Except.ok.inj h, obeyAssignment, if_neg (by rw [hmode]; decide)]
    exact .refl _ _
  · rename_i ho
    split_ifs at h with hnamed
    · unfold handleNamed at h
      split at h
      · rw [← Except.ok.inj h, unmoved_answerParameter.config]
        exact .refl _ _
      · contradiction
      · contradiction
      · split at h
        · exact Except.ok.inj h ▸ .refl _ _
        · rename_i command hcommand
          rw [← Except.ok.inj h]
          refine changesOnly_obeyMode hmode fun hk => hopens ?_
          rw [byte_of_modeCommand hk] at hcommand
          exact ⟨m, rfl, ho, beq_iff_eq.1 hnamed, hcommand⟩
      · rw [← Except.ok.inj h, unmoved_answerServices.config]
        exact .refl _ _
      · rw [← Except.ok.inj h, unmoved_answerDiagnostics.config]
        exact .refl _ _
      · exact Except.ok.inj h ▸ .refl _ _
    · exact Except.ok.inj h ▸ .refl _ _

theorem changesOnly_react (hmode : t.config.mode = .normal)
    (hopens : ¬ Standing.Opens c.action t.config.nodeNumber .normal) (h : react c t = .ok t') :
    ChangesOnly [.flags] t.config t'.config := by
  unfold react at h
  split at h
  · rename_i haction
    exact absurd (Or.inl haction) hopens
  · rename_i haction
    exact absurd (Or.inr (Or.inl haction)) hopens
  · rename_i m haction
    rw [haction] at hopens
    exact changesOnly_handle hmode (fun hcommands => hopens (Or.inr (Or.inr hcommands))) h
  · exact Except.ok.inj h ▸ .refl _ _

/-- In normal mode only an action that opens a negotiation changes more than the flags. -/
theorem changesOnly_turn_of_normal (hmode : t.config.mode = .normal)
    (hidle : t.self.negotiation = none)
    (hopens : ¬ Standing.Opens c.action t.config.nodeNumber .normal) (h : turn c t = .ok t') :
    ChangesOnly [.flags] t.config t'.config := by
  rw [turn_eq] at h
  obtain ⟨u, hu, hpoll⟩ := bind_eq_ok_iff.1 h
  have hreact := changesOnly_react (t := noteStart c t) hmode hopens hu
  have hstanding : u.standing = (noteStart c t).standing := by
    refine standing_of_neither hu ?_ fun hsetup => ?_
    · exact hmode ▸ hopens
    · rw [show (noteStart c t).config.mode = .normal from hmode] at hsetup
      contradiction
  have hnone : u.self.negotiation = none :=
    (congrArg Standing.negotiation hstanding).trans hidle
  rw [config_poll hpoll, pollNegotiation, hnone]
  exact hreact

/-- The service does nothing about a message that turns learn mode on. -/
theorem handle_of_startsLearning {number : UInt16} (hm : m.StartsLearning number) :
    handle c m t = .ok t := by
  obtain ⟨_, ho | ⟨ho, hcommand⟩⟩ := hm
  · unfold handle handleNamed
    rw [ho]
    dsimp only
    split_ifs <;> rfl
  · obtain ⟨b, hb, hlearn⟩ := Option.bind_eq_some_iff.1 hcommand
    unfold handle handleNamed obeyMode
    rw [ho]
    dsimp only
    rw [hb]
    dsimp only
    rw [hlearn]
    split_ifs <;> rfl

/-- While such a message is processed, the mode is switched only where a negotiation ends that took
    too long. -/
theorem turn_of_startsLearning {number : UInt16} (hm : m.StartsLearning number)
    (hreceived : c.received? = some m) (ht : t.standing.Consistent) (h : turn c t = .ok t') :
    t'.config = t.config ∨ t.config.mode = .setup ∧ t'.config.mode ≠ .setup := by
  have haction : c.action = some (.received m) := by
    unfold Cycle.received? at hreceived
    split at hreceived
    · rename_i m' ha
      rw [ha, Option.some.inj hreceived]
    · contradiction
  rw [turn_eq] at h
  obtain ⟨u, hu, hpoll⟩ := bind_eq_ok_iff.1 h
  have hreact : react c (noteStart c t) = .ok (noteStart c t) := by
    unfold react
    rw [haction]
    exact handle_of_startsLearning hm
  rw [hreact] at hu
  have hstanding : (noteStart c t).standing.Consistent := ht
  rw [config_poll hpoll, ← Except.ok.inj hu]
  unfold pollNegotiation
  split
  · exact Or.inl rfl
  · rename_i n hn
    split_ifs
    · refine Or.inr ⟨(hstanding.of_negotiation hn).1, ?_⟩
      have hleave := standing_cancelNegotiation hn
      rw [hstanding.leave_eq hn] at hleave
      have hmode := congrArg Standing.mode hleave
      show (cancelNegotiation (noteStart c t)).standing.mode ≠ .setup
      rw [hmode]
      exact homeMode_ne_setup _
    · exact Or.inl rfl

end MinimumNode

/-! ## The service for events -/

namespace Teaching

variable {c : Cycle} {m : Message} {t t' : Turn Teaching}

/-- Outside learn mode only the clearing of the table is asked of it, and refused. -/
theorem opcode_of_demandIn (hl : t.config.learning = false) (h : demandIn? m t.config ≠ none) :
    m.opcode? = some .nnclr := by
  unfold demandIn? demand? at h
  rw [hl] at h
  split at h
  · exact absurd rfl h
  · exact absurd rfl h
  · assumption
  · exact absurd rfl h

/-- Outside learn mode the service changes nothing but learn mode. -/
theorem changesOnly_turn_of_unlearned (hl : t.config.learning = false) (h : turn c t = .ok t') :
    ChangesOnly [.learning] t.config t'.config := by
  by_cases hdemand : ∀ m, c.received? = some m → demandIn? m t.config = none
  · obtain ⟨u, hu, hch⟩ := changesOnly_turn hdemand
    rw [h] at hu
    exact Except.ok.inj hu ▸ hch
  · obtain ⟨m, hm⟩ := not_forall.1 hdemand
    obtain ⟨hreceived, hasks⟩ := Classical.not_imp.1 hm
    unfold turn at h
    rw [hreceived] at h
    obtain ⟨u, hu, rfl⟩ := map_eq_ok_iff.1 h
    unfold handle at hu
    rw [opcode_of_demandIn hl hasks] at hu
    rw [config_pollListing, ← Except.ok.inj hu]
    split_ifs
    · rw [handleNamed, clear, if_neg (by rw [hl]; decide), Turn.config_refuse]
      exact .refl _ _
    · exact .refl _ _

end Teaching

/-! ## All services -/

namespace Service

variable {c : Cycle} {t t' : Turn Service}

/-- A service other than that for events turns learn mode off with normal mode, if it does
    anything about either. -/
theorem maySwitch_turn (hid : t.self.id ≠ .teaching) (h : turn c t = .ok t') :
    t.config.MaySwitch t'.config := by
  obtain ⟨s, shared, trace⟩ := t
  cases s with
  | minimumNode s =>
    obtain ⟨u, hu, rfl⟩ := map_eq_ok_iff.1 h
    exact MinimumNode.maySwitch_turn hu
  | teaching s => exact absurd rfl hid
  | _ => exact .of_changesOnly (edits_turn h).changesOnly (by simp only [parts]; decide)

end Service

end RailNode
