import Mathlib.Tactic.SplitIfs
import RailNode.Proofs.Service.Turn
import RailNode.Service.MinimumNode

/-
  What the turn of the service that every node has does to the configuration, and what it leaves
  if it ends in a restart.
-/
namespace RailNode.MinimumNode

open RailNode.Configuration

/-- The mode, the node number, the flags and learn mode, which ends with normal mode. -/
def parts : List Part := [.mode, .number, .flags, .learning]

theorem edits_inMode (mode : Mode) (c : Configuration) : Edits parts c (inMode mode c) := by
  have hmode : Edits parts c (c.setMode mode) := .single (.mode mode (by decide))
  unfold inMode
  split_ifs
  · exact hmode
  · exact hmode.tail (.learning false (by decide))

@[simp]
theorem config_switchMode (mode : Mode) (t : Turn MinimumNode) :
    (switchMode mode t).config = inMode mode t.config := by
  simp [switchMode]

@[simp]
theorem config_beginNegotiation (now : Time) (t : Turn MinimumNode) :
    (beginNegotiation now t).config = inMode .setup t.config := by
  simp [beginNegotiation]

theorem edits_cancelNegotiation (t : Turn MinimumNode) :
    Edits parts t.config (cancelNegotiation t).config := by
  unfold cancelNegotiation
  split
  · exact .refl
  · rename_i n _
    have hnumber : Edits parts t.config (t.config.setNodeNumber n.previousNumber) :=
      .single (.number _ (by decide))
    dsimp only
    split_ifs
    · simpa using hnumber.trans (edits_inMode _ _)
    · simpa using edits_inMode _ _

theorem config_acceptNumber (number : UInt16) (t : Turn MinimumNode) :
    (acceptNumber number t).config = inMode .normal (t.config.setNodeNumber number) := by
  simp [acceptNumber]

theorem edits_acceptNumber (number : UInt16) (t : Turn MinimumNode) :
    Edits parts t.config (acceptNumber number t).config := by
  have hnumber : Edits parts t.config (t.config.setNodeNumber number) :=
    .single (.number _ (by decide))
  rw [config_acceptNumber]
  exact hnumber.trans (edits_inMode _ _)

theorem edits_obeyAssignment (m : Message) (t : Turn MinimumNode) :
    Edits parts t.config (obeyAssignment m t).config := by
  unfold obeyAssignment
  split_ifs
  · split
    · exact .refl
    · split_ifs
      · exact .refl
      · exact edits_acceptNumber _ t
  · exact .refl

theorem edits_renegotiate (now : Time) (t : Turn MinimumNode) :
    Edits parts t.config (renegotiate now t).config := by
  unfold renegotiate
  split_ifs
  · simpa using edits_inMode _ _
  · exact .refl

theorem edits_advanceMode (now : Time) (t : Turn MinimumNode) :
    Edits parts t.config (advanceMode now t).config := by
  unfold advanceMode
  split
  · simpa using edits_inMode _ _
  · simpa using edits_inMode _ _
  · exact edits_cancelNegotiation t

theorem edits_resume (t : Turn MinimumNode) : Edits parts t.config (resume t).config := by
  unfold resume
  split_ifs
  · simpa using edits_inMode _ _
  · exact .refl

theorem edits_obeyMode (now : Time) (command : UInt8) (t : Turn MinimumNode) :
    Edits parts t.config (obeyMode now command t).config := by
  unfold obeyMode
  split
  · exact edits_renegotiate now t
  · exact edits_resume t
  · exact .single (.flags _ (by decide))
  · exact .single (.flags _ (by decide))
  · exact .refl
  · simpa using .refl

theorem edits_pollNegotiation (now limit : Time) (t : Turn MinimumNode) :
    Edits parts t.config (pollNegotiation now limit t).config := by
  unfold pollNegotiation
  split
  · exact .refl
  · split_ifs
    · exact edits_cancelNegotiation t
    · exact .refl

/-! ## Answers -/

/-- From `t` to `t'` neither the configuration nor the negotiation has changed. -/
structure Unmoved (t t' : Turn MinimumNode) : Prop where
  config : t'.config = t.config
  negotiation : t'.self.negotiation = t.self.negotiation

namespace Unmoved

variable {t t' : Turn MinimumNode}

theorem put (h : Unmoved t t') (a : Action) : Unmoved t (t'.put a) where
  config := by rw [Turn.config_put, h.config]
  negotiation := by rw [Turn.self_put, h.negotiation]

theorem reply (h : Unmoved t t') (o : Opcode) (args : List UInt8) (hargs : args.length ≤ 5) :
    Unmoved t (t'.reply o args hargs) :=
  h.put _

theorem respond (h : Unmoved t t') (o : Opcode) (service : ServiceId) (r : ResponseCode) :
    Unmoved t (t'.respond o service r) :=
  h.reply _ _ _

theorem refuse (h : Unmoved t t') (o : Opcode) (service : ServiceId) (e : CommandError) :
    Unmoved t (t'.refuse o service e) :=
  (h.reply _ _ _).respond _ _ _

end Unmoved

section Answers

variable {c : Cycle} {m : Message} {t t' : Turn MinimumNode}

theorem unmoved_introduce : Unmoved t (introduce c t) :=
  Unmoved.reply ⟨rfl, rfl⟩ _ _ _

theorem unmoved_pollHeartbeat {now interval : Time} :
    Unmoved t (pollHeartbeat now interval t) := by
  unfold pollHeartbeat
  split_ifs
  · dsimp only
    split_ifs
    · exact ⟨rfl, rfl⟩
    · refine Unmoved.reply ?_ _ _ _
      exact ⟨rfl, rfl⟩
  · exact ⟨rfl, rfl⟩

theorem unmoved_answerParameter : Unmoved t (answerParameter c m t) := by
  unfold answerParameter sendParameter
  split
  · exact Unmoved.refuse ⟨rfl, rfl⟩ _ _ _
  · split_ifs
    · refine Unmoved.reply ?_ _ _ _
      exact ⟨rfl, rfl⟩
    · exact Unmoved.reply ⟨rfl, rfl⟩ _ _ _
    · exact Unmoved.refuse ⟨rfl, rfl⟩ _ _ _

theorem unmoved_answerServices : Unmoved t (answerServices c m t) := by
  unfold answerServices
  split
  · exact ⟨rfl, rfl⟩
  · split_ifs
    · refine Unmoved.reply ?_ _ _ _
      exact ⟨rfl, rfl⟩
    · split
      · exact Unmoved.reply ⟨rfl, rfl⟩ _ _ _
      · exact Unmoved.respond ⟨rfl, rfl⟩ _ _ _

theorem unmoved_answerDiagnostics : Unmoved t (answerDiagnostics c m t) := by
  unfold answerDiagnostics
  split
  · exact ⟨rfl, rfl⟩
  · split_ifs
    · exact Unmoved.respond ⟨rfl, rfl⟩ _ _ _
    · exact ⟨rfl, rfl⟩

theorem unmoved_report {kind : Listing} {number : Nat} (h : report c kind number t = .ok t') :
    Unmoved t t' := by
  cases kind with
  | parameters =>
    rw [← Except.ok.inj h]
    exact Unmoved.reply ⟨rfl, rfl⟩ _ _ _
  | services =>
    obtain ⟨info, _, rfl⟩ := map_eq_ok_iff.1 h
    exact Unmoved.reply ⟨rfl, rfl⟩ _ _ _

theorem unmoved_pollListing (h : pollListing c t = .ok t') : Unmoved t t' := by
  unfold pollListing at h
  split at h
  · rw [← Except.ok.inj h]
    exact ⟨rfl, rfl⟩
  · dsimp only at h
    split at h
    · rw [← Except.ok.inj h]
      exact ⟨rfl, rfl⟩
    · have hreport := unmoved_report h
      exact ⟨hreport.config, hreport.negotiation⟩

/-- Of all that the service does when its time has come, only the end of a negotiation reaches the
    configuration. -/
theorem config_poll (h : poll c t = .ok t') :
    t'.config = (pollNegotiation c.now c.timing.negotiationLimit t).config := by
  rw [(unmoved_pollListing h).config, unmoved_pollHeartbeat.config]

end Answers

/-! ## Messages and actions -/

theorem edits_handleNamed {c : Cycle} {m : Message} {o : Opcode} {t t' : Turn MinimumNode}
    (h : handleNamed c m o t = .ok t') : Edits parts t.config t'.config := by
  unfold handleNamed at h
  split at h
  · rw [← Except.ok.inj h, unmoved_answerParameter.config]
  · contradiction
  · contradiction
  · split at h
    · rw [← Except.ok.inj h]
    · rw [← Except.ok.inj h]
      exact edits_obeyMode _ _ t
  · rw [← Except.ok.inj h, unmoved_answerServices.config]
  · rw [← Except.ok.inj h, unmoved_answerDiagnostics.config]
  · rw [← Except.ok.inj h]

theorem leaves_handleNamed {c : Cycle} {m : Message} {o : Opcode} {t : Turn MinimumNode}
    {x : Halt} (h : handleNamed c m o t = .error x) : x.Leaves t.config := by
  unfold handleNamed at h
  split at h
  · contradiction
  · rw [← Except.error.inj h]
    exact Or.inl rfl
  · rw [← Except.error.inj h]
    refine Or.inr ?_
    change (resetNode t).config = _
    rw [resetNode, Turn.config_configure, Turn.config_offerMessage]
  · split at h <;> contradiction
  · contradiction
  · contradiction
  · contradiction

theorem edits_handle {c : Cycle} {m : Message} {t t' : Turn MinimumNode}
    (h : handle c m t = .ok t') : Edits parts t.config t'.config := by
  unfold handle at h
  split at h
  · rw [← Except.ok.inj h]
  · rw [← Except.ok.inj h]
    split_ifs <;> simpa [introduce] using .refl
  · rw [← Except.ok.inj h]
    split_ifs <;> simpa using .refl
  · rw [← Except.ok.inj h]
    split_ifs <;> simpa using .refl
  · rw [← Except.ok.inj h]
    exact edits_obeyAssignment m t
  · split_ifs at h
    · exact edits_handleNamed h
    · rw [← Except.ok.inj h]

theorem leaves_handle {c : Cycle} {m : Message} {t : Turn MinimumNode} {x : Halt}
    (h : handle c m t = .error x) : x.Leaves t.config := by
  unfold handle at h
  split at h
  · contradiction
  · contradiction
  · contradiction
  · contradiction
  · contradiction
  · split_ifs at h
    exact leaves_handleNamed h

theorem edits_react {c : Cycle} {t t' : Turn MinimumNode} (h : react c t = .ok t') :
    Edits parts t.config t'.config := by
  unfold react at h
  split at h
  · rw [← Except.ok.inj h]
    exact edits_advanceMode _ t
  · rw [← Except.ok.inj h]
    exact edits_renegotiate _ t
  · exact edits_handle h
  · rw [← Except.ok.inj h]

theorem leaves_react {c : Cycle} {t : Turn MinimumNode} {x : Halt}
    (h : react c t = .error x) : x.Leaves t.config := by
  unfold react at h
  split at h
  · contradiction
  · contradiction
  · exact leaves_handle h
  · contradiction

theorem edits_poll {c : Cycle} {t t' : Turn MinimumNode} (h : poll c t = .ok t') :
    Edits parts t.config t'.config := by
  rw [config_poll h]
  exact edits_pollNegotiation _ _ t

/-- A report that cannot be given is a fault, not a restart. -/
theorem eq_fault_of_report {c : Cycle} {kind : Listing} {number : Nat} {t : Turn MinimumNode}
    {x : Halt} (h : report c kind number t = .error x) : x = .fault := by
  cases kind with
  | parameters => contradiction
  | services => exact eq_fault_of_map_trust h

/-- Once the action has been dealt with, nothing restarts the device. -/
theorem eq_fault_of_poll {c : Cycle} {t : Turn MinimumNode} {x : Halt}
    (h : poll c t = .error x) : x = .fault := by
  unfold poll pollListing at h
  split at h
  · contradiction
  · dsimp only at h
    split at h
    · contradiction
    · exact eq_fault_of_report h

/-- The turn with the first cycle of the node noted. -/
def noteStart (c : Cycle) (t : Turn MinimumNode) : Turn MinimumNode :=
  { t with self.started := some (t.self.started.getD c.now) }

@[simp]
theorem config_noteStart (c : Cycle) (t : Turn MinimumNode) :
    (noteStart c t).config = t.config := rfl

theorem turn_eq (c : Cycle) (t : Turn MinimumNode) :
    turn c t = react c (noteStart c t) >>= poll c := rfl

theorem edits_turn {c : Cycle} {t t' : Turn MinimumNode} (h : turn c t = .ok t') :
    Edits parts t.config t'.config := by
  rw [turn_eq] at h
  obtain ⟨u, hu, h⟩ := bind_eq_ok_iff.1 h
  exact (edits_react hu).trans (edits_poll h)

theorem leaves_turn {c : Cycle} {t : Turn MinimumNode} {x : Halt} (h : turn c t = .error x) :
    x.Leaves t.config := by
  rw [turn_eq] at h
  rcases bind_eq_error_iff.1 h with h | ⟨u, _, h⟩
  · exact leaves_react (t := noteStart c t) h
  · rw [eq_fault_of_poll h]
    trivial

/-- The device restarts on an NNRST or an NNRSM message only. -/
theorem opcode_of_restart {c : Cycle} {t : Turn MinimumNode} {left : Shared} {trace : Trace}
    (h : turn c t = .error (.restart left trace)) :
    ∃ m, c.received? = some m ∧ (m.opcode? = some .nnrst ∨ m.opcode? = some .nnrsm) := by
  rw [turn_eq] at h
  rcases bind_eq_error_iff.1 h with h | ⟨u, _, h⟩
  · unfold react at h
    split at h
    · contradiction
    · contradiction
    · rename_i m hm
      refine ⟨m, by rw [Cycle.received?, hm], ?_⟩
      unfold handle at h
      split at h
      · contradiction
      · contradiction
      · contradiction
      · contradiction
      · contradiction
      · rename_i o _ _ _ _ ho
        split_ifs at h
        unfold handleNamed at h
        split at h
        · contradiction
        · exact Or.inl ho
        · exact Or.inr ho
        · split at h <;> contradiction
        · contradiction
        · contradiction
        · contradiction
    · contradiction
  · exact nomatch eq_fault_of_poll h

end RailNode.MinimumNode
