import RailNode.Proofs.Service.Quiet
import RailNode.Proofs.Service.Refusals.Basic

/-
  What each service makes of a message, one case per command, and that it refuses nothing in the
  rest of its turn. What it keeps it touches only once a command has been found to be in order.
-/
namespace RailNode

open Turn

variable {c : Cycle} {m : Message}

/-! ## The minimum node -/

namespace MinimumNode

variable {t t' : Turn MinimumNode}

theorem refrains_switchMode (mode : Mode) (t : Turn MinimumNode) :
    Refrains t (switchMode mode t) := by
  refine .put_other ?_ rfl
  exact .same rfl

theorem accepts_beginNegotiation (now : Time) (t : Turn MinimumNode) :
    Accepts t (beginNegotiation now t) := by
  refine Accepts.trans ?_ (refrains_switchMode _ _).accepts
  exact .same rfl

theorem refrains_cancelNegotiation (t : Turn MinimumNode) : Refrains t (cancelNegotiation t) := by
  unfold cancelNegotiation
  split
  · exact .refl t
  · dsimp only
    split_ifs
    · refine .reply (.trans ?_ (refrains_switchMode _ _)) _ _ _ (by decide)
      exact .same rfl
    · refine .trans ?_ (refrains_switchMode _ _)
      exact .same rfl

theorem accepts_acceptNumber (number : UInt16) (t : Turn MinimumNode) :
    Accepts t (acceptNumber number t) := by
  refine .put (.reply (.trans ?_ (refrains_switchMode _ _).accepts) _ _ _ (by decide))
    (Action.refuses_of_transmitted?_eq_none rfl)
  exact .same rfl

theorem accepts_obeyAssignment (m : Message) (t : Turn MinimumNode) :
    Accepts t (obeyAssignment m t) := by
  unfold obeyAssignment
  split_ifs
  · split
    · exact .refl t
    · split_ifs
      · exact .refl t
      · exact accepts_acceptNumber _ t
  · exact .refl t

theorem accepts_renegotiate (now : Time) (t : Turn MinimumNode) :
    Accepts t (renegotiate now t) := by
  unfold renegotiate
  split_ifs
  · exact (accepts_beginNegotiation now t).reply _ _ _ (by decide)
  · exact .refl t

theorem accepts_resume (t : Turn MinimumNode) : Accepts t (resume t) := by
  unfold resume
  split_ifs
  · refine .trans ?_ (refrains_switchMode _ _).accepts
    exact .same rfl
  · exact .refl t

theorem refrains_poll (h : poll c t = .ok t') : Refrains t t' := by
  have hnegotiation : ∀ t : Turn MinimumNode,
      Refrains t (pollNegotiation c.now c.timing.negotiationLimit t) := by
    intro t
    unfold pollNegotiation
    split
    · exact .refl t
    · split_ifs
      · exact refrains_cancelNegotiation t
      · exact .refl t
  have hheartbeat : ∀ t : Turn MinimumNode,
      Refrains t (pollHeartbeat c.now c.timing.heartbeatInterval t) := by
    intro t
    unfold pollHeartbeat
    split_ifs
    · dsimp only
      split_ifs
      · exact .same rfl
      · refine .reply ?_ _ _ _ (by decide)
        exact .same rfl
    · exact .same rfl
  refine ((hnegotiation t).trans (hheartbeat _)).trans ?_
  unfold poll pollListing at h
  split at h
  · exact Except.ok.inj h ▸ .refl _
  · dsimp only at h
    split at h
    · exact Except.ok.inj h ▸ .same rfl
    · rename_i s _ _ _
      unfold report at h
      split at h
      · rw [← Except.ok.inj h]
        refine .reply ?_ _ _ _ (by decide)
        exact .same rfl
      · obtain ⟨info, _, rfl⟩ := map_eq_ok_iff.1 h
        refine .reply ?_ _ _ _ (by decide)
        exact .same rfl

theorem heeds_obeyMode {now : Time} {command : UInt8} (hm : m.opcode? = some .mode)
    (hb : m.byte? 3 = some command) :
    Heeds .minimumNode m Unmoved t (obeyMode now command t) := by
  have hcommand : ∀ {k : Option ModeCommand}, ModeCommand.ofByte? command = k →
      (m.byte? 3).bind ModeCommand.ofByte? = k := by
    intro k hk
    rw [hb, Option.bind_some, hk]
  have hobeyed : ∀ {k : ModeCommand} {u : Turn MinimumNode},
      ModeCommand.ofByte? command = some k → Accepts t u → Heeds .minimumNode m Unmoved t u := by
    intro k u hk hu
    exact .free (Message.refuser?_of_command hm (hcommand hk)) hu
  unfold obeyMode
  split
  · exact hobeyed ‹_› (accepts_renegotiate now t)
  · exact hobeyed ‹_› (accepts_resume t)
  · exact hobeyed ‹_› ((Accepts.refl t).configure _)
  · exact hobeyed ‹_› ((Accepts.refl t).configure _)
  · exact .kept (.refl t) ⟨rfl, rfl⟩
  · rename_i hnone
    exact .refused hm (Message.refuser?_of_no_command hm (hcommand hnone)) (.response _ (by decide))

theorem heeds_answerParameter (hm : m.opcode? = some .rqnpn) :
    Heeds .minimumNode m Unmoved t (answerParameter c m t) := by
  have hr : m.refuser? = some .minimumNode := by rw [Message.refuser?, hm]
  unfold answerParameter
  split
  · exact .refused hm hr (.refuse _ _)
  · split_ifs
    · refine .kept (.reply ?_ _ _ _ (by decide)) (.reply ?_ _ _ _)
      · exact .same rfl
      · exact ⟨rfl, rfl⟩
    · exact .kept ((Accepts.refl t).reply _ _ _ (by decide)) (.reply ⟨rfl, rfl⟩ _ _ _)
    · exact .refused hm hr (.refuse _ _)

theorem heeds_answerServices (hm : m.opcode? = some .rqsd) :
    Heeds .minimumNode m Unmoved t (answerServices c m t) := by
  have hr : m.refuser? = some .minimumNode := by rw [Message.refuser?, hm]
  unfold answerServices
  split
  · exact .kept (.refl t) ⟨rfl, rfl⟩
  · split_ifs
    · refine .kept (.reply ?_ _ _ _ (by decide)) (.reply ?_ _ _ _)
      · exact .same rfl
      · exact ⟨rfl, rfl⟩
    · split
      · exact .kept ((Accepts.refl t).reply _ _ _ (by decide)) (.reply ⟨rfl, rfl⟩ _ _ _)
      · exact .refused hm hr (.response _ (by decide))

theorem heeds_answerDiagnostics (hm : m.opcode? = some .rdgn) :
    Heeds .minimumNode m Unmoved t (answerDiagnostics c m t) := by
  have hr : m.refuser? = some .minimumNode := by rw [Message.refuser?, hm]
  unfold answerDiagnostics
  split
  · exact .kept (.refl t) ⟨rfl, rfl⟩
  · split_ifs
    · exact .refused hm hr (.response _ (by decide))
    · exact .kept (.refl t) ⟨rfl, rfl⟩

theorem heeds_handle (h : handle c m t = .ok t') : Heeds .minimumNode m Unmoved t t' := by
  have hsame : Heeds .minimumNode m Unmoved t t := .kept (.refl t) ⟨rfl, rfl⟩
  have hsend : ∀ {x : Message} {o : Opcode}, x.opcode? = some o → o ≠ .cmderr ∧ o ≠ .grsp →
      Heeds .minimumNode m Unmoved t (t.send x) := by
    intro x o hx ho
    refine .kept ((Accepts.refl t).put (Action.refuses_of_opcode? ?_)) (.put ⟨rfl, rfl⟩ _)
    rw [hx, Ne, Ne, Option.some.injEq, Option.some.injEq]
    exact ho
  unfold handle at h
  split at h
  · exact Except.ok.inj h ▸ hsame
  · rw [← Except.ok.inj h]
    split_ifs
    · exact hsame
    · exact .kept ((Accepts.refl t).reply _ _ _ (by decide)) unmoved_introduce
  · rw [← Except.ok.inj h]
    split_ifs
    · exact hsend (Message.opcode?_ofOpcode .params _ _) (by decide)
    · exact hsame
  · rw [← Except.ok.inj h]
    split_ifs
    · exact hsend (Message.opcode?_ofOpcode .name _ _) (by decide)
    · exact hsame
  · rename_i ho
    rw [← Except.ok.inj h]
    exact .free (by rw [Message.refuser?, ho]) (accepts_obeyAssignment m t)
  · rename_i ho
    split_ifs at h
    · unfold handleNamed at h
      split at h
      · exact Except.ok.inj h ▸ heeds_answerParameter ho
      · contradiction
      · contradiction
      · split at h
        · exact Except.ok.inj h ▸ hsame
        · exact Except.ok.inj h ▸ heeds_obeyMode ho ‹_›
      · exact Except.ok.inj h ▸ heeds_answerServices ho
      · exact Except.ok.inj h ▸ heeds_answerDiagnostics ho
      · exact Except.ok.inj h ▸ hsame
    · exact Except.ok.inj h ▸ hsame

end MinimumNode

/-! ## Variable access -/

namespace VariableAccess

variable {t t' : Turn VariableAccess}

theorem refrains_sendVariable {index : Nat} (h : sendVariable index t = .ok t') :
    Refrains t t' := by
  obtain ⟨value, _, rfl⟩ := map_eq_ok_iff.1 h
  exact (Refrains.refl t).reply _ _ _ (by decide)

theorem refrains_pollListing (h : pollListing c t = .ok t') : Refrains t t' := by
  unfold pollListing at h
  split at h
  · exact Except.ok.inj h ▸ .refl t
  · dsimp only at h
    split at h
    · exact Except.ok.inj h ▸ .same rfl
    · refine Refrains.trans ?_ (refrains_sendVariable h)
      exact .same rfl

theorem heeds_answerRead (hm : m.opcode? = some .nvrd) :
    Heeds .nodeVariables m Keeps t (answerRead c m t) := by
  have hr : m.refuser? = some .nodeVariables := by rw [Message.refuser?, hm]
  have hkeeps : Keeps t (answerRead c m t) := config_answerRead c m t
  revert hkeeps
  unfold answerRead sendValue
  split
  · exact fun _ => .refused hm hr (.refuse _ _)
  · split_ifs
    · refine .kept (.reply ?_ _ _ _ (by decide))
      exact .same rfl
    · split
      · exact .kept ((Accepts.refl t).reply _ _ _ (by decide))
      · exact fun _ => .refused hm hr (.refuse _ _)

theorem heeds_obeyWrite {command : Opcode}
    {andThen : Nat → Turn VariableAccess → Except Halt (Turn VariableAccess)}
    (hm : m.opcode? = some command) (hr : m.refuser? = some .nodeVariables)
    (hthen : ∀ {index : Nat} {u u' : Turn VariableAccess}, andThen index u = .ok u' →
      Accepts u u')
    (h : obeyWrite command m andThen t = .ok t') : Heeds .nodeVariables m Keeps t t' := by
  unfold obeyWrite at h
  split at h
  · split at h
    · refine .own hr (by decide) (.trans ?_ (hthen h))
      exact .same rfl
    · exact Except.ok.inj h ▸ .refused hm hr (.refuse _ _)
  · exact Except.ok.inj h ▸ .refused hm hr (.refuse _ _)

theorem heeds_handle (h : handle c m t = .ok t') : Heeds .nodeVariables m Keeps t t' := by
  have hsame : Heeds .nodeVariables m Keeps t t := .kept (.refl t) rfl
  unfold handle at h
  split_ifs at h
  · split at h
    · exact Except.ok.inj h ▸ heeds_answerRead ‹_›
    · rename_i ho
      refine heeds_obeyWrite ho (by rw [Message.refuser?, ho]) (fun h => ?_) h
      exact Except.ok.inj h ▸ (Accepts.refl _).reply _ _ _ (by decide)
    · rename_i ho
      refine heeds_obeyWrite ho (by rw [Message.refuser?, ho]) (fun h => ?_) h
      exact (refrains_sendVariable h).accepts
    · exact Except.ok.inj h ▸ hsame
  · exact Except.ok.inj h ▸ hsame

end VariableAccess

/-! ## Teaching -/

namespace Teaching

variable {t t' : Turn Teaching}

theorem refrains_sendEvent (slot : Nat) (t : Turn Teaching) : Refrains t (sendEvent slot t) := by
  unfold sendEvent
  split
  · exact (Refrains.refl t).reply _ _ _ (by decide)
  · exact .refl t

theorem refrains_sendVariable (slot : Nat) (index value : UInt8) (t : Turn Teaching) :
    Refrains t (sendVariable slot index value t) := by
  unfold sendVariable
  split
  · exact (Refrains.refl t).send (Message.opcode?_addressed .evans _ _ _) (by decide)
  · exact .refl t

theorem refrains_sendSlotVariable (slot : Nat) (index value : UInt8) (t : Turn Teaching) :
    Refrains t (sendSlotVariable slot index value t) :=
  (Refrains.refl t).reply _ _ _ (by decide)

theorem refrains_pollListing (c : Cycle) (t : Turn Teaching) : Refrains t (pollListing c t) := by
  unfold pollListing report
  split
  · exact .refl t
  · dsimp only
    split
    · exact .same rfl
    · split
      · refine Refrains.trans ?_ (refrains_sendEvent _ _)
        exact .same rfl
      · refine Refrains.trans ?_ (refrains_sendVariable _ _ _ _)
        exact .same rfl
      · refine Refrains.trans ?_ (refrains_sendSlotVariable _ _ _ _)
        exact .same rfl

theorem accepts_teachVariable {slot index : Nat} {value : UInt8}
    (h : teachVariable slot index value t = .ok t') : Accepts t t' := by
  obtain ⟨config, _, h⟩ := bind_eq_ok_iff.1 h
  rw [← Except.ok.inj h]
  refine .put (.confirm ?_ _ _) (Action.refuses_of_transmitted?_eq_none rfl)
  exact .same rfl

theorem heeds_learn (hm : m.opcode? = some .evlrn) (h : learn m t = .ok t') :
    Heeds .teaching m Keeps t t' := by
  have hr : m.refuser? = some .teaching := by rw [Message.refuser?, hm]
  have hrefused : ∀ {e : CommandError}, (.ok (t.refuse .evlrn .teaching e) : Except Halt _) =
      .ok t' → Heeds .teaching m Keeps t t' :=
    fun h => Except.ok.inj h ▸ .refused hm hr (.refuse _ _)
  unfold learn at h
  split at h
  · split_ifs at h
    · exact hrefused h
    · split at h
      · exact .own hr (by decide) (accepts_teachVariable h)
      · split at h
        · obtain ⟨u, hu, h⟩ := bind_eq_ok_iff.1 h
          obtain ⟨config, _, hu⟩ := bind_eq_ok_iff.1 hu
          rw [← Except.ok.inj hu] at h
          refine .own hr (by decide) (.trans ?_ (accepts_teachVariable h))
          exact .same rfl
        · exact hrefused h
  · exact hrefused h

theorem heeds_unlearn (hm : m.opcode? = some .evuln) (h : unlearn m t = .ok t') :
    Heeds .teaching m Keeps t t' := by
  have hr : m.refuser? = some .teaching := by rw [Message.refuser?, hm]
  have hrefused : ∀ {e : CommandError}, (.ok (t.refuse .evuln .teaching e) : Except Halt _) =
      .ok t' → Heeds .teaching m Keeps t t' :=
    fun h => Except.ok.inj h ▸ .refused hm hr (.refuse _ _)
  unfold unlearn at h
  split at h
  · split at h
    · obtain ⟨config, _, h⟩ := bind_eq_ok_iff.1 h
      rw [← Except.ok.inj h]
      refine .own hr (by decide)
        (.put (.confirm ?_ _ _) (Action.refuses_of_transmitted?_eq_none rfl))
      exact .same rfl
    · exact hrefused h
  · exact hrefused h

theorem heeds_answerVariable (hm : m.opcode? = some .reqev) :
    Heeds .teaching m Keeps t (answerVariable c m t) := by
  have hr : m.refuser? = some .teaching := by rw [Message.refuser?, hm]
  have hkeeps : Keeps t (answerVariable c m t) := config_answerVariable c m t
  revert hkeeps
  unfold answerVariable
  split
  · split
    · exact fun _ => .refused hm hr (.refuse _ _)
    · split_ifs
      · exact .kept ((refrains_sendVariable _ _ _ t).accepts.trans (.same rfl))
      · split
        · exact .kept (refrains_sendVariable _ _ _ t).accepts
        · exact fun _ => .refused hm hr (.refuse _ _)
  · exact fun _ => .refused hm hr (.refuse _ _)

theorem heeds_answerEvent (hm : m.opcode? = some .nenrd) :
    Heeds .teaching m Keeps t (answerEvent m t) := by
  have hr : m.refuser? = some .teaching := by rw [Message.refuser?, hm]
  have hkeeps : Keeps t (answerEvent m t) := config_answerEvent m t
  revert hkeeps
  unfold answerEvent
  split
  · exact fun _ => .refused hm hr (.refuse _ _)
  · split_ifs
    · exact fun _ => .refused hm hr (.refuse _ _)
    · exact .kept (refrains_sendEvent _ t).accepts

theorem heeds_answerSlotVariable (hm : m.opcode? = some .reval) :
    Heeds .teaching m Keeps t (answerSlotVariable c m t) := by
  have hr : m.refuser? = some .teaching := by rw [Message.refuser?, hm]
  have hkeeps : Keeps t (answerSlotVariable c m t) := config_answerSlotVariable c m t
  revert hkeeps
  unfold answerSlotVariable
  split
  · split_ifs
    · exact fun _ => .refused hm hr (.refuse _ _)
    · exact .kept ((refrains_sendSlotVariable _ _ _ t).accepts.trans (.same rfl))
    · split
      · exact .kept (refrains_sendSlotVariable _ _ _ t).accepts
      · exact fun _ => .refused hm hr (.refuse _ _)
      · exact fun _ => .refused hm hr (.refuse _ _)
  · exact fun _ => .refused hm hr (.refuse _ _)

theorem heeds_obeyMode (hm : m.opcode? = some .mode) :
    Heeds .teaching m Keeps t (obeyMode m t) := by
  unfold obeyMode
  split
  · exact .free (Message.refuser?_of_command hm ‹_›) ((Accepts.refl t).configure _)
  · exact .free (Message.refuser?_of_command hm ‹_›) ((Accepts.refl t).configure _)
  · exact .kept (.refl t) rfl

theorem heeds_clear (hm : m.opcode? = some .nnclr) : Heeds .teaching m Keeps t (clear t) := by
  have hr : m.refuser? = some .teaching := by rw [Message.refuser?, hm]
  unfold clear
  split_ifs
  · exact .own hr (by decide) (((Accepts.refl t).configure _).confirm _ _)
  · exact .refused hm hr (.refuse _ _)

theorem heeds_handle (h : handle c m t = .ok t') : Heeds .teaching m Keeps t t' := by
  have hsame : Heeds .teaching m Keeps t t := .kept (.refl t) rfl
  have hreply : ∀ {o : Opcode} {args : List UInt8} {hargs : args.length ≤ 5},
      o ≠ .cmderr ∧ o ≠ .grsp → Heeds .teaching m Keeps t (t.reply o args hargs) :=
    fun ho => .kept ((Accepts.refl t).reply _ _ _ ho) (config_reply _ _ t _)
  unfold handle at h
  split at h
  · exact Except.ok.inj h ▸ hsame
  · rename_i ho
    have hr : m.refuser? = none := by rw [Message.refuser?, ho]
    rw [← Except.ok.inj h]
    unfold yieldLearning
    split_ifs
    · exact .free hr ((Accepts.refl t).configure _)
    · exact .free hr ((Accepts.refl t).configure _)
    · exact hsame
  · split_ifs at h
    · exact heeds_learn ‹_› h
    · exact Except.ok.inj h ▸ hsame
  · split_ifs at h
    · exact heeds_unlearn ‹_› h
    · exact Except.ok.inj h ▸ hsame
  · rw [← Except.ok.inj h]
    split_ifs
    · exact heeds_answerVariable ‹_›
    · exact hsame
  · rename_i ho
    rw [← Except.ok.inj h]
    split_ifs
    · unfold handleNamed
      split
      · exact .free (by rw [Message.refuser?, ho]) ((Accepts.refl t).configure _)
      · exact heeds_obeyMode ho
      · exact heeds_clear ho
      · exact hreply (by decide)
      · exact hreply (by decide)
      · exact .kept (.same rfl) rfl
      · exact heeds_answerEvent ho
      · exact heeds_answerSlotVariable ho
      · exact hsame
    · exact hsame

end Teaching

/-! ## The services about events and long messages -/

theorem EventAcknowledge.heeds_turn (hm : c.action = some (.received m))
    (t : Turn EventAcknowledge) : Heeds .acknowledge m Keeps t (turn c t) := by
  unfold turn
  rw [Cycle.received?_eq hm]
  dsimp only
  split_ifs with hmode
  · unfold obeyMode
    split
    · exact .free (Message.refuser?_of_command hmode.1 ‹_›) ((Accepts.refl t).configure _)
    · exact .free (Message.refuser?_of_command hmode.1 ‹_›) ((Accepts.refl t).configure _)
    · exact .kept (.refl t) rfl
  · refine .kept ?_ (config_acknowledge m t)
    unfold acknowledge
    split_ifs
    · split
      · exact .refl t
      · refine .reply ?_ _ _ _ (by decide)
        exact .same rfl
    · exact .refl t

theorem EventConsumer.refrains_turn (c : Cycle) (t : Turn EventConsumer) :
    Refrains t (turn c t) := by
  unfold turn
  split_ifs
  · split
    · exact .refl t
    · exact .same rfl
  · exact .refl t

theorem LongMessage.refrains_turn {t : Turn LongMessage} (c : Cycle)
    (ht : ∀ m ∈ t.self.transmission.pending, m.opcode? = some .dtxc) : Refrains t (turn c t) := by
  unfold turn Transmission.poll
  rcases hpending : t.self.transmission.pending with _ | ⟨m, rest⟩
  · exact .same rfl
  · dsimp only
    split_ifs
    · exact .same rfl
    · refine .send ?_ (ht m (hpending ▸ List.mem_cons_self)) (by decide)
      exact .same rfl

/-! ## Reporters -/

namespace Reporter

theorem heeds_handle (c : Cycle) (service : Service) (position : Nat) (m : Message)
    (t : Turn Reporter) : Heeds .minimumNode m Keeps t (handle c service position m t) := by
  have hkeeps : Keeps t (handle c service position m t) := config_handle c service position m t
  revert hkeeps
  unfold handle
  split_ifs with hasked
  · split
    · unfold answer
      split_ifs
      · exact .kept (.refl t)
      · exact .kept (.refl t)
      · exact .kept (.same rfl)
      · exact .kept ((Accepts.refl t).reply _ _ _ (by decide))
      · exact .kept (.refl t)
      · refine fun _ => .refused hasked.1 ?_ (.response _ (by decide))
        rw [Message.refuser?, hasked.1]
    · exact .kept (.refl t)
  · exact .kept (.refl t)

theorem refrains_pollListing (c : Cycle) (service : Service) (position : Nat)
    (t : Turn Reporter) : Refrains t (pollListing c service position t) := by
  unfold pollListing
  split
  · exact .refl t
  · dsimp only
    split
    · exact .same rfl
    · refine .reply ?_ _ _ _ (by decide)
      exact .same rfl

/-- What a reporter refuses is a request for diagnostics. -/
theorem answers_turn (hm : c.action = some (.received m)) (service : Service) (position : Nat)
    {t : Turn Reporter} (ht : t.given = []) :
    Answers .minimumNode m (turn c service position t).given := by
  rw [turn_eq, prepare, Cycle.received?_eq hm, Option.elim_some]
  exact (heeds_handle c service position m t).answers ht
    (refrains_pollListing _ _ _ _).accepts

end Reporter

end RailNode
