import RailNode.Proofs.Service.LongMessage.Visits
import RailNode.Proofs.Recognition
import RailNode.Proofs.Service.Queueing

/-
  The messages that a node makes up. Each has just the bytes that its opcode announces, and unless
  it is of a kind that does not say whose it is, it carries the number of the node
  (`Message.WellFormed`). The three highest bits of an opcode are fixed apart from the arguments of
  its messages, so every place where a service makes up a message is checked (`speaksWell_turn`).
-/
namespace RailNode

/-! ## Messages -/

namespace Message

/-- Whether a message is of a kind that does not carry the number of its node: the answers to a node
    in setup, parts of long messages, answers about an event by its identity, accessory events. -/
def isUnnumbered (m : Message) : Bool :=
  m.opcode?.any ([.params, .name, .dtxc, .evans].contains ·) || m.eventCode?.isSome

/-- What a node with this number may send. -/
structure WellFormed (number : UInt16) (m : Message) : Prop where
  length : m.opcodeByte?.map Opcode.messageLength = some m.length
  isComplete : m.isComplete = true
  nodeNumber : m.isUnnumbered = false → m.nodeNumber? = some number

variable {number node : UInt16} {opcode : UInt8} {o : Opcode} {args : List UInt8}

theorem isComplete_of_length {m : Message}
    (h : m.opcodeByte?.map Opcode.messageLength = some m.length) : m.isComplete = true := by
  obtain ⟨b, hb, hlength⟩ := Option.map_eq_some_iff.1 h
  rw [isComplete, hb, Option.any_some, hlength]
  exact decide_eq_true (Nat.le_refl _)

/-- The number takes two of the bytes that follow an opcode. -/
theorem length_addressed (hargs : args.length ≤ 5)
    (h : Opcode.dataLength opcode = args.length + 2) :
    (addressed opcode node args hargs).opcodeByte?.map Opcode.messageLength =
      some (addressed opcode node args hargs).length := by
  refine congrArg some (?_ : Opcode.messageLength opcode = _)
  simp only [Opcode.messageLength, h, length, addressed, List.length_cons, List.length_append,
    Word.length_bytes]
  omega

theorem wellFormed_addressed (hargs : args.length ≤ 5)
    (h : Opcode.dataLength opcode = args.length + 2) :
    (addressed opcode number args hargs).WellFormed number where
  length := length_addressed hargs h
  isComplete := isComplete_of_length (length_addressed hargs h)
  nodeNumber _ := nodeNumber?_addressed _ _ _ hargs

/-- A message of a kind that carries no number. -/
theorem wellFormed_of_isUnnumbered {m : Message} (h : m.isUnnumbered = true)
    (hlength : m.opcodeByte?.map Opcode.messageLength = some m.length) : m.WellFormed number where
  length := hlength
  isComplete := isComplete_of_length hlength
  nodeNumber hm := absurd (h.symm.trans hm) (by decide)

theorem isUnnumbered_of_opcode? {m : Message} (hm : m.opcode? = some o)
    (ho : [Opcode.params, .name, .dtxc, .evans].contains o = true) : m.isUnnumbered = true := by
  rw [isUnnumbered, hm, Option.any_some, ho, Bool.true_or]

theorem wellFormed_ofOpcode (hargs : args.length ≤ 7) (hlength : args.length = 7)
    (ho : o ∈ [Opcode.params, .name, .dtxc]) : (ofOpcode o args hargs).WellFormed number := by
  have hall : ∀ o ∈ [Opcode.params, .name, .dtxc], Opcode.dataLength o.byte = 7 ∧
      [Opcode.params, .name, .dtxc, .evans].contains o = true := by decide
  obtain ⟨hdata, hkind⟩ := hall o ho
  refine wellFormed_of_isUnnumbered
    (isUnnumbered_of_opcode? (opcode?_ofOpcode o args hargs) hkind) ?_
  exact congrArg some (congrArg Nat.succ (hdata.trans hlength.symm))

end Message

/-! ## Long messages -/

namespace LongMessage

/-- A part of some long message. -/
def IsPart (m : Message) : Prop := ∃ stream payload, m ∈ messages stream payload

theorem exists_of_mem_fragments {stream sequence : UInt8} {payload : List UInt8} {m : Message}
    (h : m ∈ fragments stream sequence payload) :
    ∃ (args : List UInt8) (hargs : args.length = 7), m = .ofOpcode .dtxc args hargs.le := by
  induction sequence, payload using fragments.induct with
  | case1 => contradiction
  | case6 sequence a b c d e rest ih =>
    rcases List.mem_cons.1 h with rfl | h
    · exact ⟨_, rfl, rfl⟩
    · exact ih h
  | _ => exact ⟨_, rfl, List.mem_singleton.1 h⟩

/-- The header and the fragments are seven bytes each, behind one opcode. -/
theorem IsPart.exists_eq {m : Message} (h : IsPart m) :
    ∃ (args : List UInt8) (hargs : args.length = 7), m = .ofOpcode .dtxc args hargs.le := by
  obtain ⟨stream, payload, hm⟩ := h
  rcases List.mem_cons.1 hm with rfl | hm
  · exact ⟨_, rfl, rfl⟩
  · exact exists_of_mem_fragments hm

theorem IsPart.wellFormed {number : UInt16} {m : Message} (h : IsPart m) :
    m.WellFormed number := by
  obtain ⟨args, hargs, rfl⟩ := h.exists_eq
  exact Message.wellFormed_ofOpcode _ hargs (by decide)

end LongMessage

/-! ## Turns -/

/-- The message that is queued, if it is one, is well formed for the number of that moment. -/
def Emission.WellFormed (x : Emission Action) : Prop :=
  ∀ m, x.item = .transmit m → m.WellFormed x.config.nodeNumber

namespace Turn

variable {σ τ : Type} {t : Turn σ}

/-- Every message that the turn has queued so far is well formed. -/
def SpeaksWell (t : Turn σ) : Prop := ∀ x ∈ t.trace.queued, x.WellFormed

namespace SpeaksWell

theorem put (h : t.SpeaksWell) {a : Action} (ha : Emission.WellFormed ⟨a, t.config⟩) :
    (t.put a).SpeaksWell := by
  intro x hx
  rcases List.mem_append.1 hx with hx | hx
  · exact h x hx
  · exact List.mem_singleton.1 hx ▸ ha

/-- An action that is no message can be queued. -/
theorem put_other (h : t.SpeaksWell) (a : Action) (ha : a.transmitted? = none) :
    (t.put a).SpeaksWell := by
  refine h.put fun m hm => ?_
  obtain rfl : a = .transmit m := hm
  contradiction

theorem send (h : t.SpeaksWell) {m : Message} (hm : m.WellFormed t.config.nodeNumber) :
    (t.send m).SpeaksWell :=
  h.put fun _ heq => Action.transmit.inj heq ▸ hm

/-- A reply has the number of the node and so many arguments. -/
theorem reply (h : t.SpeaksWell) (o : Opcode) (n : Nat) {args : List UInt8}
    {hargs : args.length ≤ 5} (hn : args.length = n)
    (ho : Opcode.dataLength o.byte = n + 2) : (t.reply o args hargs).SpeaksWell :=
  h.send (Message.wellFormed_addressed hargs (ho.trans (congrArg (· + 2) hn.symm)))

theorem acknowledgeWrite (h : t.SpeaksWell) : t.acknowledgeWrite.SpeaksWell :=
  h.reply .wrack 0 rfl (by decide)

theorem respond (h : t.SpeaksWell) (o : Opcode) (service : ServiceId) (r : ResponseCode) :
    (t.respond o service r).SpeaksWell :=
  h.reply .grsp 3 rfl (by decide)

theorem refuse (h : t.SpeaksWell) (o : Opcode) (service : ServiceId) (e : CommandError) :
    (t.refuse o service e).SpeaksWell :=
  (h.reply .cmderr 1 rfl (by decide)).respond o service _

theorem confirm (h : t.SpeaksWell) (o : Opcode) (service : ServiceId) :
    (t.confirm o service).SpeaksWell :=
  h.acknowledgeWrite.respond o service _

end SpeaksWell

end Turn

open Turn

/-! ## The minimum node -/

namespace MinimumNode

variable {c : Cycle} {m : Message} {t t' : Turn MinimumNode}

theorem speaksWell_switchMode (h : t.SpeaksWell) (mode : Mode) : (switchMode mode t).SpeaksWell :=
  SpeaksWell.put_other (t := Turn.configure (inMode mode) { t with self.heartbeatDue := none }) h
    (.showMode mode) rfl

theorem speaksWell_beginNegotiation (h : t.SpeaksWell) (now : Time) :
    (beginNegotiation now t).SpeaksWell :=
  speaksWell_switchMode (t := { t with self.negotiation := _ }) h .setup

theorem speaksWell_cancelNegotiation (h : t.SpeaksWell) : (cancelNegotiation t).SpeaksWell := by
  unfold cancelNegotiation
  split
  · exact h
  · dsimp only
    split_ifs
    · refine SpeaksWell.reply (speaksWell_switchMode ?_ _) .nnack 0 rfl (by decide)
      exact h
    · refine speaksWell_switchMode ?_ _
      exact h

theorem speaksWell_acceptNumber (h : t.SpeaksWell) (number : UInt16) :
    (acceptNumber number t).SpeaksWell := by
  refine SpeaksWell.put_other (SpeaksWell.reply ?_ .nnack 0 rfl (by decide)) _ rfl
  refine speaksWell_switchMode ?_ _
  exact h

theorem speaksWell_obeyAssignment (h : t.SpeaksWell) : (obeyAssignment m t).SpeaksWell := by
  unfold obeyAssignment
  split_ifs
  · split
    · exact h
    · split_ifs
      · exact h
      · exact speaksWell_acceptNumber h _
  · exact h

theorem speaksWell_renegotiate (h : t.SpeaksWell) (now : Time) :
    (renegotiate now t).SpeaksWell := by
  unfold renegotiate
  split_ifs
  · exact (speaksWell_beginNegotiation h now).reply .rqnn 0 rfl (by decide)
  · exact h

theorem speaksWell_advanceMode (h : t.SpeaksWell) (now : Time) :
    (advanceMode now t).SpeaksWell := by
  unfold advanceMode
  split
  · exact ((speaksWell_beginNegotiation h now).put_other _ rfl).reply .rqnn 0 rfl (by decide)
  · have hrelease : (t.reply .nnrel []).SpeaksWell := h.reply .nnrel 0 rfl (by decide)
    exact (speaksWell_beginNegotiation hrelease now).reply .rqnn 0 rfl (by decide)
  · exact speaksWell_cancelNegotiation h

theorem speaksWell_obeyMode (h : t.SpeaksWell) (now : Time) (command : UInt8) :
    (obeyMode now command t).SpeaksWell := by
  unfold obeyMode resume
  split
  · exact speaksWell_renegotiate h now
  · split_ifs
    · exact speaksWell_switchMode (t := { t with self.negotiation := none }) h .normal
    · exact h
  · exact h
  · exact h
  · exact h
  · exact h.respond _ _ _

theorem speaksWell_answerParameter (h : t.SpeaksWell) : (answerParameter c m t).SpeaksWell := by
  unfold answerParameter sendParameter
  split
  · exact h.refuse _ _ _
  · split_ifs
    · refine SpeaksWell.reply ?_ .paran 2 rfl (by decide)
      exact h
    · exact h.reply .paran 2 rfl (by decide)
    · exact h.refuse _ _ _

theorem speaksWell_answerServices (h : t.SpeaksWell) : (answerServices c m t).SpeaksWell := by
  unfold answerServices
  split
  · exact h
  · split_ifs
    · refine SpeaksWell.reply ?_ .sd 3 rfl (by decide)
      exact h
    · split
      · exact h.reply .esd 5 rfl (by decide)
      · exact h.respond _ _ _

theorem speaksWell_answerDiagnostics (h : t.SpeaksWell) :
    (answerDiagnostics c m t).SpeaksWell := by
  unfold answerDiagnostics
  split
  · exact h
  · split_ifs
    · exact h.respond _ _ _
    · exact h

theorem speaksWell_handle (h : t.SpeaksWell) (heq : handle c m t = .ok t') : t'.SpeaksWell := by
  unfold handle at heq
  split at heq
  · exact Except.ok.inj heq ▸ h
  · rw [← Except.ok.inj heq]
    split_ifs
    · exact h
    · exact h.reply .pnn 3 rfl (by decide)
  · rw [← Except.ok.inj heq]
    split_ifs
    · exact h.send (Message.wellFormed_ofOpcode _ (by simp) (by decide))
    · exact h
  · rw [← Except.ok.inj heq]
    split_ifs
    · exact h.send (Message.wellFormed_ofOpcode _ (by simp) (by decide))
    · exact h
  · exact Except.ok.inj heq ▸ speaksWell_obeyAssignment h
  · split_ifs at heq
    · unfold handleNamed at heq
      split at heq
      · exact Except.ok.inj heq ▸ speaksWell_answerParameter h
      · contradiction
      · contradiction
      · split at heq
        · exact Except.ok.inj heq ▸ h
        · exact Except.ok.inj heq ▸ speaksWell_obeyMode h _ _
      · exact Except.ok.inj heq ▸ speaksWell_answerServices h
      · exact Except.ok.inj heq ▸ speaksWell_answerDiagnostics h
      · exact Except.ok.inj heq ▸ h
    · exact Except.ok.inj heq ▸ h

theorem speaksWell_pollNegotiation (h : t.SpeaksWell) (now limit : Time) :
    (pollNegotiation now limit t).SpeaksWell := by
  unfold pollNegotiation
  split
  · exact h
  · split_ifs
    · exact speaksWell_cancelNegotiation h
    · exact h

theorem speaksWell_pollHeartbeat (h : t.SpeaksWell) (now interval : Time) :
    (pollHeartbeat now interval t).SpeaksWell := by
  unfold pollHeartbeat
  split_ifs
  · dsimp only
    split_ifs
    · exact h
    · refine SpeaksWell.reply ?_ .heartb 3 rfl (by decide)
      exact h
  · exact h

theorem speaksWell_pollListing (h : t.SpeaksWell) (heq : pollListing c t = .ok t') :
    t'.SpeaksWell := by
  unfold pollListing at heq
  split at heq
  · exact Except.ok.inj heq ▸ h
  · dsimp only at heq
    split at heq
    · exact Except.ok.inj heq ▸ h
    · unfold report at heq
      split at heq
      · rw [← Except.ok.inj heq]
        refine SpeaksWell.reply ?_ .paran 2 rfl (by decide)
        exact h
      · obtain ⟨info, _, rfl⟩ := map_eq_ok_iff.1 heq
        refine SpeaksWell.reply ?_ .sd 3 rfl (by decide)
        exact h

theorem speaksWell_turn (h : t.SpeaksWell) (heq : turn c t = .ok t') : t'.SpeaksWell := by
  obtain ⟨u, hu, hpoll⟩ := turn_eq_ok_iff.1 heq
  obtain ⟨v, hv, rfl⟩ := map_eq_ok_iff.1 hu
  have hreact : v.SpeaksWell := by
    have hstart : (noteStart c t).SpeaksWell := h
    unfold react at hv
    split at hv
    · exact Except.ok.inj hv ▸ speaksWell_advanceMode hstart _
    · exact Except.ok.inj hv ▸ speaksWell_renegotiate hstart _
    · exact speaksWell_handle hstart hv
    · exact Except.ok.inj hv ▸ hstart
  exact speaksWell_pollListing
    (speaksWell_pollHeartbeat (speaksWell_pollNegotiation hreact _ _) _ _) hpoll

end MinimumNode

/-! ## Variable access -/

namespace VariableAccess

variable {c : Cycle} {m : Message} {t t' : Turn VariableAccess}

theorem speaksWell_sendVariable (h : t.SpeaksWell) {index : Nat}
    (heq : sendVariable index t = .ok t') : t'.SpeaksWell := by
  obtain ⟨value, _, rfl⟩ := map_eq_ok_iff.1 heq
  exact h.reply .nvans 2 rfl (by decide)

theorem speaksWell_answerRead (h : t.SpeaksWell) : (answerRead c m t).SpeaksWell := by
  unfold answerRead sendValue
  split
  · exact h.refuse _ _ _
  · split_ifs
    · refine SpeaksWell.reply ?_ .nvans 2 rfl (by decide)
      exact h
    · split
      · exact h.reply .nvans 2 rfl (by decide)
      · exact h.refuse _ _ _

theorem speaksWell_obeyWrite (h : t.SpeaksWell) {command : Opcode}
    {andThen : Nat → Turn VariableAccess → Except Halt (Turn VariableAccess)}
    (hthen : ∀ {index : Nat} {u u' : Turn VariableAccess}, u.SpeaksWell →
      andThen index u = .ok u' → u'.SpeaksWell)
    (heq : obeyWrite command m andThen t = .ok t') : t'.SpeaksWell := by
  unfold obeyWrite at heq
  split at heq
  · split at heq
    · refine hthen ?_ heq
      exact h
    · exact Except.ok.inj heq ▸ h.refuse _ _ _
  · exact Except.ok.inj heq ▸ h.refuse _ _ _

theorem speaksWell_handle (h : t.SpeaksWell) (heq : handle c m t = .ok t') : t'.SpeaksWell := by
  unfold handle at heq
  split_ifs at heq
  · split at heq
    · exact Except.ok.inj heq ▸ speaksWell_answerRead h
    · exact speaksWell_obeyWrite h (fun hu heq => Except.ok.inj heq ▸ hu.acknowledgeWrite) heq
    · exact speaksWell_obeyWrite h (fun hu heq => speaksWell_sendVariable hu heq) heq
    · exact Except.ok.inj heq ▸ h
  · exact Except.ok.inj heq ▸ h

theorem speaksWell_turn (h : t.SpeaksWell) (heq : turn c t = .ok t') : t'.SpeaksWell := by
  obtain ⟨u, hu, hpoll⟩ := turn_eq_ok_iff.1 heq
  have hprepare : u.SpeaksWell := by
    unfold prepare at hu
    rcases hm : c.received? with _ | m
    · rw [hm] at hu
      exact Except.ok.inj hu ▸ h
    · rw [hm] at hu
      exact speaksWell_handle h hu
  unfold pollListing at hpoll
  split at hpoll
  · exact Except.ok.inj hpoll ▸ hprepare
  · dsimp only at hpoll
    split at hpoll
    · exact Except.ok.inj hpoll ▸ hprepare
    · refine speaksWell_sendVariable ?_ hpoll
      exact hprepare

end VariableAccess

/-! ## Teaching -/

namespace Teaching

variable {c : Cycle} {m : Message} {t t' : Turn Teaching}

theorem speaksWell_sendEvent (h : t.SpeaksWell) (slot : Nat) : (sendEvent slot t).SpeaksWell := by
  unfold sendEvent
  split
  · exact h.reply .enrsp 5 rfl (by decide)
  · exact h

theorem speaksWell_sendVariable (h : t.SpeaksWell) (slot : Nat) (index value : UInt8) :
    (sendVariable slot index value t).SpeaksWell := by
  unfold sendVariable
  split
  · refine h.send (Message.wellFormed_of_isUnnumbered ?_ ?_)
    · exact Message.isUnnumbered_of_opcode? (Message.opcode?_addressed .evans _ _ _) rfl
    · exact Message.length_addressed _ (by decide : Opcode.dataLength Opcode.evans.byte = 6)
  · exact h

theorem speaksWell_teachVariable (h : t.SpeaksWell) {slot index : Nat} {value : UInt8}
    (heq : teachVariable slot index value t = .ok t') : t'.SpeaksWell := by
  obtain ⟨d, _, heq⟩ := bind_eq_ok_iff.1 heq
  rw [← Except.ok.inj heq]
  refine SpeaksWell.put_other (SpeaksWell.confirm ?_ _ _) _ rfl
  exact h

theorem speaksWell_learn (h : t.SpeaksWell) (heq : learn m t = .ok t') : t'.SpeaksWell := by
  unfold learn at heq
  split at heq
  · split_ifs at heq
    · exact Except.ok.inj heq ▸ h.refuse _ _ _
    · split at heq
      · exact speaksWell_teachVariable h heq
      · split at heq
        · obtain ⟨u, hu, heq⟩ := bind_eq_ok_iff.1 heq
          obtain ⟨d, _, hu⟩ := bind_eq_ok_iff.1 hu
          refine speaksWell_teachVariable ?_ heq
          exact Except.ok.inj hu ▸ h
        · exact Except.ok.inj heq ▸ h.refuse _ _ _
  · exact Except.ok.inj heq ▸ h.refuse _ _ _

theorem speaksWell_unlearn (h : t.SpeaksWell) (heq : unlearn m t = .ok t') : t'.SpeaksWell := by
  unfold unlearn at heq
  split at heq
  · split at heq
    · obtain ⟨d, _, heq⟩ := bind_eq_ok_iff.1 heq
      rw [← Except.ok.inj heq]
      refine SpeaksWell.put_other (SpeaksWell.confirm ?_ _ _) _ rfl
      exact h
    · exact Except.ok.inj heq ▸ h.refuse _ _ _
  · exact Except.ok.inj heq ▸ h.refuse _ _ _

theorem speaksWell_answerVariable (h : t.SpeaksWell) : (answerVariable c m t).SpeaksWell := by
  unfold answerVariable
  split
  · split
    · exact h.refuse _ _ _
    · split_ifs
      · exact speaksWell_sendVariable h _ _ _
      · split
        · exact speaksWell_sendVariable h _ _ _
        · exact h.refuse _ _ _
  · exact h.refuse _ _ _

theorem speaksWell_answerEvent (h : t.SpeaksWell) : (answerEvent m t).SpeaksWell := by
  unfold answerEvent
  split
  · exact h.refuse _ _ _
  · split_ifs
    · exact h.refuse _ _ _
    · exact speaksWell_sendEvent h _

theorem speaksWell_answerSlotVariable (h : t.SpeaksWell) :
    (answerSlotVariable c m t).SpeaksWell := by
  unfold answerSlotVariable sendSlotVariable
  split
  · split_ifs
    · exact h.refuse _ _ _
    · exact h.reply .neval 3 rfl (by decide)
    · split
      · exact h.reply .neval 3 rfl (by decide)
      · exact h.refuse _ _ _
      · exact h.refuse _ _ _
  · exact h.refuse _ _ _

theorem speaksWell_handleNamed (h : t.SpeaksWell) (o : Opcode) :
    (handleNamed c m o t).SpeaksWell := by
  unfold handleNamed
  split
  · exact h
  · unfold obeyMode
    split <;> exact h
  · unfold clear
    split_ifs
    · exact SpeaksWell.confirm (t := t.configure _) h _ _
    · exact h.refuse _ _ _
  · exact h.reply .evnlf 1 rfl (by decide)
  · exact h.reply .numev 1 rfl (by decide)
  · exact h
  · exact speaksWell_answerEvent h
  · exact speaksWell_answerSlotVariable h
  · exact h

theorem speaksWell_handle (h : t.SpeaksWell) (heq : handle c m t = .ok t') : t'.SpeaksWell := by
  unfold handle at heq
  split at heq
  · exact Except.ok.inj heq ▸ h
  · rw [← Except.ok.inj heq]
    unfold yieldLearning
    split_ifs <;> exact h
  · split_ifs at heq
    · exact speaksWell_learn h heq
    · exact Except.ok.inj heq ▸ h
  · split_ifs at heq
    · exact speaksWell_unlearn h heq
    · exact Except.ok.inj heq ▸ h
  · rw [← Except.ok.inj heq]
    split_ifs
    · exact speaksWell_answerVariable h
    · exact h
  · rw [← Except.ok.inj heq]
    split_ifs
    · exact speaksWell_handleNamed h _
    · exact h

theorem speaksWell_report (h : t.SpeaksWell) (kind : EventListing) (number : Nat) :
    (report kind number t).SpeaksWell := by
  cases kind with
  | events => exact speaksWell_sendEvent h _
  | eventVariables slot => exact speaksWell_sendVariable h _ _ _
  | slotVariables slot => exact h.reply .neval 3 rfl (by decide)

theorem speaksWell_turn (h : t.SpeaksWell) (heq : turn c t = .ok t') : t'.SpeaksWell := by
  obtain ⟨u, hu, rfl⟩ := turn_eq_ok_iff.1 heq
  have hprepare : u.SpeaksWell := by
    unfold prepare at hu
    rcases hm : c.received? with _ | m
    · rw [hm] at hu
      exact Except.ok.inj hu ▸ h
    · rw [hm] at hu
      exact speaksWell_handle h hu
  unfold pollListing
  split
  · exact hprepare
  · dsimp only
    split
    · exact hprepare
    · refine speaksWell_report ?_ _ _
      exact hprepare

end Teaching

/-! ## The services about events and long messages -/

theorem EventConsumer.speaksWell_turn {c : Cycle} {t : Turn EventConsumer} (h : t.SpeaksWell) :
    (turn c t).SpeaksWell := by
  unfold turn
  split_ifs
  · split <;> exact h
  · exact h

theorem EventAcknowledge.speaksWell_turn {c : Cycle} {t : Turn EventAcknowledge}
    (h : t.SpeaksWell) : (turn c t).SpeaksWell := by
  unfold turn
  split
  · exact h
  · split_ifs
    · unfold obeyMode
      split <;> exact h
    · unfold acknowledge
      split_ifs
      · split
        · exact h
        · refine SpeaksWell.reply ?_ .enrsp 5 rfl (by decide)
          exact h
      · exact h

theorem LongMessage.speaksWell_turn {c : Cycle} {t : Turn LongMessage} (h : t.SpeaksWell)
    (hparts : ∀ m ∈ t.self.transmission.pending, IsPart m) : (turn c t).SpeaksWell := by
  unfold turn
  rcases hpoll : t.self.transmission.poll c.now with ⟨_ | m, transmission⟩
  · exact h
  · refine SpeaksWell.send ?_ (hparts m ?_).wellFormed
    · exact h
    · rw [← t.self.transmission.poll_pending c.now, hpoll]
      exact List.mem_append_left _ (Option.mem_toList.2 rfl)

/-- The opcode of an accessory event counts the four bytes of the event and the data. -/
theorem EventProducer.wellFormed_message {d : Configuration} {slot : Nat} {on : Bool}
    {data : List UInt8} {m : Message} {number : UInt16} (h : message d slot on data = .ok m) :
    m.WellFormed number := by
  unfold message at h
  split_ifs at h
  split at h
  · contradiction
  · rename_i hdata _ _ e _
    rw [← Except.ok.inj h]
    refine Message.wellFormed_of_isUnnumbered ?_ (Message.length_addressed _ ?_)
    · rw [Message.isUnnumbered, Message.eventCode?_addressed, Option.isSome_some, Bool.or_true]
    · rw [EventCode.dataLength_byte, List.length_append, Word.length_bytes]
      show 4 + data.length = 2 + data.length + 2
      omega

/-! ## Bus access -/

namespace BusAccess

variable {c : Cycle} {m : Message} {t : Turn BusAccess}

theorem speaksWell_handle (h : t.SpeaksWell) : (handle m t).SpeaksWell := by
  unfold handle
  split
  · split_ifs
    · exact h.put_other _ rfl
    · exact h
  · split_ifs
    · unfold obeyAssignment
      split
      · refine SpeaksWell.confirm ?_ _ _
        exact h
      · exact (h.reply .cmderr 1 rfl (by decide)).respond _ _ _
    · exact h
  · exact h

theorem speaksWell_startSearch (h : t.SpeaksWell) (now : Time) (forPeer : Bool) :
    (startSearch now forPeer t).SpeaksWell := by
  unfold startSearch
  split <;> exact h

theorem speaksWell_react (h : t.SpeaksWell) : (react c t).SpeaksWell := by
  unfold react
  split
  · exact h
  · exact speaksWell_startSearch h _ _
  · exact speaksWell_handle h
  · exact h

theorem speaksWell_receive (h : t.SpeaksWell) : (receive t).SpeaksWell := by
  unfold receive handleFrame
  split
  · exact h
  · split
    · exact h
    · split_ifs
      · unfold handleEmpty
        dsimp only
        split_ifs <;> exact h
      · exact h
      · refine SpeaksWell.put_other ?_ _ rfl
        exact h

theorem speaksWell_turn (h : t.SpeaksWell) : (turn c t).SpeaksWell := by
  have hstart : (startRequired c.now (react c t)).SpeaksWell := by
    unfold startRequired
    split_ifs
    · refine speaksWell_startSearch ?_ _ _
      exact speaksWell_react h
    · exact speaksWell_react h
  unfold turn finishSearch
  split
  · exact speaksWell_receive hstart
  · dsimp only
    split_ifs
    · refine SpeaksWell.reply ?_ .nnack 0 rfl (by decide)
      exact speaksWell_receive hstart
    · exact speaksWell_receive hstart

end BusAccess

/-! ## Reporters -/

namespace Reporter

variable {c : Cycle} {service : Service} {position : Nat} {t : Turn Reporter}

theorem speaksWell_answer (h : t.SpeaksWell) (index code : Nat) :
    (answer c service position index code t).SpeaksWell := by
  unfold answer
  split_ifs
  · exact h
  · exact h
  · exact h
  · exact h.reply .dgn 4 rfl (by decide)
  · exact h
  · exact h.respond _ _ _

theorem speaksWell_turn (h : t.SpeaksWell) : (turn c service position t).SpeaksWell := by
  rw [turn_eq]
  have hprepare : (prepare c service position t).SpeaksWell := by
    unfold prepare
    rcases c.received? with _ | m
    · exact h
    · show (handle c service position m t).SpeaksWell
      unfold handle
      split_ifs
      · split
        · exact speaksWell_answer h _ _
        · exact h
      · exact h
  unfold pollListing
  split
  · exact hprepare
  · dsimp only
    split
    · exact hprepare
    · refine SpeaksWell.reply ?_ .dgn 4 rfl (by decide)
      exact hprepare

end Reporter

/-! ## All services -/

/-- What a long message service still has to send is as `P` says. -/
def Service.Pends (P : Message → Prop) : Service → Prop
  | longMessage s => ∀ m ∈ s.transmission.pending, P m
  | _ => True

theorem Service.speaksWell_turn {c : Cycle} {t t' : Turn Service}
    (hs : t.self.Pends LongMessage.IsPart) (h : t.SpeaksWell) (heq : turn c t = .ok t') :
    t'.SpeaksWell := by
  unfold turn at heq
  split at heq
  · obtain ⟨u, hu, rfl⟩ := map_eq_ok_iff.1 heq
    exact MinimumNode.speaksWell_turn (t := t.withSelf _) h hu
  · exact Except.ok.inj heq ▸ BusAccess.speaksWell_turn (t := t.withSelf _) h
  · obtain ⟨u, hu, rfl⟩ := map_eq_ok_iff.1 heq
    exact VariableAccess.speaksWell_turn (t := t.withSelf _) h hu
  · obtain ⟨u, hu, rfl⟩ := map_eq_ok_iff.1 heq
    exact Teaching.speaksWell_turn (t := t.withSelf _) h hu
  · exact Except.ok.inj heq ▸ EventConsumer.speaksWell_turn (t := t.withSelf _) h
  · exact Except.ok.inj heq ▸ h
  · exact Except.ok.inj heq ▸ EventAcknowledge.speaksWell_turn (t := t.withSelf _) h
  · rename_i s hself
    rw [hself] at hs
    exact Except.ok.inj heq ▸ LongMessage.speaksWell_turn (t := t.withSelf s) h hs

end RailNode
