import RailNode.Proofs.Device.EventIndex
import RailNode.Proofs.Device.LearnedEvents
import RailNode.Proofs.Service.Lessons
import RailNode.Proofs.Service.Queueing

/-
  Lessons over runs of a device. Whatever store it starts with, a node that confirms an EVLRN
  message knows afterwards what it was taught, and says so when it is asked in the next cycle,
  exactly if no message has taught it the erased event (`learnsTruly_iff`).
-/
namespace RailNode

open RailNode.Configuration

namespace Configuration

variable {c d : Configuration} {e : EventId} {index : Nat} {value : UInt8}

theorem SameRecords.record? (h : SameRecords c d) {slot : Nat} (hs : slot < c.layout.slots) :
    d.record? slot = c.record? slot :=
  record?_congr h.1 (recordHeader_congr (h.2 slot hs)) hs

theorem SameRecords.eventVariable (h : SameRecords c d) {slot : Nat}
    (hvalue : c.eventVariable slot index = .ok value) :
    d.eventVariable slot index = .ok value := by
  obtain ⟨hs, h1, h2⟩ := eventVariable_eq_ok hvalue
  rw [c.eventVariable_eq hs h1 h2] at hvalue
  rw [d.eventVariable_eq (h.1 ▸ hs) h1 (h.1 ▸ h2), ← hvalue,
    h.2 slot hs _ (Layout.eventVariable_offset_lt h1 h2)]

/-- What a configuration knows depends on the records only. -/
theorem Knows.congr (h : c.Knows e index value) (hc : c.IndexAgrees) (hd : d.IndexAgrees)
    (hsame : SameRecords c d) : d.Knows e index value := by
  obtain ⟨slot, hfind, -, hvalue⟩ := h
  have hfound := (hc.find_congr hd hsame.1 fun _ hs => hsame.record? hs).2 hfind
  exact ⟨slot, hfound, hd.isFree_of_find hfound, hsame.eventVariable hvalue⟩

theorem SameRecords.symm (h : SameRecords c d) : SameRecords d c :=
  ⟨h.1.symm, fun slot hs i hi => (h.2 slot (h.1 ▸ hs) i (h.1 ▸ hi)).symm⟩

theorem SameRecords.knows_iff (h : SameRecords c d) (hc : c.IndexAgrees) (hd : d.IndexAgrees) :
    d.Knows e index value ↔ c.Knows e index value :=
  ⟨fun hknows => hknows.congr hd hc h.symm, fun hknows => hknows.congr hc hd h⟩

end Configuration

/-! ## Cycles -/

namespace Node

variable {n n' : Node} {now : Time} {o : Outcome} {m : Message} {e : EventId}
  {index value : UInt8}

/-- In this cycle the node takes an EVLRN message, and the service for events confirms it. -/
structure Confirms (n : Node) (now : Time) (o : Outcome) (m : Message) : Prop where
  cycle : n.cycle now = .ok o
  taken : n.nextAction.1 = some (.received m)
  opcode : m.opcode? = some .evlrn
  confirmed : Teaching.Confirms .evlrn (n.givenBy .teaching o)

/-- Asked for the variable in its next cycle, the service answers with this value, if it is in learn
    mode when it comes to its turn. -/
def AnswersNext (n : Node) (e : EventId) (index value : UInt8) : Prop :=
  ∀ n' now o m found, n.SameCore n' → n'.nextAction.1 = some (.received m) →
    m.opcode? = some .reqev → m.event? = some e → m.byte? 5 = some index →
    n'.foundBy .teaching now = .ok found → found.config.learning = true →
    n'.cycle now = .ok o →
    ∃ reports, n'.givenBy .teaching o = .transmit (.addressed Opcode.evans.byte e.node
      (Word.bytes e.number ++ [index, value])) :: reports

/-- After a confirmed lesson the node knows what it was taught, unless it was the erased event. -/
theorem Confirms.knows_iff (h : n.Confirms now o m) (hone : n.HasOne .teaching)
    (hc : n.config.IndexAgrees) :
    ∃ e index value, m.Teaches e index value ∧
      (o.node.config.Knows e index.toNat value ↔ e ≠ .erased) := by
  obtain ⟨found, s, t, -, hbefore, hturn, hgiven, hafter⟩ := Teaching.visit hone h.cycle
  have hconfirmed := h.confirmed
  rw [hgiven] at hconfirmed
  have hfound := hbefore.indexAgrees hc
  obtain ⟨e, index, value, hteaches, hiff⟩ := Teaching.knows_iff_of_confirms
    (t := { self := s, shared := found }) hfound rfl h.opcode (Teaching.received?_facts.2 h.taken)
    hturn hconfirmed
  have hleft : t.config.IndexAgrees := (Teaching.edits_turn hturn).indexAgrees hfound
  refine ⟨e, index, value, hteaches, ?_⟩
  rw [← hiff]
  exact (Teaching.sameRecords_of_others hafter).knows_iff hleft (hafter.indexAgrees hleft)

theorem answersNext (hone : n.HasOne .teaching) (hc : n.config.IndexAgrees)
    (h : n.config.Knows e index.toNat value) : n.AnswersNext e index value := by
  intro n' now o m found hcore htaken ho he hindex hfound hlearning hcycle
  obtain ⟨found', s, t, hfound', hbefore, hturn, hgiven, -⟩ :=
    Teaching.visit (hcore.hasOne hone) hcycle
  obtain rfl := Except.ok.inj (hfound.symm.trans hfound')
  rw [hcore.config] at hbefore
  have hindexAgrees := hbefore.indexAgrees hc
  have hknows := h.congr hc hindexAgrees (Teaching.sameRecords_of_others hbefore)
  obtain ⟨reports, ht⟩ := Teaching.given_of_knows (t := { self := s, shared := found })
    hindexAgrees hlearning hknows ho he hindex (Teaching.received?_facts.2 htaken) hturn
  exact ⟨reports, hgiven.trans ht⟩

end Node

/-! ## Runs -/

namespace Device

variable {d : Device} {inputs : List Input}

/-- After every lesson of the run that is confirmed, the node knows what it was taught, and says so
    when it is asked in the next cycle. -/
def LearnsTruly (d : Device) (inputs : List Input) : Prop :=
  ∀ before now n o m, before ++ [.cycle now] <+: inputs → d.run before = some (running n) →
    n.Confirms now o m → ∃ e index value, m.Teaches e index value ∧
      o.node.config.Knows e index.toNat value ∧ o.node.AnswersNext e index value

/-- A lesson of the run is about the erased event, and is confirmed. -/
def TeachesErased (d : Device) (inputs : List Input) : Prop :=
  ∃ before now n o m, before ++ [.cycle now] <+: inputs ∧ d.run before = some (running n) ∧
    n.Confirms now o m ∧ m.event? = some .erased

/-- In every run, from any store, what a node confirms to have learned it has learned, exactly if no
    confirmed lesson is about the erased event. -/
theorem learnsTruly_iff {store : Store} {link : Link}
    (hi : ∀ i ∈ inputs, i.Starts (Build.HasOne .teaching)) :
    (idle store link).LearnsTruly inputs ↔ ¬ (idle store link).TeachesErased inputs := by
  have hrunning : ∀ before now n, before ++ [.cycle now] <+: inputs →
      (idle store link).run before = some (running n) →
      n.HasOne .teaching ∧ n.config.IndexAgrees := by
    intro before now n hprefix hrun
    have hb : before <+: inputs := (List.prefix_append _ _).trans hprefix
    exact ⟨(hasOne_of_run hrun (fun i h => hi i (hb.subset h)) (fun _ hn => nomatch hn) n rfl).1,
      indexAgrees_of_run hrun⟩
  constructor
  · rintro htruly ⟨before, now, n, o, m, hprefix, hrun, hconfirms, herased⟩
    obtain ⟨-, hc⟩ := hrunning before now n hprefix hrun
    obtain ⟨e, index, value, hteaches, hknows, -⟩ :=
      htruly before now n o m hprefix hrun hconfirms
    obtain rfl := Option.some.inj (hteaches.event.symm.trans herased)
    exact ((Node.edits_cycle hconfirms.cycle).indexAgrees hc).not_knows_erased hknows
  · intro hnone before now n o m hprefix hrun hconfirms
    obtain ⟨hone, hc⟩ := hrunning before now n hprefix hrun
    obtain ⟨e, index, value, hteaches, hiff⟩ := hconfirms.knows_iff hone hc
    have hknows := hiff.2 fun herased =>
      hnone ⟨before, now, n, o, m, hprefix, hrun, hconfirms, herased ▸ hteaches.event⟩
    exact ⟨e, index, value, hteaches, hknows, Node.answersNext (hone.cycle hconfirms.cycle)
      ((Node.edits_cycle hconfirms.cycle).indexAgrees hc) hknows⟩

/-- A session in which a device is taught the erased event. -/
def erasedSession : List Input := eventSession (lesson [.erased]) 2

/-- The message that teaches it. -/
def erasedLesson : Message := .addressed Opcode.evlrn.byte 0xffff [0xff, 0xff, 1, 7]

/-- In the last cycle the lesson is confirmed, and still the event is not found. -/
theorem exists_confirms_erasedSession : ∃ before now n o m,
    before ++ [.cycle now] <+: erasedSession ∧ eventDevice.run before = some (running n) ∧
    n.Confirms now o m ∧ m.event? = some .erased ∧
    o.node.config.find .erased = .error .notFound := by
  have hrun : ((eventDevice.run erasedSession.dropLast).bind node?).any (fun n =>
      n.nextAction.1 == some (.received erasedLesson) && (n.cycle 0).toOption.any fun o =>
        (n.givenBy .teaching o).contains (.transmit (.addressed Opcode.wrack.byte 0 [])) &&
          (n.givenBy .teaching o).contains (.transmit (.addressed Opcode.grsp.byte 0
            [Opcode.evlrn.byte, ServiceId.teaching.byte, ResponseCode.ok.byte])) &&
          (o.node.config.find .erased).toOption.isNone) = true := by
    decide +kernel
  obtain ⟨n, hn, h⟩ := exists_running hrun
  obtain ⟨htaken, h⟩ := Bool.and_eq_true_iff.1 h
  obtain ⟨o, ho, h⟩ := Option.any_eq_true _ _ |>.1 h
  obtain ⟨hgiven, hfind⟩ := Bool.and_eq_true_iff.1 h
  obtain ⟨hwrack, hgrsp⟩ := Bool.and_eq_true_iff.1 hgiven
  refine ⟨erasedSession.dropLast, 0, n, o, erasedLesson, List.prefix_refl _, hn,
    ⟨toOption_eq_some_iff.1 ho, beq_iff_eq.1 htaken, by decide, 0,
      List.contains_iff_mem.1 hwrack, List.contains_iff_mem.1 hgrsp⟩,
    by decide, ?_⟩
  rcases hfound : o.node.config.find .erased with x | slot
  · rw [eq_notFound_of_find hfound]
  · rw [hfound] at hfind
    exact absurd (show false = true from hfind) Bool.false_ne_true

theorem not_learnsTruly_erasedSession : ¬ eventDevice.LearnsTruly erasedSession := by
  intro htruly
  obtain ⟨before, now, n, o, m, hprefix, hrun, hconfirms, herased, hfind⟩ :=
    exists_confirms_erasedSession
  obtain ⟨e, index, value, hteaches, ⟨slot, hknows, -⟩, -⟩ :=
    htruly before now n o m hprefix hrun hconfirms
  obtain rfl := Option.some.inj (hteaches.event.symm.trans herased)
  rw [hfind] at hknows
  contradiction

/-- A session in which a device is taught two events. -/
def lessonSession : List Input := eventSession (lesson [⟨1, 1⟩, ⟨1, 2⟩]) 3

/-- Neither is the erased one, so the device has learned both. -/
theorem learnsTruly_lessonSession : eventDevice.LearnsTruly lessonSession ∧
    ∃ n, eventDevice.run lessonSession = some (running n) ∧
      n.config.Knows ⟨1, 1⟩ 1 7 ∧ n.config.Knows ⟨1, 2⟩ 1 7 := by
  have hstarts : ∀ i ∈ lessonSession, i.Starts (Build.HasOne .teaching) :=
    starts_eventSession (hasOne_eventBuild (by decide)) _ _
  have hiff : eventDevice.LearnsTruly lessonSession ↔ ¬ eventDevice.TeachesErased lessonSession :=
    learnsTruly_iff hstarts
  refine ⟨hiff.2 ?_, ?_⟩
  · rintro ⟨before, now, n, o, m, hprefix, hrun, hconfirms, herased⟩
    have hnone : ∀ k ≤ lessonSession.length,
        ((eventDevice.run (lessonSession.take k)).bind node?).all fun n =>
          (n.nextAction.1.bind Action.received?).all fun m => m.event? != some .erased := by
      decide +kernel
    have hb : before <+: lessonSession := (List.prefix_append _ _).trans hprefix
    have hall := hnone before.length hb.length_le
    rw [← List.prefix_iff_eq_take.1 hb, hrun] at hall
    change (n.nextAction.1.bind Action.received?).all _ = true at hall
    rw [hconfirms.taken] at hall
    exact bne_iff_ne.1 hall herased
  · have hrun : ((eventDevice.run lessonSession).bind node?).any (fun n =>
        decide (n.config.Knows ⟨1, 1⟩ 1 7 ∧ n.config.Knows ⟨1, 2⟩ 1 7)) = true := by
      decide +kernel
    obtain ⟨n, hn, h⟩ := exists_running hrun
    exact ⟨n, hn, of_decide_eq_true h⟩

end Device

end RailNode
