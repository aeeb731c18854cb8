import RailNode.Proofs.Device.LearnedEvents
import RailNode.Proofs.Node.Learners
import RailNode.Proofs.Service.LearnScope

/-
  Learn mode over runs of a device. The service for events turns it on in every mode, so a node can
  learn while it has no number yet or negotiates one. That happens exactly if a cycle takes a
  message that asks the node to learn, and the mode in which the message finds the node is another
  than normal and is still there when the cycle ends (`LearnsAstray`, `learnsInNormal_iff`).
-/
namespace RailNode

open RailNode.Configuration

namespace Node

variable {n : Node} {now : Time} {o : Outcome} {m : Message}

/-! ## Turns -/

section Turns

variable {c : Cycle} {position : Nat} {shared : Shared} {es : List Entry}
  {r : List (Entry × EntryTrace) × Shared}

/-- Services other than that for events turn learn mode off with normal mode. -/
theorem maySwitch_turns (hes : ∀ e ∈ es, e.service.id ≠ .teaching)
    (h : turns c position shared es = .ok r) : shared.config.MaySwitch r.2.config := by
  induction es generalizing position shared r with
  | nil =>
    rw [← Except.ok.inj h]
    exact .refl _
  | cons e es ih =>
    obtain ⟨e', trace, between, rest, last, he, hrest, rfl⟩ := turns_cons_eq_ok h
    rw [List.forall_mem_cons] at hes
    obtain ⟨t, ht, _, _, hconfig⟩ := entryTurn_eq_ok he
    have hfirst : shared.config.MaySwitch between.config := by
      rw [hconfig]
      exact Service.maySwitch_turn (t := { self := e.service, shared }) hes.1 ht
    have hlater := ih hes.2 hrest
    exact hfirst.trans hlater

/-- Mode and learn mode have stayed, or the node has left setup. -/
def MayLeaveSetup (c d : Configuration) : Prop :=
  d.mode = c.mode ∧ d.learning = c.learning ∨ c.mode = .setup ∧ d.mode ≠ .setup

theorem MayLeaveSetup.trans {c d e : Configuration} (h : MayLeaveSetup c d)
    (h' : MayLeaveSetup d e) : MayLeaveSetup c e := by
  rcases h with ⟨hmode, hlearning⟩ | ⟨hsetup, hleft⟩
  · rw [MayLeaveSetup, hmode, hlearning] at h'
    exact h'
  · rcases h' with ⟨hmode', _⟩ | ⟨hsetup', _⟩
    · exact Or.inr ⟨hsetup, hmode' ▸ hleft⟩
    · exact absurd hsetup' hleft

/-- The turn of a service other than that for events, when a message asks a node to learn. -/
theorem mayLeaveSetup_entryTurn {e e' : Entry} {trace : EntryTrace} {left : Shared}
    {number : UInt16} (hm : m.StartsLearning number) (hreceived : c.received? = some m)
    (hid : e.service.id ≠ .teaching)
    (hstanding : ∀ s, e.service = .minimumNode s → (Standing.of s shared.config).Consistent)
    (h : entryTurn c position e shared = .ok ((e', trace), left)) :
    MayLeaveSetup shared.config left.config := by
  obtain ⟨t, ht, _, _, hconfig⟩ := entryTurn_eq_ok h
  by_cases hminimum : e.service.id = .minimumNode
  · obtain ⟨s, hs⟩ := MinimumNode.exists_minimumNode hminimum
    unfold Service.turn at ht
    rw [hs] at ht
    obtain ⟨u, hu, rfl⟩ := map_eq_ok_iff.1 ht
    rw [hconfig]
    rcases MinimumNode.turn_of_startsLearning (t := { self := s, shared }) hm hreceived
      (hstanding s hs) hu with hsame | hleaves
    · refine Or.inl ?_
      rw [Turn.config_map, hsame]
      exact ⟨rfl, rfl⟩
    · exact Or.inr hleaves
  · have hch := (edits_entryTurn h).changesOnly
    have hparts := Service.learning_notMem_parts hid hminimum
    have hmode : .mode ∉ e.service.parts := fun hmem =>
      absurd (MinimumNode.parts_subset_otherParts hminimum hmem) (by decide)
    exact Or.inl ⟨hch.mode hmode, hch.learning hparts⟩

/-- While a message that asks a node to learn is processed, services other than that for events may
    end a negotiation, and leave mode and learn mode otherwise. -/
theorem mayLeaveSetup_turns {number : UInt16} (hm : m.StartsLearning number)
    (hreceived : c.received? = some m) (hone : (es.map (·.service.id)).count .minimumNode ≤ 1)
    (hes : ∀ e ∈ es, e.service.id ≠ .teaching)
    (hstanding : ∀ e ∈ es, ∀ s, e.service = .minimumNode s →
      (Standing.of s shared.config).Consistent)
    (h : turns c position shared es = .ok r) : MayLeaveSetup shared.config r.2.config := by
  induction es generalizing position shared r with
  | nil =>
    rw [← Except.ok.inj h]
    exact Or.inl ⟨rfl, rfl⟩
  | cons e es ih =>
    obtain ⟨e', trace, between, rest, last, he, hrest, rfl⟩ := turns_cons_eq_ok h
    rw [List.forall_mem_cons] at hes hstanding
    rw [List.map_cons, List.count_cons] at hone
    have hfirst := mayLeaveSetup_entryTurn hm hreceived hes.1 hstanding.1 he
    have hbetween : ∀ x ∈ es, ∀ s, x.service = .minimumNode s →
        (Standing.of s between.config).Consistent := by
      intro x hx s hs
      -- The service for the number is behind this one, so it stands as before.
      have hid : e.service.id ≠ .minimumNode := by
        intro heq
        have hpos : 0 < (es.map (·.service.id)).count .minimumNode :=
          List.count_pos_iff.2 (List.mem_map.2 ⟨x, hx, by rw [hs]; rfl⟩)
        rw [heq, if_pos (beq_self_eq_true _)] at hone
        omega
      have hedits := (edits_entryTurn he).mono (MinimumNode.parts_subset_otherParts hid)
      rw [MinimumNode.of_eq_of_others s hedits]
      exact hstanding.2 x hx s hs
    have hlater := ih (Nat.le_of_add_right_le hone) hes.2 hbetween hrest
    exact hfirst.trans hlater

end Turns

/-! ## Cycles -/

theorem Consistent.recalls (hn : n.Consistent) : n.Recalls where
  atMostOne := Nat.le_of_eq hn.hasOne
  standing s hs _ hg := ((hn.standing s hs).of_negotiation hg).2.2

/-- A message that asks a node to learn assigns no number. -/
theorem not_assigns_of_startsLearning {number k : UInt16} (hm : m.StartsLearning number)
    (ha : n.nextAction.1 = some (.received m)) : ¬ Standing.Assigns k n.nextAction.1 := by
  rintro ⟨m', ha', ho, _⟩
  rw [ha] at ha'
  obtain rfl : m = m' := Action.received.inj (Option.some.inj ha')
  rcases hm.2 with ho' | ⟨ho', _⟩
  · rw [ho] at ho'
    exact absurd ho' (by decide)
  · rw [ho] at ho'
    exact absurd ho' (by decide)

/-- The service for events finds the number with which the cycle has begun. -/
theorem Passage.nodeNumber_of_startsLearning {number : UInt16} (p : Passage .teaching now n)
    (hn : n.Consistent) (h : n.cycle now = .ok p.outcome) (hm : m.StartsLearning number)
    (ha : n.nextAction.1 = some (.received m)) :
    p.found.config.nodeNumber = n.config.nodeNumber := by
  rcases p.nodeNumber_found (by decide) hn.recalls.atMostOne with hbegin | hend
  · exact hbegin
  · rw [hend]
    exact hn.recalls.nodeNumber_cycle h fun _ _ _ => not_assigns_of_startsLearning hm ha

/-- The cycle takes a message that asks the node to learn. The message finds the node in another
    mode than normal, and the cycle ends in that mode. -/
def LearnsAstray (n : Node) (now : Time) (o : Outcome) : Prop :=
  ∃ m found, n.nextAction.1 = some (.received m) ∧ m.StartsLearning n.config.nodeNumber ∧
    n.foundBy .teaching now = .ok found ∧ found.config.mode ≠ .normal ∧
    o.node.config.mode = found.config.mode

theorem mode_of_teaching (p : Passage .teaching now n) :
    p.left.config.mode = p.found.config.mode :=
  p.changesOnly_teaching.mode (by decide)

/-- A cycle that learns astray leaves the node in learn mode outside normal mode. -/
theorem LearnsAstray.not_learnsInNormal (hone : n.HasOne .teaching) (hn : n.Consistent)
    (h : n.cycle now = .ok o) (hastray : n.LearnsAstray now o) :
    ¬ o.node.config.LearnsInNormal := by
  obtain ⟨m, found, ha, hstarts, hfound, hmode, hend⟩ := hastray
  obtain ⟨p, rfl⟩ := hone.exists_passage h
  obtain rfl : p.found = found := Except.ok.inj (p.foundBy_eq.symm.trans hfound)
  have hreceived : (n.facts now).received? = some m := Teaching.received?_facts.2 ha
  have hnumber := p.nodeNumber_of_startsLearning hn h hstarts ha
  have hleftMode := mode_of_teaching p
  have hlearning : p.left.config.learning = true := by
    rw [p.learning_left hnumber, ha]
    exact Message.learningAfter_eq_true_iff.2 (Or.inl hstarts)
  have hcount := hn.recalls.atMostOne
  rw [p.entries, List.map_append, List.map_cons, List.count_append,
    List.count_cons_of_ne (by rw [p.id_entry]; decide)] at hcount
  have hstanding : ∀ e ∈ p.after, ∀ s, e.service = .minimumNode s →
      (Standing.of s p.left.config).Consistent := by
    intro e he s hs
    have hpos : 0 < (p.after.map (·.service.id)).count .minimumNode :=
      List.count_pos_iff.2 (List.mem_map.2 ⟨e, he, by rw [hs]; rfl⟩)
    have hbefore : ∀ x ∈ n.before .teaching, x.service.id ≠ .minimumNode := by
      intro x hx heq
      have hpos' : 0 < ((n.before .teaching).map (·.service.id)).count .minimumNode :=
        List.count_pos_iff.2 (List.mem_map.2 ⟨x, hx, heq⟩)
      omega
    have hfirst := edits_turns p.turns_before fun x hx =>
      MinimumNode.parts_subset_otherParts (hbefore x hx)
    have hturn := (edits_entryTurn p.turn).mono
      (MinimumNode.parts_subset_otherParts (by rw [p.id_entry]; decide))
    rw [MinimumNode.of_eq_of_others s (hfirst.trans hturn)]
    refine hn.standing s (List.mem_map.2 ⟨e, ?_, hs⟩)
    rw [p.entries]
    exact List.mem_append_right _ (List.mem_cons_of_mem _ he)
  intro hnormal
  have hend : p.last.config.mode = p.found.config.mode := hend
  rcases mayLeaveSetup_turns hstarts hreceived (by omega) p.after_ne hstanding p.turns_after with
    ⟨_, hsame⟩ | ⟨hsetup, hleft⟩
  · refine hmode ?_
    rw [← hend]
    exact hnormal (hsame.trans hlearning)
  · refine hleft ?_
    rw [hend, ← hleftMode, hsetup]

/-- A cycle leaves learn mode within normal mode, where it has found it, exactly if it does not
    learn astray. -/
theorem learnsInNormal_cycle_iff (hone : n.HasOne .teaching) (hn : n.Consistent)
    (hl : n.config.LearnsInNormal) (h : n.cycle now = .ok o) :
    o.node.config.LearnsInNormal ↔ ¬ n.LearnsAstray now o := by
  refine ⟨fun hnormal hastray => hastray.not_learnsInNormal hone hn h hnormal, fun hnone => ?_⟩
  intro hlearning
  by_contra hmode
  obtain ⟨p, rfl⟩ := hone.exists_passage h
  have hafter := (maySwitch_turns p.after_ne p.turns_after).resolve_right
    fun hnormal => hmode (hnormal hlearning)
  have hend : p.last.config.mode = p.found.config.mode := hafter.1.trans (mode_of_teaching p)
  have hfoundMode : p.found.config.mode ≠ .normal := hend ▸ hmode
  have hfound := (maySwitch_turns p.before_ne p.turns_before).learnsInNormal hl
  obtain ⟨t, ht, _, _, hconfig⟩ := entryTurn_eq_ok p.turn
  have hleft : t.config.learning = true := by
    rw [← hconfig, ← hafter.2]
    exact hlearning
  rcases Service.learning_turn (t := { self := p.entry.service, shared := p.found }) ht hleft with
    ⟨m, hm, hstarts⟩ | ⟨hbefore, _⟩
  · have ha := Teaching.received?_facts.1 hm
    have hnumber := p.nodeNumber_of_startsLearning hn h hstarts ha
    have hstarts : m.StartsLearning p.found.config.nodeNumber := hstarts
    rw [hnumber] at hstarts
    exact hnone ⟨m, p.found, ha, hstarts, p.foundBy_eq, hfoundMode, hend⟩
  · exact hfoundMode (hfound hbefore)

/-- Outside learn mode a cycle leaves the records. -/
theorem sameRecords_of_unlearned (hone : n.HasOne .teaching) (hl : n.config.learning = false)
    (h : n.cycle now = .ok o) : SameRecords n.config o.node.config := by
  obtain ⟨p, rfl⟩ := hone.exists_passage h
  have hbefore := edits_turns p.turns_before fun x hx =>
    Teaching.parts_subset_otherParts (p.before_ne x hx)
  have hafter := edits_turns p.turns_after fun x hx =>
    Teaching.parts_subset_otherParts (p.after_ne x hx)
  have hfound : p.found.config.learning = false := by
    refine Bool.eq_false_iff.2 fun hlearning => ?_
    have hfirst := learning_turns_of_ne p.before_ne p.turns_before hlearning
    rw [show n.opening.config.learning = false from hl] at hfirst
    contradiction
  have hturn : SameRecords p.found.config p.left.config := by
    obtain ⟨t, ht, _, _, hconfig⟩ := entryTurn_eq_ok p.turn
    obtain ⟨s, hs⟩ := Teaching.exists_teaching p.id_entry
    unfold Service.turn at ht
    rw [hs] at ht
    obtain ⟨u, hu, rfl⟩ := map_eq_ok_iff.1 ht
    rw [hconfig]
    exact (Teaching.changesOnly_turn_of_unlearned (t := { self := s, shared := p.found }) hfound
      hu).sameRecords (by decide)
  exact (Teaching.sameRecords_of_others hbefore).trans
    (hturn.trans (Teaching.sameRecords_of_others hafter))

end Node

/-! ## Runs -/

namespace Device

variable {d : Device} {i : Input} {inputs : List Input} {n : Node}

theorem run_concat (d : Device) (inputs : List Input) (i : Input) :
    d.run (inputs ++ [i]) = (d.run inputs).bind (·.step i) := by
  unfold run
  rw [List.foldlM_append]
  rcases List.foldlM step d inputs with _ | d'
  · rfl
  · exact bind_pure (d'.step i)

/-- In every state that a run comes through, the node is in learn mode in normal mode only. -/
def LearnsInNormal (d : Device) (inputs : List Input) : Prop :=
  ∀ before n, before <+: inputs → d.run before = some (running n) → n.config.LearnsInNormal

/-- Some cycle of the run learns astray. -/
def LearnsAstray (d : Device) (inputs : List Input) : Prop :=
  ∃ before now n o, before ++ [.cycle now] <+: inputs ∧ d.run before = some (running n) ∧
    n.cycle now = .ok o ∧ n.LearnsAstray now o

/-- No cycle that begins outside normal mode changes a byte of a record. -/
def KeepsRecords (d : Device) (inputs : List Input) : Prop :=
  ∀ before now n o, before ++ [.cycle now] <+: inputs → d.run before = some (running n) →
    n.cycle now = .ok o → n.config.mode ≠ .normal → SameRecords n.config o.node.config

/-- A start turns learn mode off, and between the cycles nobody turns it on. -/
theorem learnsInNormal_step (h : d.step i = some (running n))
    (hd : ∀ m, d = running m → m.config.LearnsInNormal)
    (hcycle : ∀ m now o, d = running m → i = .cycle now → m.cycle now = .ok o →
      o.node.config.LearnsInNormal) : n.config.LearnsInNormal := by
  cases moves_of_step h with
  | boot hboot =>
    cases hboot with
    | started c _ _ _ _ hconfig _ _ =>
      rw [hconfig]
      exact c.learnsInNormal_load
  | cycle hend => exact hcycle _ _ _ rfl rfl hend
  | serve hsame =>
    rw [hsame.config]
    exact hd _ rfl

/-- Every build of the run has one service for the number and one for events. -/
def Teaches (inputs : List Input) : Prop :=
  ∀ i ∈ inputs, i.Starts (Build.HasOne .minimumNode) ∧ i.Starts (Build.HasOne .teaching)

theorem Teaches.of_run {c : Configuration} {link : Link} (h : Teaches inputs)
    (hrun : (idle c.factoryReset.store link).run inputs = some (running n)) :
    n.HasOne .teaching ∧ n.Consistent := by
  have hidle := consistent_idle c.spellsHome_factoryReset link
  exact ⟨(hasOne_of_run hrun (fun i hi => (h i hi).2) (fun _ hn => nomatch hn) n rfl).1,
    consistent_of_run hrun (fun i hi => (h i hi).1) hidle⟩

theorem Teaches.of_prefix {before : List Input} (h : Teaches inputs) (hb : before <+: inputs) :
    Teaches before := fun i hi => h i (hb.subset hi)

/-- From a reset store on, a node is in learn mode in normal mode only, exactly if no cycle learns
    astray. Then the events stay as they are while the node has no number or negotiates one. -/
theorem learnsInNormal_iff {c : Configuration} {link : Link} (h : Teaches inputs) :
    ((idle c.factoryReset.store link).LearnsInNormal inputs ↔
      ¬ (idle c.factoryReset.store link).LearnsAstray inputs) ∧
    ((idle c.factoryReset.store link).LearnsInNormal inputs →
      (idle c.factoryReset.store link).KeepsRecords inputs) := by
  refine ⟨⟨?_, ?_⟩, ?_⟩
  · rintro hnormal ⟨before, now, n, o, hprefix, hrun, hcycle, hastray⟩
    have hb : before <+: inputs := (List.prefix_append _ _).trans hprefix
    obtain ⟨hone, hn⟩ := (h.of_prefix hb).of_run hrun
    refine hastray.not_learnsInNormal hone hn hcycle (hnormal _ o.node hprefix ?_)
    rw [run_concat, hrun, Option.bind_some, step, cycle?, hcycle]
  · intro hnone before
    induction before using List.reverseRecOn with
    | nil =>
      intro n _ hrun
      exact Device.noConfusion (Option.some.inj hrun)
    | append_singleton before i ih =>
      intro n hprefix hrun
      have hb : before <+: inputs := (List.prefix_append _ _).trans hprefix
      rw [run_concat] at hrun
      obtain ⟨d, hd, hstep⟩ := Option.bind_eq_some_iff.1 hrun
      refine learnsInNormal_step hstep (fun m hm => ih m hb (hm ▸ hd)) ?_
      rintro m now o rfl rfl hcycle
      obtain ⟨hone, hm⟩ := (h.of_prefix hb).of_run hd
      refine (Node.learnsInNormal_cycle_iff hone hm (ih m hb hd) hcycle).2 fun hastray => ?_
      exact hnone ⟨before, now, m, o, hprefix, hd, hcycle, hastray⟩
  · intro hnormal before now n o hprefix hrun hcycle hmode
    have hb : before <+: inputs := (List.prefix_append _ _).trans hprefix
    obtain ⟨hone, _⟩ := (h.of_prefix hb).of_run hrun
    have hlearning : n.config.learning = false :=
      Bool.eq_false_iff.2 fun hl => hmode (hnormal before n hb hrun hl)
    exact Node.sameRecords_of_unlearned hone hlearning hcycle

/-- A session in which a small device gets the number 300 and negotiates another. A message that
    asks it to learn comes in meanwhile, and then a lesson. -/
def straySession : List Input :=
  session
    [.advanceMode, .received (.addressed Opcode.snn.byte 300 []), .advanceMode,
      .received (.addressed Opcode.nnlrn.byte 300 []),
      .received (.addressed Opcode.evlrn.byte 1 [0, 3, 1, 7])]

theorem teaches_session (actions : List Action) : Teaches (session actions) := fun i hi =>
  ⟨starts_session (hasOne_smallBuild (by decide)) actions i hi,
    starts_session (hasOne_smallBuild (by decide)) actions i hi⟩

/-- After the session the node is in learn mode in setup, and has learned an event there. -/
theorem not_learnsInNormal_straySession :
    ¬ smallDevice.LearnsInNormal straySession ∧
      ∃ n, smallDevice.run straySession = some (running n) ∧ n.config.mode = .setup ∧
        n.config.find ⟨1, 3⟩ = .ok 0 := by
  have hrun : ((smallDevice.run straySession).bind node?).any
      (fun n => n.config.learning && n.config.mode == .setup &&
        (n.config.find ⟨1, 3⟩).toOption == some 0) = true := by
    decide +kernel
  obtain ⟨n, hn, h⟩ := exists_running hrun
  obtain ⟨h, hfind⟩ := Bool.and_eq_true_iff.1 h
  obtain ⟨hlearning, hmode⟩ := Bool.and_eq_true_iff.1 h
  have hsetup : n.config.mode = .setup := beq_iff_eq.1 hmode
  refine ⟨fun hnormal => ?_, n, hn, hsetup, toOption_eq_some_iff.1 (beq_iff_eq.1 hfind)⟩
  have hm := hnormal straySession n (List.prefix_refl _) hn hlearning
  exact absurd (hsetup.symm.trans hm) (by decide)

/-- In that session a cycle learns astray. -/
theorem learnsAstray_straySession : smallDevice.LearnsAstray straySession := by
  have hrun : ((smallDevice.run straySession).bind node?).any
      (fun n => n.config.learning && n.config.mode == .setup) = true := by
    decide +kernel
  obtain ⟨n, hn, h⟩ := exists_running hrun
  obtain ⟨hlearning, hmode⟩ := Bool.and_eq_true_iff.1 h
  have hiff : smallDevice.LearnsInNormal straySession ↔
      ¬ smallDevice.LearnsAstray straySession :=
    (learnsInNormal_iff (teaches_session _)).1
  refine Classical.not_not.1 fun hnone => ?_
  have hm := hiff.2 hnone straySession n (List.prefix_refl _) hn hlearning
  exact absurd ((beq_iff_eq.1 hmode).symm.trans hm) (by decide)

end Device

end RailNode
