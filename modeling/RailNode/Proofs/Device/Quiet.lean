import RailNode.Proofs.Device.Identity
import RailNode.Proofs.Node.Life
import RailNode.Proofs.Service.Quiet

/-
  Messages for other nodes and the cycles that take them from the queue. The number of a node does
  not change under such a message, since a negotiation that runs out of time goes back to the number
  that the node has: every entry finds the message to be for others (`turns_of_ignored`), and the
  cycle is the one without an action. The same goes for a lesson when the node is not in learn mode.
  That negotiations remember the number is kept by every cycle of a node with one service for its
  number, whatever its store has held at the start (`StandsIn.cycle`).
-/
namespace RailNode

open RailNode.Configuration

/-! ## Turns -/

/-- Only an action that assigns a number changes it. -/
theorem Service.nodeNumber_turn {c : Cycle} {s : Service} {shared : Shared} {t : Turn Service}
    (hno : ∀ k, ¬ Standing.Assigns k c.action)
    (hs : ∀ x, s = .minimumNode x → (Standing.of x shared.config).Recalls)
    (h : turn c { self := s, shared } = .ok t) :
    t.config.nodeNumber = shared.config.nodeNumber := by
  by_cases hid : s.id = .minimumNode
  · obtain ⟨x, rfl⟩ := MinimumNode.exists_minimumNode hid
    obtain ⟨u, hu, rfl⟩ := map_eq_ok_iff.1 h
    exact (hs x rfl).number_of_passes (MinimumNode.passes_turn hu) fun _ k _ => hno k
  · have hedits := (edits_turn h).mono (MinimumNode.parts_subset_otherParts hid)
    exact hedits.changesOnly.nodeNumber (by decide)

/-- Without an action a node goes on ignoring what it has ignored. -/
theorem Service.ignored_turn_quiet {c : Cycle} {m : Message} {s : Service} {shared : Shared}
    {t : Turn Service} (hm : m.Ignored shared.config)
    (hs : ∀ x, s = .minimumNode x → (Standing.of x shared.config).Recalls)
    (h : turn c.quiet { self := s, shared } = .ok t) : m.Ignored t.config := by
  rcases hm with hm | ⟨hlesson, hlearning⟩
  · refine Or.inl ?_
    rwa [nodeNumber_turn Standing.not_assigns_none hs h]
  · exact Or.inr ⟨hlesson, learning_turn_quiet c.received?_quiet h hlearning⟩

namespace Node

section Turns

variable {c : Cycle} {m : Message} {position : Nat} {e e' : Entry} {shared shared' : Shared}
  {trace : EntryTrace} {es : List Entry}

/-- The entries remember the number of the node in what they negotiate. -/
def Recall (number : UInt16) (es : List Entry) : Prop :=
  ∀ e ∈ es, ∀ s, e.service = .minimumNode s → ∀ g, s.negotiation = some g →
    g.previousNumber = number

theorem nodeNumber_entryTurn (hno : ∀ k, ¬ Standing.Assigns k c.action)
    (he : Recall shared.config.nodeNumber [e])
    (h : entryTurn c position e shared = .ok ((e', trace), shared')) :
    shared'.config.nodeNumber = shared.config.nodeNumber := by
  obtain ⟨t, ht, _, _, hconfig⟩ := entryTurn_eq_ok h
  rw [hconfig]
  exact Service.nodeNumber_turn hno (he e List.mem_cons_self) ht

/-- In a cycle that assigns no number every entry finds the number of the node. -/
theorem nodeNumber_turns (hno : ∀ k, ¬ Standing.Assigns k c.action)
    (hes : Recall shared.config.nodeNumber es) {r : List (Entry × EntryTrace) × Shared}
    (h : turns c position shared es = .ok r) :
    r.2.config.nodeNumber = shared.config.nodeNumber := by
  induction es generalizing position shared r with
  | nil => rw [← Except.ok.inj h]
  | cons e es ih =>
    obtain ⟨e', trace, between, rest, last, he, hrest, rfl⟩ := turns_cons_eq_ok h
    unfold Recall at hes
    rw [List.forall_mem_cons] at hes
    have hfirst := nodeNumber_entryTurn hno (List.forall_mem_singleton.2 hes.1) he
    exact (ih (hfirst ▸ hes.2) hrest).trans hfirst

theorem entryTurn_of_ignored (hm : c.action = some (.received m)) (h : m.Ignored shared.config)
    (he : Recall shared.config.nodeNumber [e]) :
    entryTurn c position e shared = entryTurn c.quiet position e shared := by
  have hservice : Service.turn c { self := e.service, shared } =
      Service.turn c.quiet { self := e.service, shared } :=
    Service.turn_of_ignored hm h
  unfold entryTurn
  rw [hservice]
  rcases ht : Service.turn c.quiet { self := e.service, shared } with x | t
  · rfl
  · have hafter := Service.ignored_turn_quiet h (he e List.mem_cons_self) ht
    have hreporter : Reporter.turn c t.self position { self := e.reporter, shared := t.shared } =
        Reporter.turn c.quiet t.self position { self := e.reporter, shared := t.shared } :=
      Reporter.turn_of_ignored hm hafter
    simp only [bind, Except.bind, hreporter]

/-- The turns of a cycle that takes a message which the node ignores are those without an
    action. -/
theorem turns_of_ignored (hm : c.action = some (.received m)) (h : m.Ignored shared.config)
    (hes : Recall shared.config.nodeNumber es) :
    turns c position shared es = turns c.quiet position shared es := by
  induction es generalizing position shared with
  | nil => rfl
  | cons e es ih =>
    have he : Recall shared.config.nodeNumber [e] :=
      fun x hx => hes x (List.mem_cons.2 (Or.inl (List.mem_singleton.1 hx)))
    unfold turns
    rw [entryTurn_of_ignored hm h he]
    rcases hturn : entryTurn c.quiet position e shared with x | ⟨⟨e', trace⟩, between⟩
    · rfl
    · obtain ⟨t, ht, _, _, hconfig⟩ := entryTurn_eq_ok hturn
      have hnumber := nodeNumber_entryTurn (c := c.quiet) Standing.not_assigns_none he hturn
      have hafter : m.Ignored between.config := by
        rw [hconfig]
        exact Service.ignored_turn_quiet h (he e List.mem_cons_self) ht
      have hrest : turns c (position + 1) between es = turns c.quiet (position + 1) between es :=
        ih hafter (hnumber ▸ fun x hx => hes x (List.mem_cons_of_mem e hx))
      simp only [bind, Except.bind, hrest]

end Turns

/-! ## Cycles -/

variable {n n' : Node} {now : Time} {o : Outcome} {m : Message}

/-- A cycle that takes this action from the queue, or none, and leaves this queue. -/
def cycleWith (now : Time) (action : Option Action) (queue : Backlog Action queueCapacity)
    (n : Node) : Except Halt Outcome := do
  let c : Cycle :=
    { now, action, services := n.services, parameters := n.parameters, timing := n.timing }
  let (entries, shared) ← turns c 1 { config := n.config, link := n.link, queue } n.entries
  return {
    node :=
      { n with
        config := shared.config
        link := shared.link
        queue := shared.queue
        entries := entries.map (·.1)
        indication := indicate n.indication action }
    traces := entries.map (·.2) }

theorem cycle_eq_cycleWith (now : Time) (n : Node) :
    n.cycle now = n.cycleWith now n.nextAction.1 n.nextAction.2 := rfl

/-- With nothing in its queue a node takes no action. -/
theorem cycle_of_empty {queue : Backlog Action queueCapacity} (h : queue.items = []) :
    ({ n with queue } : Node).cycle now = n.cycleWith now none queue := by
  have hnext : ({ n with queue } : Node).nextAction = (none, queue) := by
    obtain ⟨items, stats, hle⟩ := queue
    obtain rfl : items = [] := h
    rfl
  rw [cycle_eq_cycleWith, hnext]
  rfl

/-- The node has at most one service for its number, and stands with it in this way. -/
structure StandsIn (P : Standing → Prop) (n : Node) : Prop where
  atMostOne : (n.entries.map (·.service.id)).count .minimumNode ≤ 1
  standing : ∀ s, n.RunsOn s → P (.of s n.config)

section StandsIn

variable {P : Standing → Prop}

theorem StandsIn.cycle (hP : Standing.Lasts P) (hn : n.StandsIn P) (h : n.cycle now = .ok o) :
    o.node.StandsIn P where
  atMostOne := by
    rw [ids_cycle h]
    exact hn.atMostOne
  standing s hs := by
    have hid : .minimumNode ∈ n.entries.map (·.service.id) := by
      rw [← ids_cycle h]
      obtain ⟨e, he, heq⟩ := List.mem_map.1 hs
      exact List.mem_map.2 ⟨e, he, congrArg Service.id heq⟩
    have hone : n.HasOne .minimumNode :=
      Nat.le_antisymm hn.atMostOne (List.count_pos_iff.2 hid)
    obtain ⟨s', s'', hs', hs'', hpasses⟩ := hone.passes h
    rw [(hone.cycle h).runsOn_eq hs hs'']
    exact hP.passes (hn.standing s' hs') hpasses

theorem SameCore.standsIn (h : n.SameCore n') (hn : n.StandsIn P) : n'.StandsIn P where
  atMostOne := by
    rw [h.ids]
    exact hn.atMostOne
  standing s hs := by
    rw [h.config]
    exact hn.standing s ((h.runsOn_iff s).1 hs)

theorem Moves.standsIn {events : List Event} (hP : Standing.Lasts P) (h : n.Moves n' events)
    (hn : n.StandsIn P) : n'.StandsIn P := by
  rcases h.sameCore with ⟨hcore, _⟩ | ⟨t, o, hcycle, rfl, _⟩
  · exact hcore.standsIn hn
  · exact hn.cycle hP hcycle

end StandsIn

/-- The node has at most one service for its number, and what that negotiates goes back to the
    number that the node has. -/
abbrev Recalls (n : Node) : Prop := n.StandsIn Standing.Recalls

theorem Recalls.entries (hn : n.Recalls) : Recall n.config.nodeNumber n.entries :=
  fun e he s hs => hn.standing s (List.mem_map.2 ⟨e, he, hs⟩)

/-- Without an action the turns of a sound node come to their end. -/
theorem Sound.exists_turns_quiet (hn : n.Sound) (now : Time) :
    ∃ r, turns (n.facts now).quiet 1 n.opening n.entries = .ok r := by
  rcases hturns : turns (n.facts now).quiet 1 n.opening n.entries with x | r
  · cases x with
    | restart left trace =>
      obtain ⟨_, _, _, _, _, _, hturn⟩ := exists_of_turns_eq_error hturns
      obtain ⟨_, _, hm, _⟩ := Service.turn_eq_restart hturn
      contradiction
    | fault => exact absurd hturns (turns_ne_fault (c := (n.facts now).quiet) (hn.entries now))
  · exact ⟨r, rfl⟩

/-- A cycle that takes a message which the node ignores is the cycle without an action. -/
theorem Recalls.cycle_of_ignored (now : Time) (hn : n.Recalls) (hsound : n.Sound)
    (ha : n.nextAction.1 = some (.received m)) (hm : m.Ignored n.config) :
    ∃ o, n.cycle now = .ok o ∧ n.cycleWith now none n.nextAction.2 = .ok o := by
  obtain ⟨r, hr⟩ := hsound.exists_turns_quiet now
  have hturns : turns (n.facts now) 1 n.opening n.entries = .ok r := by
    rw [turns_of_ignored ha hm hn.entries, hr]
  refine ⟨n.outcome r, ?_, ?_⟩
  · rw [cycle_eq, hturns]
    rfl
  · have hshown : indicate n.indication n.nextAction.1 = indicate n.indication none := by
      rw [ha]
      rfl
    rw [outcome, hshown]
    exact congrArg (· >>= _) hr

end Node

/-! ## Devices -/

/-- A node is put together from new services, with at most one that has this id. -/
structure Build.HasAtMostOne (id : ServiceId) (b : Build) : Prop where
  isNew : ∀ s ∈ b.services, s.IsNew
  count : (b.services.map Service.id).count id ≤ 1

namespace Device

variable {P : Standing → Prop}

theorem standsIn_of_boots {b : Build} {format : Bool} {d : Device} {n : Node}
    (hP : Standing.Lasts P) (hb : b.HasAtMostOne .minimumNode)
    (h : Boots b format d (running n)) : n.StandsIn P where
  atMostOne := by
    cases h with
    | started _ _ _ _ _ _ hentries _ =>
      rw [hentries, List.map_map]
      exact hb.count
  standing s hs := by
    rw [eq_of_boots hb.isNew h hs]
    exact hP.start rfl

theorem standsIn_of_run {store : Store} {link : Link} {inputs : List Input} {n : Node}
    (hP : Standing.Lasts P) (h : (idle store link).run inputs = some (running n))
    (hi : ∀ i ∈ inputs, i.Starts (Build.HasAtMostOne .minimumNode)) : n.StandsIn P ∧ n.Sound := by
  refine run_preserves (P := fun d => ∀ n, d = running n → n.StandsIn P ∧ n.Sound) h ?_ hi
    (fun _ h => nomatch h) n rfl
  intro d d' i hi hstep hd
  exact running_of_moves
    (fun hb hboot => ⟨standsIn_of_boots hP hb hboot, sound_of_boots hb.isNew hboot⟩)
    (fun hcycle hn => ⟨hn.1.cycle hP hcycle, hn.2.cycle hcycle⟩)
    (fun hcore hn => ⟨hcore.standsIn hn.1, hcore.sound hn.2⟩) hi (moves_of_step hstep) hd

theorem recalls_of_run {store : Store} {link : Link} {inputs : List Input} {n : Node}
    (h : (idle store link).run inputs = some (running n))
    (hi : ∀ i ∈ inputs, i.Starts (Build.HasAtMostOne .minimumNode)) : n.Recalls ∧ n.Sound :=
  standsIn_of_run Standing.lasts_recalls h hi

/-- In every state that a device can reach, the cycle of its node that takes a message for other
    nodes from the queue comes to its end, and is in everything the cycle without an action: the
    node, its store, its link and its queue after it, and all that its services have given out. It
    is the cycle that the node really has if nothing else is in the queue. -/
theorem cycle_of_message_for_others {store : Store} {link : Link} {inputs : List Input} {n : Node}
    {now : Time} {m : Message} (h : (idle store link).run inputs = some (running n))
    (hi : ∀ i ∈ inputs, i.Starts (Build.HasAtMostOne .minimumNode))
    (ha : n.nextAction.1 = some (.received m)) (hm : m.ForOthers n.config.nodeNumber) :
    (∃ o, n.cycle now = .ok o ∧ n.cycleWith now none n.nextAction.2 = .ok o) ∧
      (n.nextAction.2.items = [] →
        ({ n with queue := n.nextAction.2 } : Node).cycle now = n.cycle now) := by
  obtain ⟨hn, hsound⟩ := recalls_of_run h hi
  obtain ⟨o, hcycle, hquiet⟩ := hn.cycle_of_ignored now hsound ha (Or.inl hm)
  refine ⟨⟨o, hcycle, hquiet⟩, fun hempty => ?_⟩
  rw [Node.cycle_of_empty hempty, hquiet, hcycle]

/-- A session of a small device in which a message waits that writes a variable of node 7. -/
def strangerSession : List Input :=
  [.boot smallBuild false, .ask (.put (.received (.addressed Opcode.nvset.byte 7 [1, 42])))]

theorem cycle_of_strangerSession :
    ∃ n, smallDevice.run strangerSession = some (running n) ∧ n.queue.items.length = 1 ∧
      ∃ o, n.cycle 0 = .ok o ∧ n.cycleWith 0 none n.nextAction.2 = .ok o := by
  have hrun : ((smallDevice.run strangerSession).bind node?).any (fun n =>
      n.nextAction.1 == some (.received (.addressed Opcode.nvset.byte 7 [1, 42])) &&
        n.queue.items.length == 1 && n.config.nodeNumber == 0) = true := by
    decide +kernel
  obtain ⟨n, hn, h⟩ := exists_running hrun
  simp only [Bool.and_eq_true, beq_iff_eq] at h
  obtain ⟨⟨ha, hlength⟩, hnumber⟩ := h
  have hstarts : ∀ i ∈ strangerSession, i.Starts (Build.HasAtMostOne .minimumNode) := by
    have hb : smallBuild.HasOne .minimumNode := hasOne_smallBuild (by decide)
    rw [strangerSession, List.forall_mem_cons, List.forall_mem_singleton]
    exact ⟨⟨hb.isNew, hb.count.le⟩, trivial⟩
  have hm : (Message.addressed Opcode.nvset.byte 7 [1, 42]).ForOthers n.config.nodeNumber := by
    rw [hnumber]
    refine ⟨by decide, fun code hcode => ?_, by decide⟩
    have hnone : EventCode.ofByte? Opcode.nvset.byte = none := by decide
    rw [EventCode.ofByte?_eq_some_iff.2 (Option.some.inj hcode)] at hnone
    contradiction
  exact ⟨n, hn, hlength, (cycle_of_message_for_others hn hstarts ha hm).1⟩

end Device

end RailNode
