import RailNode.Proofs.Node.MinimumNode
import RailNode.Proofs.Service.Notices

/-
  Numbers that a node has released, over a run from a start. A node withdraws from a number when it
  releases it, and every way back to normal mode but one confirms the number it comes back with. The
  exception is a MODE command that makes the node resume its number: nothing confirms it then, and
  the peers go on taking it for free (`released_in_use_iff`).
-/
namespace RailNode.Node

open RailNode.Configuration

variable {n m : Node} {now : Time} {o : Outcome} {inputs : List Input} {events : List Event}

/-! ## Cycles -/

/-- The notices that have been put in the queue in a cycle. -/
def Outcome.notices (o : Outcome) : List Notice := o.queued.filterMap Action.notice?

/-- The notices of rounds one after the other. -/
def said (rounds : List Round) : List Notice := rounds.flatMap (·.outcome.notices)

theorem said_append (before after : List Round) :
    said (before ++ after) = said before ++ said after := List.flatMap_append

theorem said_singleton (r : Round) : said [r] = r.outcome.notices := List.append_nil _

/-- A cycle moves the standing of a node as its service for the number says it, and nobody else
    gives a number up in it. -/
theorem exists_says (hone : n.HasOne .minimumNode) (hn : n.HasFragments)
    (h : n.cycle now = .ok o) : ∃ s s' told before after, n.RunsOn s ∧ o.node.RunsOn s' ∧
      Standing.Says now n.nextAction.1 (.of s n.config) (.of s' o.node.config) told ∧
      o.notices = before ++ (told ++ after) ∧
      (∀ k, .released k ∉ before) ∧ ∀ k, .released k ∉ after := by
  obtain ⟨p, t, rfl, v⟩ := hone.exists_minimumVisit h
  obtain ⟨told, hsays, htold⟩ := MinimumNode.says_turn v.turn
  obtain ⟨before, after, hqueued, hsilent⟩ := v.exists_queued hn
  obtain ⟨hbefore, hafter⟩ := hsilent .nnrel (by decide) (by decide)
  have hstanding : Standing.of t.self p.outcome.node.config = t.standing := by
    rw [← v.standing_outcome, standing, v.minimumNode]
  have hfound : Standing.of n.minimumNode p.found.config = .of n.minimumNode n.config :=
    v.standing_found
  refine ⟨n.minimumNode, t.self, told, _, _, hone.runsOn_minimumNode, ?_, ?_, ?_,
    Notice.released_notMem hbefore, Notice.released_notMem hafter⟩
  · rw [← v.minimumNode]
    exact (hone.cycle h).runsOn_minimumNode
  · rw [hstanding, ← hfound]
    exact hsays
  · have hgiven : t.given.filterMap Action.notice? = told := htold
    rw [Outcome.notices, hqueued, List.filterMap_append, List.filterMap_append, hgiven]

/-! ## Rounds -/

/-- The node is in setup and has withdrawn from this number. -/
def Withdrawn (k : UInt16) (n : Node) : Prop :=
  ∃ s, n.RunsOn s ∧ (Standing.of s n.config).Withdrawn k

/-- In the round a MODE command makes the node go back to normal mode with the number it has. -/
def Round.Resumes (r : Round) : Prop :=
  r.node.config.mode = .setup ∧ r.node.config.nodeNumber ≠ 0 ∧
    Standing.Commands .normal r.node.config.nodeNumber r.node.nextAction.1

theorem Withdrawn.mode {k : UInt16} (h : n.Withdrawn k) : n.config.mode = .setup := by
  obtain ⟨s, _, hs⟩ := h
  exact hs.mode

theorem Withdrawn.number {k : UInt16} (h : n.Withdrawn k) : n.config.nodeNumber = k := by
  obtain ⟨s, _, hs⟩ := h
  exact hs.number

theorem SameCore.withdrawn {k : UInt16} (h : n.SameCore m) (hn : n.Withdrawn k) :
    m.Withdrawn k := by
  obtain ⟨s, hs, hstanding⟩ := hn
  refine ⟨s, (h.runsOn_iff s).2 hs, ?_⟩
  rw [h.config]
  exact hstanding

/-- A round that leaves a number released leaves the node withdrawn from it. -/
theorem withdrawn_of_freed (hone : n.HasOne .minimumNode) (hn : n.HasFragments)
    (h : n.cycle now = .ok o) {k : UInt16} (hk : k ∈ Notice.freed o.notices) :
    o.node.Withdrawn k := by
  obtain ⟨s, s', told, before, after, _, hs', hsays, hnotices, hbefore, hafter⟩ :=
    exists_says hone hn h
  rw [hnotices] at hk
  refine ⟨s', hs', hsays.withdrawn ?_⟩
  rcases Notice.mem_freed_append.1 hk with hk | ⟨hk, _⟩
  · rcases Notice.mem_freed_append.1 hk with hk | ⟨hk, _⟩
    · exact absurd (Notice.released_mem_of_mem_freed hk) (hafter k)
    · exact hk
  · exact absurd (Notice.released_mem_of_mem_freed hk) (hbefore k)

/-- A node that has withdrawn from a number and confirms none in a round is still withdrawn from it
    afterwards, unless it has resumed it. -/
theorem Withdrawn.cycle {k : UInt16} (hk : n.Withdrawn k) (hone : n.HasOne .minimumNode)
    (hn : n.HasFragments) (h : n.cycle now = .ok o)
    (hnone : ∀ j, .confirmed j ∉ o.notices) :
    o.node.Withdrawn k ∨ Round.Resumes ⟨now, n, o⟩ := by
  obtain ⟨s, s', told, before, after, hs, hs', hsays, hnotices, _⟩ := exists_says hone hn h
  obtain ⟨s'', hs'', hwithdrawn⟩ := hk
  rw [hone.runsOn_eq hs'' hs] at hwithdrawn
  have htold : ∀ j, Notice.confirmed j ∉ told := by
    intro j hj
    rw [hnotices] at hnone
    exact hnone j (List.mem_append_right _ (List.mem_append_left _ hj))
  rcases hwithdrawn.says hsays htold with hwithdrawn | hresumes
  · exact Or.inl ⟨s', hs', hwithdrawn⟩
  · exact Or.inr hresumes

/-- Every other way back from setup to normal mode confirms the number that the node has then. -/
theorem confirmed_of_cycle (hone : n.HasOne .minimumNode) (hn : n.HasFragments)
    (h : n.cycle now = .ok o) (hsetup : n.config.mode = .setup)
    (hnormal : o.node.config.mode = .normal) (hresumes : ¬ Round.Resumes ⟨now, n, o⟩) :
    .confirmed o.node.config.nodeNumber ∈ o.notices := by
  obtain ⟨s, s', told, before, after, _, _, hsays, hnotices, _⟩ := exists_says hone hn h
  rw [hnotices]
  refine List.mem_append_right _ (List.mem_append_left _ ?_)
  exact hsays.confirmed hsetup hnormal hresumes

/-! ## Runs -/

/-- Among these rounds is one in which the node has resumed a number that it had released and not
    confirmed since, and it has confirmed none from then on. -/
def ResumesReleased (k : UInt16) (rounds : List Round) : Prop :=
  ∃ before r after, rounds = before ++ r :: after ∧ r.Resumes ∧ r.node.config.nodeNumber = k ∧
    k ∈ Notice.freed (said before) ∧ ∀ j, .confirmed j ∉ said (r :: after)

namespace ResumesReleased

variable {k : UInt16} {rs later : List Round}

theorem append (h : ResumesReleased k rs) (hnone : ∀ j, .confirmed j ∉ said later) :
    ResumesReleased k (rs ++ later) := by
  obtain ⟨before, r, after, rfl, hresumes, hnumber, hfreed, hafter⟩ := h
  refine ⟨before, r, after ++ later, by rw [List.append_assoc, List.cons_append], hresumes,
    hnumber, hfreed, fun j hj => ?_⟩
  rw [← List.cons_append, said_append] at hj
  rcases List.mem_append.1 hj with hj | hj
  · exact hafter j hj
  · exact hnone j hj

/-- Nothing takes the release back. -/
theorem mem_freed (h : ResumesReleased k rs) : k ∈ Notice.freed (said rs) := by
  obtain ⟨before, r, after, rfl, _, _, hfreed, hafter⟩ := h
  rw [said_append]
  exact Notice.mem_freed_append.2 (Or.inr ⟨hfreed, hafter⟩)

end ResumesReleased

/-- A number that has been released and not confirmed since is one that the node is withdrawn from,
    or one that it has resumed. -/
def ReleasesOpen (events : List Event) (n : Node) : Prop :=
  ∀ k ∈ Notice.freed (said (rounds events)), n.Withdrawn k ∨ ResumesReleased k (rounds events)

theorem ReleasesOpen.round (hopen : ReleasesOpen events n) (hone : n.HasOne .minimumNode)
    (hn : n.HasFragments) (h : n.cycle now = .ok o) :
    ReleasesOpen (events ++ [.round ⟨now, n, o⟩]) o.node := by
  intro k hk
  rw [rounds_append, rounds_round] at hk ⊢
  rw [said_append, said_singleton] at hk
  rcases Notice.mem_freed_append.1 hk with hk | ⟨hk, hnone⟩
  · exact Or.inl (withdrawn_of_freed hone hn h hk)
  · have hquiet : ∀ j, .confirmed j ∉ said [⟨now, n, o⟩] := by
      rw [said_singleton]
      exact hnone
    rcases hopen k hk with hwithdrawn | hresumed
    · rcases hwithdrawn.cycle hone hn h hnone with hafter | hresumes
      · exact Or.inl hafter
      · exact Or.inr ⟨rounds events, _, [], rfl, hresumes, hwithdrawn.number, hk, hquiet⟩
    · exact Or.inr (hresumed.append hquiet)

theorem releasesOpen_of_run (hone : n.HasOne .minimumNode) (hn : n.HasFragments)
    (h : n.run inputs = some (m, events)) : ReleasesOpen events m := by
  refine (run_induction (P := fun events m =>
    (m.HasOne .minimumNode ∧ m.HasFragments) ∧ ReleasesOpen events m) h
    ⟨⟨hone, hn⟩, fun _ hk => absurd hk List.not_mem_nil⟩ ?_).2
  rintro before now m m' hmoves ⟨⟨hone, hn⟩, hopen⟩
  refine ⟨⟨hmoves.hasOne hone, hmoves.hasFragments hn⟩, ?_⟩
  rcases hmoves.sameCore with ⟨hcore, hnone⟩ | ⟨t, o, hcycle, rfl, rfl⟩
  · intro k hk
    rw [rounds_append, hnone, List.append_nil] at hk ⊢
    rcases hopen k hk with hwithdrawn | hresumed
    · exact Or.inl (hcore.withdrawn hwithdrawn)
    · exact Or.inr hresumed
  · exact hopen.round hone hn hcycle

/-- From a start on, every way back from setup to normal mode confirms the number that the node has
    then, except when a MODE command makes it resume its number. A node in normal mode has a number
    that it has released and not confirmed since exactly if it has resumed it in this way. -/
theorem released_in_use_iff {b : Build} {format : Bool} {d : Device}
    (hb : b.HasOne .minimumNode) (hfragments : ∀ s ∈ b.services, s.HasFragments)
    (hboot : (d.boot b format).1 = .running n) (h : n.run inputs = some (m, events)) :
    (∀ r ∈ rounds events, r.node.config.mode = .setup → r.outcome.node.config.mode = .normal →
      ¬ r.Resumes → .confirmed r.outcome.node.config.nodeNumber ∈ r.outcome.notices) ∧
    (m.config.mode = .normal → (m.config.nodeNumber ∈ Notice.freed (said (rounds events)) ↔
      ResumesReleased m.config.nodeNumber (rounds events))) := by
  have hstart := startsFrom_of_boot hboot
  have hone := hstart.hasOne hb
  have hn : n.HasFragments :=
    hasFragments_of_run hfragments hstart (show n.run [] = some (n, []) from rfl)
  refine ⟨fun r hr hsetup hnormal hresumes => ?_, fun hnormal => ⟨fun hk => ?_, fun hk => ?_⟩⟩
  · obtain ⟨⟨hone, hn⟩, hcycle⟩ := forall_rounds
      (R := fun n => n.HasOne .minimumNode ∧ n.HasFragments) h
      (fun hmoves hn => ⟨hmoves.hasOne hn.1, hmoves.hasFragments hn.2⟩) ⟨hone, hn⟩ r hr
    exact confirmed_of_cycle hone hn hcycle hsetup hnormal hresumes
  · refine (releasesOpen_of_run hone hn h _ hk).resolve_left fun hwithdrawn => ?_
    rw [hwithdrawn.mode] at hnormal
    contradiction
  · exact hk.mem_freed

/-- A small node gets the number 300, releases it, and then comes this. -/
def afterRelease (last : Action) : List Input :=
  let actions := [.advanceMode, .received (.addressed Opcode.snn.byte 300 []), .advanceMode, last]
  (actions.map fun a => .ask (.put a)) ++ actions.map fun _ => .cycle 0

/-- A node whose user cancels the negotiation has taken its release back. -/
theorem not_freed_of_cancel : ∃ m events,
    small.run (afterRelease .advanceMode) = some (m, events) ∧ m.config.mode = .normal ∧
      m.config.nodeNumber = 300 ∧ .released 300 ∈ said (rounds events) ∧
      300 ∉ Notice.freed (said (rounds events)) := by
  have hrun : ((small.run (afterRelease .advanceMode)).any fun x =>
      x.1.config.mode == .normal && x.1.config.nodeNumber == 300 &&
        decide (.released 300 ∈ said (rounds x.2)) &&
        (rounds x.2).all fun r => (r.node.nextAction.1.bind Action.received?).bind
          Message.opcode? != some .mode) = true := by
    decide +kernel
  obtain ⟨m, events, hm, hp⟩ := exists_run hrun
  simp only [Bool.and_eq_true, beq_iff_eq, decide_eq_true_eq, List.all_eq_true, bne_iff_ne] at hp
  obtain ⟨⟨⟨hnormal, hnumber⟩, hreleased⟩, hmode⟩ := hp
  refine ⟨m, events, hm, hnormal, hnumber, hreleased, ?_⟩
  have hiff := (released_in_use_iff (Device.hasOne_smallBuild (by decide))
    hasFragments_smallBuild boot_small hm).2 hnormal
  rw [← hnumber, hiff]
  rintro ⟨before, r, after, hsplit, ⟨_, _, command, haction, ho, _⟩, _⟩
  refine hmode r (by rw [hsplit]; exact List.mem_append_right _ List.mem_cons_self) ?_
  rw [haction]
  exact ho

/-- A node that resumes its number has it in normal mode although its release stands. -/
theorem freed_of_resume : ∃ m events,
    small.run (afterRelease (.received (.addressed Opcode.mode.byte 300 [1]))) = some (m, events) ∧
      m.config.mode = .normal ∧ m.config.nodeNumber = 300 ∧
      300 ∈ Notice.freed (said (rounds events)) := by
  have hrun : ((small.run (afterRelease
      (.received (.addressed Opcode.mode.byte 300 [1])))).any fun x =>
        x.1.config.mode == .normal && x.1.config.nodeNumber == 300 &&
          decide (300 ∈ Notice.freed (said (rounds x.2)))) = true := by
    decide +kernel
  obtain ⟨m, events, hm, hp⟩ := exists_run hrun
  simp only [Bool.and_eq_true, beq_iff_eq, decide_eq_true_eq] at hp
  exact ⟨m, events, hm, hp.1.1, hp.1.2, hp.2⟩

end RailNode.Node
