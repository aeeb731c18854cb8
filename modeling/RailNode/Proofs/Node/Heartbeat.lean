import RailNode.Proofs.Node.Negotiation
import RailNode.Proofs.Service.Heartbeat

/-
  The heartbeats of a node, over a run from a start. In every round the service that every node has
  carries its heartbeat on and polls it (`Tied.pulses`), and nobody else gives heartbeats or stops
  them. Over rounds in which the heart goes on beating the laws of their number hold from round to
  round (`law_of_beating`), which bounds how many there are (`KeepsPace`).
-/
namespace RailNode.Node

open MinimumNode RailNode.Configuration

variable {n m : Node} {now interval : Time} {o : Outcome} {inputs : List Input}
  {events : List Event}

/-! ## Turns -/

section Turns

variable {c : Cycle} {position : Nat} {shared : Shared} {es : List Entry}
  {r : List (Entry × EntryTrace) × Shared}

/-- The turns of other services leave the heart beating or not. -/
theorem isBeating_turns (h : turns c position shared es = .ok r)
    (hids : ∀ e ∈ es, e.service.id ≠ .minimumNode) :
    isBeating r.2.config = isBeating shared.config := by
  induction es generalizing position shared r with
  | nil => exact Except.ok.inj h ▸ rfl
  | cons e es ih =>
    obtain ⟨e', trace, between, rest, last, he, hrest, rfl⟩ := turns_cons_eq_ok h
    obtain ⟨t, ht, _, _, hconfig⟩ := entryTurn_eq_ok he
    rw [List.forall_mem_cons] at hids
    have hlater := ih hrest hids.2
    rw [hconfig, Service.isBeating_turn ht hids.1] at hlater
    exact hlater

end Turns

/-! ## Rounds -/

namespace Round

/-- The heartbeats that have been put in the queue in the round, by whatever service. -/
def heartbeats (r : Round) : List Action := r.outcome.queued.filter (·.sends .heartb)

/-- The heart beats after the round. -/
def Beats (r : Round) : Prop := isBeating r.outcome.node.config = true

/-- The heart begins to beat in the round, which comes after `before`: the node has just been
    started, the heart did not beat before the round, or it is interrupted by a negotiation. -/
def BeginsToBeat (before : List Round) (r : Round) : Prop :=
  before = [] ∨ isBeating r.node.config = false ∨ r.Opens

/-- In the round the heartbeat is carried on or begins anew, and then is polled. -/
def Pulses (interval : Time) (r : Round) : Prop :=
  ∃ due?, Carries r.node.nextAction.1 r.node.config.nodeNumber r.node.config.mode
      r.node.minimumNode.heartbeatDue due? ∧
    MinimumNode.Pulses r.now interval r.outcome.node.config due?
      r.node.minimumNode.heartbeatNumber r.outcome.node.minimumNode.heartbeatDue
      r.outcome.node.minimumNode.heartbeatNumber r.heartbeats

end Round

/-- The time of the last of these rounds. -/
def lastTime (first : Round) (later : List Round) : Time :=
  (later.map (·.now)).getLastD first.now

/-- The heartbeats of these rounds keep pace with an interval. -/
structure KeepsPace (interval : Time) (rounds : List Round) : Prop where
  atMostOne : ∀ r ∈ rounds, r.heartbeats.length ≤ 1
  /-- In a round that does not end with a beating heart there is no heartbeat. -/
  silent : ∀ r ∈ rounds, ¬ r.Beats → r.heartbeats = []
  /-- All heartbeats are numbered one after the other, whatever comes between them. -/
  numbered : ∀ {i a}, (rounds.flatMap Round.heartbeats)[i]? = some a → ∃ node,
    a = Action.transmit (.addressed Opcode.heartb.byte node [UInt8.ofNat i, 0, 0])
  /-- From the round on in which the heart begins to beat there are no more heartbeats than there
      are intervals, as long as it goes on beating under a clock that does not go backwards, and no
      fewer if no two rounds are more than an interval apart. -/
  rate : ∀ {before first during after}, rounds = before ++ first :: (during ++ after) →
    0 < interval → first.BeginsToBeat before → (∀ r ∈ during, ¬ r.Opens) →
    (∀ r ∈ first :: during, r.Beats ∧ r.now + interval ≤ Time.last) →
    (first :: during).IsChain (·.now ≤ ·.now) →
    ((first :: during).flatMap Round.heartbeats).length ≤
        (lastTime first during - first.now) / interval ∧
      ((first :: during).IsChain (fun r s => s.now ≤ r.now + interval) →
        ((first :: during).flatMap Round.heartbeats).length =
          (lastTime first during - first.now) / interval)

/-! ## A heart that goes on beating -/

section Chain

variable {first r : Round} {during rounds : List Round} {number number' : UInt8}
  {b : Configuration × MinimumNode}

namespace Round.Pulses

theorem length_le (h : r.Pulses interval) : r.heartbeats.length ≤ 1 := by
  obtain ⟨_, _, hpulses⟩ := h
  exact hpulses.length_le

theorem silent (h : r.Pulses interval) (hbeats : ¬ r.Beats) : r.heartbeats = [] := by
  obtain ⟨_, _, hpulses⟩ := h
  exact (hpulses.of_still (Bool.eq_false_iff.2 hbeats)).2

/-- In the round in which the heart begins to beat there is no heartbeat yet. -/
theorem begins (h : r.Pulses interval) (hnone : r.node.minimumNode.heartbeatDue = none ∨ r.Opens)
    (hinterval : 0 < interval) (hbeats : r.Beats) (hlast : r.now + interval ≤ Time.last) :
    r.heartbeats = [] ∧
      r.outcome.node.minimumNode.heartbeatDue = some (r.now + interval) := by
  obtain ⟨due?, hcarries, hpulses⟩ := h
  rw [hcarries.eq_none hnone] at hpulses
  exact hpulses.begins hbeats hinterval hlast

theorem goesOn (h : r.Pulses interval) {due : Time}
    (hbefore : isBeating r.node.config = true) (hopens : ¬ r.Opens)
    (hdue : r.node.minimumNode.heartbeatDue = some due) (hbeats : r.Beats)
    (hlast : r.now + interval ≤ Time.last) :
    r.now < due ∧ r.heartbeats.length = 0 ∧
        r.outcome.node.minimumNode.heartbeatDue = some due ∨
      due ≤ r.now ∧ r.heartbeats.length = 1 ∧
        r.outcome.node.minimumNode.heartbeatDue = some (max (due + interval) r.now) := by
  obtain ⟨due?, hcarries, hpulses⟩ := h
  have hnormal : r.node.config.mode = .normal :=
    of_decide_eq_true (Bool.and_eq_true_iff.1 hbefore).1
  rw [hcarries.eq_of_normal hnormal hopens, hdue] at hpulses
  exact hpulses.goesOn hbeats hlast

end Round.Pulses

/-- A law of the number of heartbeats and of when the next is due holds over rounds in which the
    heart goes on beating, if it is kept by waiting and by each heartbeat. -/
theorem law_of_beating {P : Nat → Time → Time → Prop} {T : Time → Time → Prop}
    (hwaits : ∀ {count now now' due}, P count now due → T now now' → now' < due →
      P count now' due)
    (hbeats : ∀ {count now now' due}, P count now due → T now now' → due ≤ now' →
      P (count + 1) now' (max (due + interval) now'))
    (hands : HandsOn (fun n => (n.config, n.minimumNode))
      (first.outcome.node.config, first.outcome.node.minimumNode) during b)
    (hpulses : ∀ r ∈ during, r.Pulses interval) (hopens : ∀ r ∈ during, ¬ r.Opens)
    (hduring : ∀ r ∈ first :: during, r.Beats ∧ r.now + interval ≤ Time.last)
    (htimes : (first :: during).IsChain fun r s => T r.now s.now) {count : Nat} {due : Time}
    (hdue : first.outcome.node.minimumNode.heartbeatDue = some due) (h : P count first.now due) :
    ∃ due', P (count + (during.flatMap Round.heartbeats).length) (lastTime first during) due' := by
  induction during generalizing first count due with
  | nil => exact ⟨due, h⟩
  | cons r during ih =>
    obtain ⟨heq, hrest⟩ := HandsOn.cons_iff.1 hands
    obtain ⟨hconfig, hself⟩ := Prod.mk.inj heq
    obtain ⟨htime, htimes⟩ := List.isChain_cons_cons.1 htimes
    rw [List.forall_mem_cons] at hpulses hopens hduring
    have hr := List.forall_mem_cons.1 hduring.2
    have hbefore : isBeating r.node.config = true := hconfig ▸ hduring.1.1
    rw [hself] at hdue
    have hnext : ∃ due', r.outcome.node.minimumNode.heartbeatDue = some due' ∧
        P (count + r.heartbeats.length) r.now due' := by
      rcases hpulses.1.goesOn hbefore hopens.1 hdue hr.1.1 hr.1.2 with
        ⟨hlt, hlength, hsame⟩ | ⟨hle, hlength, hmoved⟩
      · rw [hlength]
        exact ⟨due, hsame, hwaits h htime hlt⟩
      · rw [hlength]
        exact ⟨_, hmoved, hbeats h htime hle⟩
    obtain ⟨due', hdue', hP⟩ := hnext
    obtain ⟨due'', hlaw⟩ := ih hrest hpulses.2 hopens.2 hduring.2 htimes hdue' hP
    rw [List.flatMap_cons, List.length_append, ← Nat.add_assoc]
    rw [lastTime, List.map_cons, List.getLastD_cons]
    exact ⟨due'', hlaw⟩

/-- From a round in which the heart begins to beat on, the heartbeats keep pace with the interval
    while the heart goes on beating. -/
theorem rate_of_beating (hfirst : first.Pulses interval)
    (hnone : first.node.minimumNode.heartbeatDue = none ∨ first.Opens) (hinterval : 0 < interval)
    (hands : HandsOn (fun n => (n.config, n.minimumNode))
      (first.outcome.node.config, first.outcome.node.minimumNode) during b)
    (hpulses : ∀ r ∈ during, r.Pulses interval) (hopens : ∀ r ∈ during, ¬ r.Opens)
    (hbeats : ∀ r ∈ first :: during, r.Beats ∧ r.now + interval ≤ Time.last)
    (htimes : (first :: during).IsChain (·.now ≤ ·.now)) :
    ((first :: during).flatMap Round.heartbeats).length ≤
        (lastTime first during - first.now) / interval ∧
      ((first :: during).IsChain (fun r s => s.now ≤ r.now + interval) →
        ((first :: during).flatMap Round.heartbeats).length =
          (lastTime first during - first.now) / interval) := by
  have hstart := (List.forall_mem_cons.1 hbeats).1
  obtain ⟨hsilent, hdue⟩ := hfirst.begins hnone hinterval hstart.1 hstart.2
  rw [List.flatMap_cons, hsilent, List.nil_append]
  refine ⟨?_, fun hgaps => ?_⟩
  · obtain ⟨due, hlaw⟩ := law_of_beating (P := Heartbeat.Bounded interval first.now)
      (T := (· ≤ ·)) (fun hP hT _ => hP.waits hT) (fun hP _ hle => hP.beats hle) hands hpulses
      hopens hbeats htimes hdue (.begin _ _)
    rw [Nat.zero_add] at hlaw
    exact hlaw.count_le hinterval
  · have hsteps : (first :: during).IsChain fun r s =>
        r.now ≤ s.now ∧ s.now ≤ r.now + interval :=
      List.isChain_iff_getElem.2 fun i hi =>
        ⟨List.isChain_iff_getElem.1 htimes i hi, List.isChain_iff_getElem.1 hgaps i hi⟩
    obtain ⟨due, hlaw⟩ := law_of_beating (P := Heartbeat.Punctual interval first.now)
      (T := fun now now' => now ≤ now' ∧ now' ≤ now + interval)
      (fun hP hT hlt => hP.waits hT.1 hlt) (fun hP hT hle => hP.beats hle hT.2) hands hpulses
      hopens hbeats hsteps hdue (.begin hinterval _)
    rw [Nat.zero_add] at hlaw
    exact hlaw.count_eq hinterval

/-- The heartbeats of rounds are numbered on from where the service is. -/
theorem numbered_of_pulses (hands : HandsOn (·.minimumNode.heartbeatNumber) number rounds number')
    (hpulses : ∀ r ∈ rounds, r.Pulses interval) {i : Nat} {a : Action}
    (ha : (rounds.flatMap Round.heartbeats)[i]? = some a) : ∃ node,
    a = .transmit (.addressed Opcode.heartb.byte node [number + UInt8.ofNat i, 0, 0]) := by
  induction rounds generalizing number i with
  | nil => contradiction
  | cons r rounds ih =>
    obtain ⟨rfl, hrest⟩ := HandsOn.cons_iff.1 hands
    rw [List.forall_mem_cons] at hpulses
    rw [List.flatMap_cons] at ha
    obtain ⟨⟨_, _, hpulse⟩, hpulses⟩ := hpulses
    rcases hpulse.number_cases with ⟨hnone, hsame⟩ | ⟨⟨node, hone⟩, hnext⟩
    · rw [hnone, List.nil_append] at ha
      rw [hsame] at hrest
      exact ih hrest hpulses ha
    · rw [hone] at ha
      rw [hnext] at hrest
      cases i with
      | zero =>
        refine ⟨node, (Option.some.inj ha).symm.trans ?_⟩
        rw [show UInt8.ofNat 0 = 0 from rfl, UInt8.add_zero]
      | succ i =>
        obtain ⟨node', ha'⟩ := ih hrest hpulses ha
        refine ⟨node', ?_⟩
        rw [ha', UInt8.ofNat_add, UInt8.add_comm (UInt8.ofNat i), ← UInt8.add_assoc]
        rfl

end Chain

/-! ## Runs -/

/-- A node whose standing is tied, with nothing but parts of long messages to send, and with no
    heartbeat due unless its heart beats. -/
structure Steady (n : Node) : Prop where
  tied : n.Tied
  fragments : n.HasFragments
  still : isBeating n.config = false → n.minimumNode.heartbeatDue = none

theorem Steady.pulses (hn : n.Steady) (h : n.cycle now = .ok o) :
    Round.Pulses n.timing.heartbeatInterval ⟨now, n, o⟩ := by
  obtain ⟨p, t, rfl, v⟩ := hn.tied.hasOne.exists_minimumVisit h
  have htied : (Standing.of n.minimumNode p.found.config).Tied := by
    rw [v.standing_found]
    exact hn.tied.standing
  obtain ⟨due?, beats, hcarries, hpulses, hsent⟩ := pulses_turn v.turn htied
  have hmode : p.found.config.mode = n.config.mode := v.found.changesOnly.mode (by decide)
  have hnumber : p.found.config.nodeNumber = n.config.nodeNumber :=
    v.found.changesOnly.nodeNumber (by decide)
  have hheartbeats : (⟨now, n, p.outcome⟩ : Round).heartbeats = beats := by
    rw [Round.heartbeats, v.filter_queued hn.fragments (by decide) (by decide)]
    exact hsent
  have hbeating : isBeating p.outcome.node.config = isBeating t.config := by
    rw [← v.left]
    show isBeating p.last.config = _
    exact isBeating_turns p.turns_after p.after_ne
  have hlater : p.outcome.node.config.nodeNumber = t.config.nodeNumber :=
    v.edits.changesOnly.nodeNumber (by decide)
  refine ⟨due?, ?_, ?_⟩
  · show Carries _ n.config.nodeNumber n.config.mode _ _
    rw [← hnumber, ← hmode]
    exact hcarries
  · rw [hheartbeats]
    show MinimumNode.Pulses _ _ p.outcome.node.config _ _ p.outcome.node.minimumNode.heartbeatDue
      p.outcome.node.minimumNode.heartbeatNumber _
    rw [v.minimumNode]
    exact hpulses.congr hbeating hlater

theorem Moves.steady (h : n.Moves m events) (hn : n.Steady) : m.Steady := by
  refine ⟨h.tied hn.tied, h.hasFragments hn.fragments, ?_⟩
  rcases h.sameCore with ⟨hcore, _⟩ | ⟨t, o, hcycle, rfl, _⟩
  · rw [hcore.config, hcore.minimumNode_eq]
    exact hn.still
  · intro hstill
    obtain ⟨due?, _, hpulses⟩ := hn.pulses hcycle
    exact (hpulses.of_still hstill).1

theorem Steady.pulses_of_run (hn : n.Steady) (h : n.run inputs = some (m, events)) :
    ∀ r ∈ rounds events, r.node.Steady ∧ r.Pulses n.timing.heartbeatInterval := by
  intro r hr
  obtain ⟨⟨hsteady, htiming⟩, hcycle⟩ := forall_rounds
    (R := fun m => m.Steady ∧ m.timing = n.timing) h
    (fun hmoves hm => ⟨hmoves.steady hm.1, hmoves.timing.trans hm.2⟩) ⟨hn, rfl⟩ r hr
  rw [← htiming]
  exact ⟨hsteady, hsteady.pulses hcycle⟩

theorem Steady.keepsPace (hn : n.Steady) (hnew : n.minimumNode = {})
    (h : n.run inputs = some (m, events)) :
    KeepsPace n.timing.heartbeatInterval (rounds events) := by
  have hall := hn.pulses_of_run h
  refine ⟨fun r hr => (hall r hr).2.length_le, fun r hr => (hall r hr).2.silent, ?_, ?_⟩
  · intro i a ha
    have hands := handsOn_of_run (g := (·.minimumNode.heartbeatNumber))
      (fun hcore => congrArg _ hcore.minimumNode_eq) h
    rw [hnew] at hands
    obtain ⟨node, hnode⟩ := numbered_of_pulses hands (fun r hr => (hall r hr).2) ha
    exact ⟨node, by rw [hnode, UInt8.zero_add]⟩
  · intro before first during after hsplit hinterval hbegins hopens hbeats htimes
    have hands := handsOn_of_run (g := fun n => (n.config, n.minimumNode))
      (fun hcore => by rw [hcore.config, hcore.minimumNode_eq]) h
    rw [hsplit] at hall hands
    obtain ⟨a, hbefore, hrest⟩ := HandsOn.append_iff.1 hands
    obtain ⟨hfirst, hlater⟩ := HandsOn.cons_iff.1 hrest
    obtain ⟨b, hduring, _⟩ := HandsOn.append_iff.1 hlater
    rw [List.forall_mem_append, List.forall_mem_cons, List.forall_mem_append] at hall
    obtain ⟨_, ⟨hsteady, hpulses⟩, hall, _⟩ := hall
    have hnone : first.node.minimumNode.heartbeatDue = none ∨ first.Opens := by
      rcases hbegins with rfl | hstill | hdoes
      · have hsame := congrArg (·.2.heartbeatDue) ((HandsOn.nil_iff.1 hbefore).trans hfirst)
        refine Or.inl (hsame.symm.trans ?_)
        show n.minimumNode.heartbeatDue = none
        rw [hnew]
      · exact Or.inl (hsteady.still hstill)
      · exact Or.inr hdoes
    exact rate_of_beating hpulses hnone hinterval hduring (fun r hr => (hall r hr).2) hopens
      hbeats htimes

/-- Over a run from a start the heartbeats keep pace with their interval, whatever the traffic and
    the times of the cycles are. The next cycle always comes to its end unless a message restarts
    the device. -/
theorem keepsPace_of_run {b : Build} {format : Bool} {d : Device} (hb : b.HasOne .minimumNode)
    (hfragments : ∀ s ∈ b.services, s.HasFragments)
    (hboot : (d.boot b format).1 = .running n) (h : n.run inputs = some (m, events)) :
    KeepsPace n.timing.heartbeatInterval (rounds events) ∧
      ∀ now, (∀ x, (m.facts now).received? = some x →
        x.opcode? ≠ some .nnrst ∧ x.opcode? ≠ some .nnrsm) → ∃ o, m.cycle now = .ok o := by
  have hstart := startsFrom_of_boot hboot
  have hnew := hstart.minimumNode_eq hb
  have hn : n.Steady :=
    { tied := (tied_of_boot hb hboot).1
      fragments := hasFragments_of_run hfragments hstart (show n.run [] = some (n, []) from rfl)
      still := fun _ => by rw [hnew] }
  exact ⟨hn.keepsPace hnew h, fun now =>
    (run_preserves h (fun hmoves => hmoves.sound) (hstart.sound hb.isNew)).exists_cycle now⟩

/-- A small node gets the number 300, its heart beats for a while, and a MODE command stops it. -/
def heartbeatInputs : List Input :=
  let number := .received (.addressed Opcode.snn.byte 300 [])
  let stop := .received (.addressed Opcode.mode.byte 300 [ModeCommand.heartbeatOff.byte])
  [.ask (.put .advanceMode), .ask (.put number), .cycle 0, .cycle 0, .ask (.put stop)] ++
    [4, 8, 12, 16, 20, 24, 28, 32].map (.cycle ∘ Time.seconds)

theorem keepsPace_of_heartbeatInputs : ∃ m events,
    small.run heartbeatInputs = some (m, events) ∧
      (rounds events).map (·.heartbeats.length) = [0, 0, 0, 1, 1, 1, 1, 0, 0, 0] ∧
      KeepsPace small.timing.heartbeatInterval (rounds events) := by
  have hrun : ((small.run heartbeatInputs).any fun x =>
      (rounds x.2).map (·.heartbeats.length) == [0, 0, 0, 1, 1, 1, 1, 0, 0, 0]) = true := by
    decide +kernel
  obtain ⟨m, events, hm, hp⟩ := exists_run hrun
  exact ⟨m, events, hm, beq_iff_eq.1 hp, (keepsPace_of_run (Device.hasOne_smallBuild (by decide))
    hasFragments_smallBuild boot_small hm).1⟩

end RailNode.Node
