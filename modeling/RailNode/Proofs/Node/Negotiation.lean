import Mathlib.Data.List.Induction
import RailNode.Proofs.Node.MinimumNode
import RailNode.Proofs.Service.Negotiation

/-
  The deadline of a negotiation, over a run from a start. Every round of a run is one in which the
  standing of the node goes on as its service makes it (`negotiates_of_run`). A negotiation that has
  begun stays what it was in every round before its deadline that does not end it
  (`standing_of_opens`), so in the first round past the deadline the node is back in the mode and
  with the number that it had at the beginning (`KeepsDeadline`).
-/
namespace RailNode

/-! ## Going back -/

namespace Standing

variable {now limit : Time} {x z : Standing} {acks : List Action}

/-- What a negotiation that begins now has to go back to. -/
def origin (now : Time) (x : Standing) : Negotiation := ⟨now, x.mode, x.number⟩

/-- Giving up the negotiation that has begun restores the mode and the number before it. -/
theorem leave_enter (now : Time) (x : Standing) :
    ((x.enter now).leave (x.origin now)).mode = x.mode ∧
      ((x.enter now).leave (x.origin now)).number = x.number := by
  refine ⟨mode_leave _ _, ?_⟩
  unfold leave
  split_ifs <;> rfl

/-- A negotiation that time has left in setup still has time. -/
theorem inTime_of_setup {begun : Time} (h : Expires now limit (x.enter begun) z acks)
    (hx : x.mode ≠ .setup) (hz : z.mode = .setup) :
    Time.elapsed now begun < limit ∧ z = x.enter begun := by
  have htime : Time.elapsed now begun < limit := by
    by_contra hlate
    have hleave := (h.eq_of_late (g := x.origin begun) rfl (Nat.not_lt.1 hlate)).1
    rw [hleave, mode_leave] at hz
    exact hx hz
  exact ⟨htime, (h.eq_of_inTime (g := x.origin begun) rfl htime).1⟩

end Standing

namespace Node

open RailNode.Configuration

variable {n m : Node} {now limit : Time} {o : Outcome} {inputs : List Input} {events : List Event}

/-! ## Rounds -/

namespace Round

/-- The node begins a negotiation in the round. -/
def Opens (r : Round) : Prop :=
  Standing.Opens r.node.nextAction.1 r.node.config.nodeNumber r.node.config.mode

/-- The action of the round ends a negotiation. -/
def Ends (r : Round) : Prop :=
  Standing.Ends r.node.nextAction.1 r.node.config.nodeNumber

/-- The confirmations of a number that the service for it has put in the queue in the round. -/
def confirmations (r : Round) : List Action :=
  (r.node.givenBy .minimumNode r.outcome).filter (·.sends .nnack)

/-- The node comes out of the round in the mode and with the number that it had before the round
    `first`. It has confirmed the number once if it was in normal mode then, and else not. -/
structure Restores (first r : Round) : Prop where
  mode : r.outcome.node.config.mode = first.node.config.mode
  number : r.outcome.node.config.nodeNumber = first.node.config.nodeNumber
  confirmations : r.confirmations = if first.node.config.mode = .normal then
    [.transmit (.addressed Opcode.nnack.byte first.node.config.nodeNumber [])] else []

/-- The standing of the node goes on in the round as its service makes it. -/
def Negotiates (limit : Time) (r : Round) : Prop :=
  Standing.Negotiates r.now limit r.node.nextAction.1 r.node.standing r.outcome.node.standing
    r.confirmations

end Round

/-- No negotiation of these rounds outlives its deadline, and none is given up before it but for one
    of the reasons in `Standing.Ends`. -/
structure KeepsDeadline (limit : Time) (rounds : List Round) : Prop where
  /-- A negotiation that has begun and is not ended keeps the node in setup until its deadline. -/
  goesOn : ∀ {earlier first since later}, rounds = earlier ++ first :: (since ++ later) →
    first.Opens → 0 < limit →
    (∀ r ∈ since, ¬ r.Ends ∧ Time.elapsed r.now first.now < limit) →
    ∀ r ∈ first :: since, r.outcome.node.config.mode = .setup
  /-- In the first round past the deadline the node leaves setup, and goes back to what it was
      unless the action of just that round ends the negotiation. -/
  lapses : ∀ {earlier first since r later}, rounds = earlier ++ first :: (since ++ r :: later) →
    first.Opens → 0 < limit →
    (∀ r ∈ since, ¬ r.Ends ∧ Time.elapsed r.now first.now < limit) →
    limit ≤ Time.elapsed r.now first.now →
    r.outcome.node.config.mode ≠ .setup ∧ (¬ r.Ends → first.Restores r)
  /-- Without any time for it a negotiation is over in the round in which it begins. -/
  lapsesAtOnce : limit = 0 → ∀ first ∈ rounds, first.Opens → first.Restores first
  /-- A node that comes out of a round in setup has begun the negotiation in a round of which the
      deadline is still ahead. -/
  inTime : ∀ {earlier r later}, rounds = earlier ++ r :: later →
    r.outcome.node.config.mode = .setup →
    ∃ before first since, earlier ++ [r] = before ++ first :: since ∧ first.Opens ∧
      (∀ x ∈ since, ¬ x.Ends) ∧ (∀ x ∈ first :: since, Time.elapsed x.now first.now < limit) ∧
      r.outcome.node.minimumNode.negotiation =
        some ⟨first.now, first.node.config.mode, first.node.config.nodeNumber⟩

/-! ## From round to round -/

section Chain

variable {a b : Standing} {first r : Round} {since rounds : List Round}

theorem Round.Opens.mode_ne (h : first.Opens) : first.node.standing.mode ≠ .setup :=
  Standing.Opens.mode_ne (x := first.node.standing) h

theorem Round.restores_of_leave (h : r.outcome.node.standing =
      (first.node.standing.enter first.now).leave (first.node.standing.origin first.now))
    (hacks : r.confirmations = (first.node.standing.origin first.now).confirmations) :
    first.Restores r := by
  obtain ⟨hmode, hnumber⟩ := Standing.leave_enter first.now first.node.standing
  rw [← h] at hmode hnumber
  exact ⟨hmode, hnumber, hacks⟩

/-- The round in which a negotiation begins leaves it begun, if it has any time. -/
theorem standing_of_opens (hr : first.Negotiates limit) (hopens : first.Opens)
    (hlimit : 0 < limit) :
    first.outcome.node.standing = first.node.standing.enter first.now := by
  have hexpires := Standing.Negotiates.of_opens hr hopens
  refine (hexpires.eq_of_inTime (g := first.node.standing.origin first.now) rfl ?_).1
  show first.now - first.now < limit
  rwa [Nat.sub_self]

/-- What a negotiation is, it stays in rounds before its deadline that do not end it. -/
theorem standing_of_goesOn (hands : HandsOn Node.standing (first.node.standing.enter first.now)
      since b) (hall : ∀ r ∈ since, r.Negotiates limit)
    (hsince : ∀ r ∈ since, ¬ r.Ends ∧ Time.elapsed r.now first.now < limit) :
    b = first.node.standing.enter first.now ∧
      ∀ r ∈ since, r.outcome.node.standing = first.node.standing.enter first.now := by
  induction since with
  | nil => exact ⟨(HandsOn.nil_iff.1 hands).symm, fun r hr => absurd hr List.not_mem_nil⟩
  | cons r since ih =>
    obtain ⟨hr, hrest⟩ := HandsOn.cons_iff.1 hands
    rw [List.forall_mem_cons] at hall hsince
    have hsetup : r.node.standing.mode = .setup := by
      rw [← hr]
      rfl
    have hexpires := Standing.Negotiates.of_not_ends hall.1 hsetup hsince.1.1
    rw [← hr] at hexpires
    have hkeeps := (hexpires.eq_of_inTime (g := first.node.standing.origin first.now) rfl
      hsince.1.2).1
    rw [hkeeps] at hrest
    obtain ⟨hlast, hlater⟩ := ih hrest hall.2 hsince.2
    exact ⟨hlast, List.forall_mem_cons.2 ⟨hkeeps, hlater⟩⟩

/-- A negotiation whose deadline has come in a round is over after it. -/
theorem restores_of_late (hr : r.Negotiates limit)
    (hstanding : r.node.standing = first.node.standing.enter first.now)
    (hlate : limit ≤ Time.elapsed r.now first.now) (hends : ¬ r.Ends) : first.Restores r := by
  have hsetup : r.node.standing.mode = .setup := by
    rw [hstanding]
    rfl
  have hexpires := Standing.Negotiates.of_not_ends hr hsetup hends
  rw [hstanding] at hexpires
  obtain ⟨hleave, hacks⟩ :=
    hexpires.eq_of_late (g := first.node.standing.origin first.now) rfl hlate
  exact Round.restores_of_leave hleave hacks

/-- A node that was not in setup and is there now has begun a negotiation in one of the rounds,
    which has still time after the last of them. -/
theorem exists_opens (hands : HandsOn Node.standing a rounds b)
    (hall : ∀ r ∈ rounds, r.node.standing.Tied ∧ r.Negotiates limit) (ha : a.mode ≠ .setup)
    (hb : b.mode = .setup) :
    ∃ before first since, rounds = before ++ first :: since ∧ first.Opens ∧
      (∀ x ∈ since, ¬ x.Ends) ∧ (∀ x ∈ first :: since, Time.elapsed x.now first.now < limit) ∧
      b = first.node.standing.enter first.now := by
  induction rounds using List.reverseRecOn generalizing b with
  | nil =>
    rw [HandsOn.nil_iff.1 hands] at ha
    exact absurd hb ha
  | append_singleton rounds r ih =>
    obtain ⟨c, hbefore, hlast⟩ := HandsOn.append_iff.1 hands
    obtain ⟨rfl, hnone⟩ := HandsOn.cons_iff.1 hlast
    obtain rfl := HandsOn.nil_iff.1 hnone
    rw [List.forall_mem_append, List.forall_mem_singleton] at hall
    obtain ⟨hall, htied, hr⟩ := hall
    by_cases hm : r.node.standing.mode = .setup
    · -- The negotiation is older than the round, and goes on in it.
      obtain ⟨before, first, since, rfl, hopens, hgoesOn, htimes, hstanding⟩ :=
        ih hbefore hall hm
      have hends : ¬ r.Ends := fun hends => Standing.Negotiates.of_ends hr hm hends hb
      have hexpires := Standing.Negotiates.of_not_ends hr hm hends
      rw [hstanding] at hexpires
      obtain ⟨htime, hkeeps⟩ := Standing.inTime_of_setup hexpires hopens.mode_ne hb
      refine ⟨before, first, since ++ [r], by rw [List.append_assoc, List.cons_append], hopens, ?_,
        ?_, hkeeps⟩
      · rw [List.forall_mem_append, List.forall_mem_singleton]
        exact ⟨hgoesOn, hends⟩
      · rw [← List.cons_append, List.forall_mem_append, List.forall_mem_singleton]
        exact ⟨htimes, htime⟩
    · have hopens : r.Opens := by
        by_contra hopens
        rw [(Standing.Negotiates.of_idle hr htied hm hopens).1] at hb
        exact hm hb
      obtain ⟨htime, hkeeps⟩ :=
        Standing.inTime_of_setup (Standing.Negotiates.of_opens hr hopens) hm hb
      refine ⟨rounds, r, [], rfl, hopens, fun x hx => absurd hx List.not_mem_nil, ?_, hkeeps⟩
      rw [List.forall_mem_singleton]
      exact htime

/-- Rounds that hand the standing on, each as the service for the number makes it. -/
structure Negotiated (limit : Time) (a : Standing) (rounds : List Round) (b : Standing) : Prop where
  hands : HandsOn Node.standing a rounds b
  each : ∀ r ∈ rounds, r.node.standing.Tied ∧ r.Negotiates limit

namespace Negotiated

variable {earlier later : List Round}

/-- What a round leaves is what the rounds after it begin with. -/
theorem behind (h : Negotiated limit a (earlier ++ first :: later) b) :
    first.Negotiates limit ∧ Negotiated limit first.outcome.node.standing later b := by
  obtain ⟨c, _, hlater⟩ := HandsOn.append_iff.1 h.hands
  have hall := h.each
  rw [List.forall_mem_append, List.forall_mem_cons] at hall
  exact ⟨hall.2.1.2, (HandsOn.cons_iff.1 hlater).2, hall.2.2⟩

/-- As long as time has not run out, rounds that do not end a negotiation leave it begun. -/
theorem standing_of_since
    (h : Negotiated limit a (earlier ++ first :: (since ++ later)) b) (hopens : first.Opens)
    (hlimit : 0 < limit)
    (hsince : ∀ r ∈ since, ¬ r.Ends ∧ Time.elapsed r.now first.now < limit) :
    HandsOn Node.standing (first.node.standing.enter first.now) later b ∧
      ∀ r ∈ first :: since, r.outcome.node.standing = first.node.standing.enter first.now := by
  obtain ⟨hfirst, hrest⟩ := h.behind
  have hstanding := standing_of_opens hfirst hopens hlimit
  have hhands := hrest.hands
  rw [hstanding] at hhands
  obtain ⟨c, hduring, hthen⟩ := HandsOn.append_iff.1 hhands
  obtain ⟨rfl, hkept⟩ := standing_of_goesOn hduring
    (fun r hr => (hrest.each r (List.mem_append_left _ hr)).2) hsince
  exact ⟨hthen, List.forall_mem_cons.2 ⟨hstanding, hkept⟩⟩

theorem lapses (h : Negotiated limit a (earlier ++ first :: (since ++ r :: later)) b)
    (hopens : first.Opens) (hlimit : 0 < limit)
    (hsince : ∀ r ∈ since, ¬ r.Ends ∧ Time.elapsed r.now first.now < limit)
    (hlate : limit ≤ Time.elapsed r.now first.now) :
    r.outcome.node.config.mode ≠ .setup ∧ (¬ r.Ends → first.Restores r) := by
  obtain ⟨hthen, _⟩ := h.standing_of_since hopens hlimit hsince
  have hr := (h.behind.2.each r (List.mem_append_right _ List.mem_cons_self)).2
  have hstanding : r.node.standing = first.node.standing.enter first.now :=
    (HandsOn.cons_iff.1 hthen).1.symm
  have hrestores := restores_of_late hr hstanding hlate
  refine ⟨?_, hrestores⟩
  by_cases hends : r.Ends
  · refine Standing.Negotiates.of_ends hr ?_ hends
    rw [hstanding]
    rfl
  · rw [(hrestores hends).mode]
    exact hopens.mode_ne

theorem lapsesAtOnce (h : Negotiated 0 a rounds b) (hfirst : first ∈ rounds)
    (hopens : first.Opens) : first.Restores first := by
  have hexpires := Standing.Negotiates.of_opens (h.each first hfirst).2 hopens
  obtain ⟨hleave, hacks⟩ :=
    hexpires.eq_of_late (g := first.node.standing.origin first.now) rfl (Nat.zero_le _)
  exact Round.restores_of_leave hleave hacks

theorem inTime (h : Negotiated limit a (earlier ++ r :: later) b) (ha : a.mode ≠ .setup)
    (hsetup : r.outcome.node.config.mode = .setup) :
    ∃ before first since, earlier ++ [r] = before ++ first :: since ∧ first.Opens ∧
      (∀ x ∈ since, ¬ x.Ends) ∧ (∀ x ∈ first :: since, Time.elapsed x.now first.now < limit) ∧
      r.outcome.node.standing = first.node.standing.enter first.now := by
  obtain ⟨c, hbefore, hlater⟩ := HandsOn.append_iff.1 h.hands
  obtain ⟨hr, _⟩ := HandsOn.cons_iff.1 hlater
  have hends : HandsOn Node.standing a (earlier ++ [r]) r.outcome.node.standing :=
    HandsOn.append_iff.2 ⟨c, hbefore, HandsOn.cons_iff.2 ⟨hr, HandsOn.nil_iff.2 rfl⟩⟩
  refine exists_opens hends (fun x hx => h.each x ?_) ha hsetup
  rw [← List.singleton_append, ← List.append_assoc]
  exact List.mem_append_left _ hx

end Negotiated

end Chain

/-! ## Runs -/

/-- A node with one service for its number whose standing is tied to its negotiation. -/
structure Tied (n : Node) : Prop where
  hasOne : n.HasOne .minimumNode
  standing : n.standing.Tied

theorem Tied.negotiates (hn : n.Tied) (h : n.cycle now = .ok o) :
    Round.Negotiates n.timing.negotiationLimit ⟨now, n, o⟩ := by
  obtain ⟨p, t, rfl, v⟩ := hn.hasOne.exists_minimumVisit h
  have htied : (Standing.of n.minimumNode p.found.config).Tied := by
    rw [v.standing_found]
    exact hn.standing
  obtain ⟨acks, hnegotiates, hsent⟩ := MinimumNode.negotiates_turn v.turn htied
  have hacks : (⟨now, n, p.outcome⟩ : Round).confirmations = acks := by
    rw [Round.confirmations, v.given]
    exact hsent
  rw [Round.Negotiates, hacks]
  show Standing.Negotiates _ _ _ n.standing p.outcome.node.standing _
  rw [v.standing_outcome, ← v.standing_found]
  exact hnegotiates

theorem Moves.tied (h : n.Moves m events) (hn : n.Tied) : m.Tied := by
  refine ⟨h.hasOne hn.hasOne, ?_⟩
  rcases h.sameCore with ⟨hcore, _⟩ | ⟨t, o, hcycle, rfl, _⟩
  · rw [hcore.standing_eq]
    exact hn.standing
  · exact Standing.Negotiates.tied (hn.negotiates hcycle) hn.standing

/-- The rounds of a run hand the standing on as the service for the number makes it. -/
theorem negotiates_of_run (hn : n.Tied) (h : n.run inputs = some (m, events)) :
    ∀ r ∈ rounds events, r.node.standing.Tied ∧ r.Negotiates n.timing.negotiationLimit := by
  intro r hr
  obtain ⟨⟨htied, htiming⟩, hcycle⟩ := forall_rounds
    (R := fun m => m.Tied ∧ m.timing = n.timing) h
    (fun hmoves hm => ⟨hmoves.tied hm.1, hmoves.timing.trans hm.2⟩) ⟨hn, rfl⟩ r hr
  rw [← htiming]
  exact ⟨htied.standing, htied.negotiates hcycle⟩

theorem Tied.keepsDeadline (hn : n.Tied) (hm : n.config.mode ≠ .setup)
    (h : n.run inputs = some (m, events)) :
    KeepsDeadline n.timing.negotiationLimit (rounds events) := by
  have hrounds : Negotiated n.timing.negotiationLimit n.standing (rounds events) m.standing :=
    ⟨handsOn_of_run (g := Node.standing) SameCore.standing_eq h, negotiates_of_run hn h⟩
  refine ⟨?_, ?_, ?_, ?_⟩
  · intro earlier first since later hsplit hopens hlimit hsince r hr
    rw [hsplit] at hrounds
    exact congrArg Standing.mode ((hrounds.standing_of_since hopens hlimit hsince).2 r hr)
  · intro earlier first since r later hsplit hopens hlimit hsince hlate
    rw [hsplit] at hrounds
    exact hrounds.lapses hopens hlimit hsince hlate
  · intro hlimit first hmem hopens
    rw [hlimit] at hrounds
    exact hrounds.lapsesAtOnce hmem hopens
  · intro earlier r later hsplit hsetup
    rw [hsplit] at hrounds
    obtain ⟨before, first, since, heq, hopens, hgoesOn, htimes, hstanding⟩ :=
      hrounds.inTime hm hsetup
    exact ⟨before, first, since, heq, hopens, hgoesOn, htimes,
      congrArg Standing.negotiation hstanding⟩

/-- A node that has just started is not in setup, whatever its store holds. -/
theorem tied_of_boot {b : Build} {format : Bool} {d : Device} (hb : b.HasOne .minimumNode)
    (hboot : (d.boot b format).1 = .running n) : n.Tied ∧ n.config.mode ≠ .setup := by
  have hstart := startsFrom_of_boot hboot
  have hboots := Device.boots_boot b format d
  rw [hboot] at hboots
  have hmode : n.config.mode ≠ .setup := by
    cases hboots with
    | started c n _ _ _ hconfig _ _ =>
      rw [hconfig, mode_load]
      exact startMode_ne_setup _ _
  refine ⟨⟨hstart.hasOne hb, .of_none ?_ hmode⟩, hmode⟩
  show n.minimumNode.negotiation = none
  rw [hstart.minimumNode_eq hb]

/-- Over a run from a start, whatever the traffic and the times of the cycles are, no negotiation
    outlives its deadline: the node leaves setup in the first round past it, and is then what it was
    before. The next cycle always comes to its end unless a message restarts the device. -/
theorem keepsDeadline_of_run {b : Build} {format : Bool} {d : Device}
    (hb : b.HasOne .minimumNode) (hboot : (d.boot b format).1 = .running n)
    (h : n.run inputs = some (m, events)) :
    KeepsDeadline n.timing.negotiationLimit (rounds events) ∧
      ∀ now, (∀ x, (m.facts now).received? = some x →
        x.opcode? ≠ some .nnrst ∧ x.opcode? ≠ some .nnrsm) → ∃ o, m.cycle now = .ok o := by
  obtain ⟨htied, hmode⟩ := tied_of_boot hb hboot
  have hsound : n.Sound := (startsFrom_of_boot hboot).sound hb.isNew
  exact ⟨htied.keepsDeadline hmode h,
    fun now => (run_preserves h (fun hmoves => hmoves.sound) hsound).exists_cycle now⟩

/-- A small node gets the number 300 and is asked to negotiate another, and nobody answers. -/
def unansweredInputs : List Input :=
  let actions := [.advanceMode, .received (.addressed Opcode.snn.byte 300 []), .renegotiate]
  let limit := Timing.standard.negotiationLimit
  (actions.map fun a => .ask (.put a)) ++ [0, 0, 0, limit - 1, limit].map .cycle

/-- The node is in setup until the deadline, and then goes back to its number and confirms it. -/
theorem keepsDeadline_of_unansweredInputs : ∃ m events,
    small.run unansweredInputs = some (m, events) ∧
      ((rounds events).map fun r => (r.outcome.node.config.mode, r.confirmations.length)) =
        [(.setup, 0), (.normal, 1), (.setup, 0), (.setup, 0), (.normal, 1)] ∧
      m.config.nodeNumber = 300 ∧
      KeepsDeadline small.timing.negotiationLimit (rounds events) := by
  have hrun : ((small.run unansweredInputs).any fun x =>
      (rounds x.2).map (fun r => (r.outcome.node.config.mode, r.confirmations.length)) ==
          [(.setup, 0), (.normal, 1), (.setup, 0), (.setup, 0), (.normal, 1)] &&
        x.1.config.nodeNumber == 300) = true := by
    decide +kernel
  obtain ⟨m, events, hm, hp⟩ := exists_run hrun
  simp only [Bool.and_eq_true, beq_iff_eq] at hp
  exact ⟨m, events, hm, hp.1, hp.2,
    (keepsDeadline_of_run (Device.hasOne_smallBuild (by decide)) boot_small hm).1⟩

end Node

end RailNode
