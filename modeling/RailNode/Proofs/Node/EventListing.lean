import RailNode.Proofs.Device.LearnedEvents
import RailNode.Proofs.Node.LongAnswers

/-
  The list of the stored events over the life of a node. It is given one report at a time, and the
  table may change between any two of them: slots are freed, filled and filled anew, before and
  behind the one that the list has come to. Still the reports ascend, each is true when it is
  queued, and a slot that stays occupied is reported just once (`listsEvents_of_run`).
-/
namespace RailNode

open Series Turn

/-! ## Turns -/

namespace Teaching

/-- The laws of the list of the events in a turn. -/
structure Lists (st : Stage) (after : Option (Series LongAnswer)) (said : List Action) : Prop where
  opened : st.asked? (.service .teaching) = some .events →
    st.left = some (.start st.cycle.now .events 0 st.opening.layout.slots)
  polled : (∀ s, st.left = some s → s.kind = .events) →
    after = (sweepLeft st.cycle.now st.cycle.timing.replyGap st.shared.config.isFree st.left).2 ∧
      Replies (item? st.shared.config .events) st.said
        (sweepLeft st.cycle.now st.cycle.timing.replyGap st.shared.config.isFree st.left).1 said

variable {c : Cycle} {position : Nat} {found : Shared}

theorem exists_of_stage? {s : Teaching} {st : Stage}
    (h : (Service.teaching s).stage? c position found = some st) :
    ∃ u, prepare c { self := s, shared := found } = .ok u ∧
      st =
        { cycle := c, position, opening := found.config, service := .teaching u.self
          left := u.self.listing.map (relabel EventListing.longAnswer)
          shared := u.shared, said := u.given } := by
  obtain ⟨u, hu, rfl⟩ := Option.map_eq_some_iff.1 h
  exact ⟨u, toOption_eq_some_iff.1 hu, rfl⟩

theorem eq_events_of_longAnswer {k : EventListing} (h : k.longAnswer = .events) : k = .events := by
  cases k with
  | events => rfl
  | _ => contradiction

theorem lists {s : Teaching} {t : Turn Teaching} {st : Stage}
    (h : turn c { self := s, shared := found } = .ok t)
    (hst : (Service.teaching s).stage? c position found = some st) :
    Lists st (Service.teaching t.self).left? t.given := by
  obtain ⟨u, hu, rfl⟩ := exists_of_stage? hst
  obtain ⟨u', hu', rfl⟩ := turn_eq_ok_iff.1 h
  obtain rfl : u' = u := Except.ok.inj (hu'.symm.trans hu)
  refine ⟨fun hasked => ?_, fun hkind => ?_⟩
  · obtain ⟨m, hm, hasked⟩ := Option.bind_eq_some_iff.1 hasked
    obtain ⟨k, hk, hevents⟩ := Option.map_eq_some_iff.1 hasked
    obtain rfl := eq_events_of_longAnswer hevents
    have hk : asked? found.config m = some .events := hk
    have hm : c.received? = some m := hm
    have hlisting : u'.self.listing = some (.start c.now .events 0 found.config.layout.slots) := by
      rw [listing_prepare hu, hm]
      show ((asked? found.config m).map _).or _ = _
      rw [hk]
      rfl
    dsimp only
    rw [hlisting]
    rfl
  · have hnative : ∀ x, u'.self.listing = some x → x.kind = .events := fun x hx =>
      eq_events_of_longAnswer (hkind (x.relabel EventListing.longAnswer) (by
        dsimp only
        rw [hx]
        rfl))
    obtain ⟨hafter, hreplies⟩ := replies_sweepListing (c := c) rfl hnative
    dsimp only
    rw [Service.left?, hafter, sweepLeft_relabel]
    exact ⟨rfl, hreplies⟩

end Teaching

/-! ## Rounds -/

namespace Node

variable {n m : Node} {now : Time} {o : Outcome} {inputs : List Input} {events : List Event}

theorem lists_cycle {st : Stage} (hone : n.HasOne .teaching) (h : n.cycle now = .ok o)
    (hst : n.stage? (.service .teaching) now = some st) :
    Teaching.Lists st (o.node.left? (.service .teaching)) (n.saidBy (.service .teaching) o) := by
  obtain ⟨p, rfl⟩ := hone.exists_passage h
  obtain ⟨s, hs⟩ := Teaching.exists_teaching p.id_entry
  obtain ⟨t, ht, hself, htrace, -⟩ := entryTurn_eq_ok p.turn
  unfold Service.turn at ht
  rw [hs] at ht
  obtain ⟨u, hu, rfl⟩ := map_eq_ok_iff.1 ht
  unfold stage? Speaker.id at hst
  rw [p.entryOf?_eq, Option.bind_some, p.foundBy_eq] at hst
  change p.entry.service.stage? _ _ _ = some st at hst
  rw [hs] at hst
  have hlists := Teaching.lists hu hst
  unfold left? saidBy Speaker.id
  rw [p.entryOf?_outcome, p.getElem?_traces]
  show Teaching.Lists st p.done.service.left? p.trace.service.actions
  rw [hself, htrace]
  exact hlists

namespace Round

variable {r : Round} {x : Pass}

/-- The round is a pass of the list of the events. The numbers that are vacant for it are the slots
    that are free when the service comes to the list. If the pass has a number, the service queues
    the report of this slot: an ENRSP message with the event that is stored there at this moment. It
    queues no other ENRSP message, unless the message of the round is answered by one at once. -/
structure Passes (r : Round) (x : Pass) : Prop where
  now : x.now = r.now
  ended : x.ended = (r.outcome.node.left? (.service .teaching)).isNone
  report : ∃ st, r.stage? (.service .teaching) = some st ∧ x.vacant = st.shared.config.isFree ∧
    Replies (Teaching.item? st.shared.config .events) st.said x.number
      (r.said (.service .teaching))
  alone : ∀ st, r.stage? (.service .teaching) = some st →
    (∀ m, r.offered? = some m → .enrsp ∉ Teaching.repliesTo st.opening m) →
    (r.said (.service .teaching)).filter (·.sends .enrsp) = r.replies .events

/-- A round in which the service comes to the list is a pass of it. -/
theorem exists_passes {started : Time} {slots : Nat} {passes : List Pass} {st : Stage}
    (hone : r.node.HasOne .teaching) (hcycle : r.node.cycle r.now = .ok r.outcome)
    (hst : r.stage? (.service .teaching) = some st)
    (h : Sweeping .events started r.node.timing.replyGap slots passes st.left) :
    ∃ x, r.Passes x ∧
      Sweeping .events started r.node.timing.replyGap slots (passes ++ [x])
        (r.outcome.node.left? (.service .teaching)) ∧
      ∀ s, r.outcome.node.left? (.service .teaching) = some s → s.next < s.stop := by
  obtain ⟨st', hst', hconducts⟩ :=
    exists_conducts (σ := .service .teaching) (a := .events) rfl hone hcycle
  obtain rfl : st' = st := Option.some.inj (hst'.symm.trans hst)
  obtain ⟨hafter, hreplies⟩ := (lists_cycle hone hcycle hst).polled h.kind
  obtain ⟨hfacts, -, -, -⟩ := stage?_eq_some hst'
  have hreceived : st'.cycle.received? = r.offered? := by
    rw [hfacts, received?_facts]
    rfl
  rw [hfacts] at hafter hreplies
  refine ⟨passOf r.now r.node.timing.replyGap st'.shared.config.isFree st'.left,
    ⟨rfl, ?_, ⟨st', hst, rfl, hreplies⟩, ?_⟩, ?_, ?_⟩
  · rw [hafter]
    rfl
  · intro st hst'' hquiet
    obtain rfl : st = st' := Option.some.inj (hst''.symm.trans hst)
    rw [← hreceived] at hquiet
    have hnothing : st.said.filter (·.sends .enrsp) = [] := hconducts.quiet .events rfl hquiet
    have hfilter := LongAnswer.filter_owns_of_replies (a := .events) hreplies
    rw [Round.replies, show r.stage? LongAnswer.events.speaker = some st from hst,
      Option.elim_some]
    refine hfilter.trans ?_
    rw [show st.said.filter (LongAnswer.owns st.position · .events) = [] from hnothing]
    rfl
  · rw [hafter]
    exact h.poll r.now _
  · rw [hafter]
    exact fun s hs => next_lt_of_sweepLeft hs

end Round

/-- In a run without another request the list goes on as it stands. -/
theorem exists_passes_of_run {started : Time} {n₀ : Node} {passes : List Pass}
    (hone : n₀.HasOne .teaching) (hshape : n₀.SameShape n)
    (h : n.run inputs = some (m, events))
    (hnone : ∀ r ∈ rounds events, r.asked? (.service .teaching) = none)
    (hsweeping : Sweeping .events started n₀.timing.replyGap n₀.config.layout.slots passes
      (n.left? (.service .teaching)))
    (hnext : ∀ s, n.left? (.service .teaching) = some s → s.next < s.stop) :
    ∃ later, List.Forall₂ Round.Passes (rounds events) later ∧
      Sweeping .events started n₀.timing.replyGap n₀.config.layout.slots (passes ++ later)
        (m.left? (.service .teaching)) ∧
      ∀ s, m.left? (.service .teaching) = some s → s.next < s.stop := by
  refine (run_induction (P := fun events m =>
    (∀ r ∈ rounds events, r.asked? (.service .teaching) = none) → n₀.SameShape m ∧
    ∃ later, List.Forall₂ Round.Passes (rounds events) later ∧
      Sweeping .events started n₀.timing.replyGap n₀.config.layout.slots (passes ++ later)
        (m.left? (.service .teaching)) ∧
      ∀ s, m.left? (.service .teaching) = some s → s.next < s.stop) h ?_ ?_ hnone).2
  · exact fun _ => ⟨hshape, [], .nil, by rwa [List.append_nil], hnext⟩
  · intro before now m m' hmoves hbefore hrounds
    rw [rounds_append] at hrounds ⊢
    obtain ⟨hshape, later, hpasses, hsweeping, hnext⟩ :=
      hbefore fun r hr => hrounds r (List.mem_append_left _ hr)
    refine ⟨hshape.trans hmoves.sameShape, ?_⟩
    rcases hmoves.sameCore with ⟨_, hnone⟩ | ⟨t, o, hcycle, rfl, rfl⟩
    · rw [hnone, List.append_nil, hmoves.left hnone]
      exact ⟨later, hpasses, hsweeping, hnext⟩
    · rw [rounds_round]
      have hone' := hshape.hasOne hone
      obtain ⟨st, hst, hconducts⟩ :=
        exists_conducts (σ := .service .teaching) (a := .events) rfl hone' hcycle
      have hleft : st.left = m.left? (.service .teaching) := by
        have hasked := hrounds ⟨t, m, o⟩ (by simp)
        rw [Round.asked?, Round.stage?, hst] at hasked
        exact hconducts.kept hasked
      rw [← hleft, ← hshape.timing] at hsweeping
      obtain ⟨x, hx, hsweeping', hnext'⟩ :=
        Round.exists_passes (r := ⟨t, m, o⟩) hone' hcycle hst hsweeping
      rw [hshape.timing] at hsweeping'
      refine ⟨later ++ [x], List.rel_append hpasses (.cons hx .nil), ?_, hnext'⟩
      rwa [← List.append_assoc]

/-- How the list of the events is given in these rounds, the first of which asks for it. The last
    clause says that it comes to its end: there need to be as many rounds as slots, a gap apart. -/
structure ListsEvents (gap : Time) (slots : Nat) (rs : List Round) (passes : List Pass) :
    Prop where
  rounds : List.Forall₂ Round.Passes rs passes
  sweeps : Sweeps slots passes
  ends : (passes.map Pass.now).Pairwise (· ≤ ·) → ∀ ticks, ticks.Sublist passes → ticks ≠ [] →
    ticks.Pairwise (fun x y => x.now + gap ≤ y.now) → slots ≤ ticks.length →
      ∃ x ∈ passes, x.ended = true

/-- A list of the events that is asked for in the first round of a run is given over the run,
    whatever else happens to the table: in ascending order, each report with what is in its slot
    when it is queued, every slot that stays occupied just once, and nothing after the end. -/
theorem listsEvents_of_run {t : Time} {first : Round} {since : List Event}
    (hone : n.HasOne .teaching)
    (h : n.run (.cycle t :: inputs) = some (m, .round first :: since))
    (hasked : first.asked? (.service .teaching) = some .events)
    (hnone : ∀ r ∈ rounds since, r.asked? (.service .teaching) = none) :
    ∃ passes, ListsEvents n.timing.replyGap n.config.layout.slots (first :: rounds since)
      passes := by
  obtain ⟨o, rfl, hcycle, hrun⟩ := first_of_run h
  obtain ⟨st, hst, hasked⟩ := Option.bind_eq_some_iff.1 hasked
  obtain ⟨hfacts, -, hlayout, -⟩ := stage?_eq_some hst
  have hopened := (lists_cycle hone hcycle hst).opened hasked
  rw [hfacts, hlayout] at hopened
  obtain ⟨x, hx, hsweeping, hnext⟩ := Round.exists_passes (r := ⟨t, n, o⟩) hone hcycle hst
    (hopened ▸ sweeping_start t n.timing.replyGap LongAnswer.events n.config.layout.slots)
  obtain ⟨later, hlater, hsweeping, hnext⟩ := exists_passes_of_run hone
    (Moves.round hcycle).sameShape hrun hnone hsweeping hnext
  rw [List.nil_append, List.singleton_append] at hsweeping
  refine ⟨x :: later, .cons hx hlater, hsweeping.sweeps,
    fun htimes ticks hticks _ hapart hcount => ?_⟩
  refine hsweeping.exists_ended hnext ?_ hticks hapart hcount
  -- The first pass is at the time of the request.
  have hfirst : x.now = t := hx.now
  rw [List.pairwise_cons]
  refine ⟨fun u hu => ?_, htimes⟩
  rw [List.map_cons, hfirst] at hu htimes
  rcases List.mem_cons.1 hu with rfl | hu
  · exact Nat.le_refl _
  · exact (List.pairwise_cons.1 htimes).1 u hu

/-- A node that has learned three events. The messages that wait for it ask for the list, take the
    second event out, and have another filed in its slot. -/
def surveyed : Node :=
  let n := (Device.eventDevice.run
    (Device.eventSession (Device.lesson [⟨1, 1⟩, ⟨1, 5⟩, ⟨1, 3⟩]) 14)).bind Device.node?
  n.get (by decide +kernel)
    |>.put (.received (.addressed Opcode.nerd.byte 0 []))
    |>.put (.received (.addressed Opcode.evuln.byte 1 [0, 5]))
    |>.put (.received (.addressed Opcode.evlrn.byte 1 [0, 4, 1, 9]))

/-- Cycles at the times at which reports are due, and some before the second is. -/
def surveyInputs : List Input := [0, 1, 2, 10, 20, 30].map fun t => .cycle (Time.milliseconds t)

/-- The third event is reported while the second slot, which the list has passed over, is in use
    again. -/
def surveyReplies : List (List Action) :=
  [[.transmit (.addressed Opcode.enrsp.byte 0 [0, 1, 0, 1, 0])], [], [],
    [.transmit (.addressed Opcode.enrsp.byte 0 [0, 1, 0, 3, 2])], [], []]

theorem listsEvents_of_surveyInputs : ∃ first since m passes,
    surveyed.run surveyInputs = some (m, .round first :: since) ∧
    (first :: rounds since).map (Round.replies .events) = surveyReplies ∧
    m.config.isFree 1 = false ∧
    ListsEvents surveyed.timing.replyGap surveyed.config.layout.slots (first :: rounds since)
      passes := by
  have hrun : ((surveyed.run surveyInputs).any fun x =>
      (x.2.head?.bind Event.round?).any fun first =>
        first.asked? (.service .teaching) == some .events &&
        decide (∀ r ∈ rounds x.2.tail, r.asked? (.service .teaching) = none) &&
        (first :: rounds x.2.tail).map (Round.replies .events) == surveyReplies &&
        !x.1.config.isFree 1) = true := by
    decide +kernel
  have hone : surveyed.HasOne .teaching := by
    unfold HasOne
    decide +kernel
  obtain ⟨m, events, hm, hp⟩ := exists_run hrun
  obtain ⟨first, hfirst, hp⟩ := (Option.any_eq_true _ _).1 hp
  obtain ⟨e, hhead, hround⟩ := Option.bind_eq_some_iff.1 hfirst
  obtain rfl := Event.eq_round hround
  obtain ⟨since, rfl⟩ : ∃ since, events = .round first :: since :=
    ⟨_, List.eq_cons_of_mem_head? hhead⟩
  simp only [Bool.and_eq_true, beq_iff_eq, Bool.not_eq_true', List.tail_cons] at hp
  obtain ⟨⟨⟨hasked, hnone⟩, hreplies⟩, hfree⟩ := hp
  obtain ⟨passes, hpasses⟩ := listsEvents_of_run hone hm hasked (of_decide_eq_true hnone)
  exact ⟨first, since, m, passes, hm, hreplies, hfree, hpasses⟩

end Node

end RailNode
