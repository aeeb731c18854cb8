import RailNode.Proofs.Device.EventIndex
import RailNode.Proofs.Device.LearnedEvents
import RailNode.Proofs.Node.Stops
import RailNode.Proofs.Service.Reports

/-
  The reports of the event table over runs of a device. Every report of a run is true at the moment
  when it is queued, unless a list of variables goes on after its slot has been freed
  (`reportsTruly_iff`). Such a list tells erased variables of the erased event.
-/
namespace RailNode

open RailNode.Configuration

namespace Node

/-! ## Stops -/

/-- What the service for events reports at this stop is true. -/
def Stop.Truthful (c : Cycle) (s : Stop) : Prop :=
  s.entry.service.id = .teaching → ∀ x ∈ (s.trace c).service.queued, x.Truthful

/-- At this stop a report is due of a list about a slot that is free by then. -/
def Stop.PollsFreed (c : Cycle) (s : Stop) : Prop :=
  ∃ teaching u, s.entry.service = .teaching teaching ∧
    Teaching.prepare c { self := teaching, shared := s.found } = .ok u ∧ Teaching.PollsFreed c u

namespace Stop

variable {c : Cycle} {s : Stop} {teaching : Teaching}

theorem turn_teaching (h : s.entry.service = .teaching teaching) : s.turn c =
    (Teaching.turn c { self := teaching, shared := s.found }).map (Turn.map Service.teaching) := by
  unfold turn Service.turn
  rw [h]
  rfl

/-- Where the service for events has its turn, this is about what it has prepared. -/
theorem pollsFreed_iff (h : s.entry.service = .teaching teaching) : s.PollsFreed c ↔
    ∃ u, Teaching.prepare c { self := teaching, shared := s.found } = .ok u ∧
      Teaching.PollsFreed c u := by
  constructor
  · rintro ⟨teaching', u, h', hu, hfreed⟩
    obtain rfl := Service.teaching.inj (h.symm.trans h')
    exact ⟨u, hu, hfreed⟩
  · rintro ⟨u, hu, hfreed⟩
    exact ⟨teaching, u, h, hu, hfreed⟩

theorem truthful_iff (hc : s.found.config.IndexAgrees)
    (hranges : s.entry.service.Ranges s.found.config.layout) :
    s.Truthful c ↔ ¬ s.PollsFreed c := by
  by_cases hid : s.entry.service.id = .teaching
  · obtain ⟨teaching, hteaching⟩ := Teaching.exists_teaching hid
    have hturn := turn_teaching (c := c) hteaching
    rw [hteaching] at hranges
    rw [pollsFreed_iff hteaching]
    rcases ht : Teaching.turn c { self := teaching, shared := s.found } with x | t
    · rw [ht] at hturn
      refine iff_of_true (fun _ x hx => ?_) ?_
      · change x ∈ (told (s.turn c)).queued at hx
        rw [hturn, Teaching.eq_fault_of_turn ht] at hx
        exact absurd hx List.not_mem_nil
      · rintro ⟨u, hu, -⟩
        have hok := Teaching.turn_eq_ok_iff.2 ⟨u, hu, rfl⟩
        rw [ht] at hok
        contradiction
    · rw [ht] at hturn
      obtain ⟨u, hu, -⟩ := Teaching.turn_eq_ok_iff.1 ht
      have htruthful : s.Truthful c ↔ t.Truthful := by
        show (_ → ∀ x ∈ (told (s.turn c)).queued, x.Truthful) ↔ _
        rw [forall_prop_of_true hid, hturn]
        rfl
      rw [htruthful, Teaching.truthful_turn_iff
        (t := { self := teaching, shared := s.found }) rfl hc hranges hu ht]
      refine not_congr ⟨fun hfreed => ⟨u, hu, hfreed⟩, ?_⟩
      rintro ⟨u', hu', hfreed⟩
      exact Except.ok.inj (hu.symm.trans hu') ▸ hfreed
  · refine iff_of_true (fun h => absurd h hid) ?_
    rintro ⟨teaching, _, hteaching, _⟩
    exact hid (by rw [hteaching]; rfl)

end Stop

/-! ## Nodes -/

/-- The lists of variables of the services for events are in range. -/
def Ranges (n : Node) : Prop := ∀ e ∈ n.entries, e.service.Ranges n.config.layout

variable {n m : Node} {now : Time} {o : Outcome}

theorem layout_turns {c : Cycle} {position : Nat} {shared : Shared} {es : List Entry}
    {r : List (Entry × EntryTrace) × Shared} (h : turns c position shared es = .ok r) :
    r.2.config.layout = shared.config.layout :=
  (edits_turns h fun e _ => parts_subset e.service).changesOnly.layout

namespace Ranges

theorem cycle (hn : n.Ranges) (h : n.cycle now = .ok o) : o.node.Ranges := by
  obtain ⟨r, hr, rfl⟩ := cycle_eq_ok h
  intro e he
  obtain ⟨x, hx, rfl⟩ := List.mem_map.1 he
  obtain ⟨first, e, after, r', left, hsplit, hfirst, hturn⟩ := exists_of_mem_turns hr hx
  obtain ⟨t, ht, hself, -⟩ := entryTurn_eq_ok hturn
  have hlayout : r'.2.config.layout = n.config.layout := layout_turns hfirst
  have hmem : e ∈ n.entries := by
    rw [hsplit]
    exact List.mem_append_right _ List.mem_cons_self
  have hranges := Service.ranges_turn (t := { self := e.service, shared := r'.2 }) ht
    (hlayout ▸ hn e hmem)
  show x.1.service.Ranges r.2.config.layout
  rw [hself, layout_turns hr]
  exact hlayout ▸ hranges

theorem sameCore (hn : n.Ranges) (h : n.SameCore m) : m.Ranges := by
  intro e he
  have hmem : e.service.core ∈ n.cores := by
    rw [← h.cores]
    exact List.mem_map.2 ⟨e, he, rfl⟩
  obtain ⟨e', he', heq⟩ := List.mem_map.1 hmem
  rw [h.config, ← Service.ranges_core_iff, ← heq, Service.ranges_core_iff]
  exact hn e' he'

end Ranges

/-- What the next cycle comes to, finds the layout of the node and an index that agrees with the
    records. -/
theorem Reaches.found_eq {s : Stop} (h : n.Reaches now s) :
    Edits parts n.config s.found.config := by
  obtain ⟨first, _, r, _, _, hfirst⟩ := h
  exact edits_turns hfirst fun e _ => parts_subset e.service

/-- What a stop of the next cycle reports is true exactly if no report is due of a list about a slot
    that is free. -/
theorem truthful_iff {s : Stop} (hc : n.config.IndexAgrees) (hranges : n.Ranges)
    (h : n.Reaches now s) : s.Truthful (n.facts now) ↔ ¬ s.PollsFreed (n.facts now) := by
  have hedits := h.found_eq
  refine Stop.truthful_iff (hedits.indexAgrees hc) ?_
  rw [hedits.changesOnly.layout]
  exact hranges s.entry h.mem_entries

end Node

/-! ## Runs -/

namespace Device

variable {d : Device} {inputs : List Input} {n : Node}

/-- What the services for events report in the cycles of a run is true at that moment. -/
def ReportsTruly (d : Device) (inputs : List Input) : Prop :=
  ∀ before now n s, before ++ [.cycle now] <+: inputs → d.run before = some (running n) →
    n.Reaches now s → s.Truthful (n.facts now)

/-- In some cycle of the run a report is due of a list about a slot that is free by then. -/
def PollsFreed (d : Device) (inputs : List Input) : Prop :=
  ∃ before now n s, before ++ [.cycle now] <+: inputs ∧ d.run before = some (running n) ∧
    n.Reaches now s ∧ s.PollsFreed (n.facts now)

theorem ranges_of_run {store : Store} {link : Link}
    (hi : ∀ i ∈ inputs, i.Starts fun b => ∀ s ∈ b.services, s.IsNew)
    (h : (idle store link).run inputs = some (running n)) : n.Ranges := by
  refine run_preserves (P := fun d => ∀ n, d = running n → n.Ranges) h ?_ hi
    (fun _ hidle => nomatch hidle) n rfl
  intro d d' i hi hstep
  refine running_of_moves ?_ (fun hcycle hn => hn.cycle hcycle) (fun hcore hn => hn.sameCore hcore)
    hi (moves_of_step hstep)
  intro b format d n hb hboot
  cases hboot with
  | started c n _ _ _ _ hentries _ =>
    intro e he
    rw [hentries] at he
    obtain ⟨s, hs, rfl⟩ := List.mem_map.1 he
    exact Service.ranges_of_isNew (hb s hs)

/-- In every run, from any store, the service for events reports nothing but what stands in
    occupied slots when it is queued, exactly if it never comes to a list of variables whose slot
    has been freed since the request. -/
theorem reportsTruly_iff {store : Store} {link : Link}
    (hi : ∀ i ∈ inputs, i.Starts fun b => ∀ s ∈ b.services, s.IsNew) :
    (idle store link).ReportsTruly inputs ↔ ¬ (idle store link).PollsFreed inputs := by
  have hiff : ∀ before now n s, before ++ [.cycle now] <+: inputs →
      (idle store link).run before = some (running n) → n.Reaches now s →
      (s.Truthful (n.facts now) ↔ ¬ s.PollsFreed (n.facts now)) := by
    intro before now n s hprefix hrun hreaches
    have hb : before <+: inputs := (List.prefix_append _ _).trans hprefix
    exact Node.truthful_iff (indexAgrees_of_run hrun)
      (ranges_of_run (fun i h => hi i (hb.subset h)) hrun) hreaches
  constructor
  · rintro htruly ⟨before, now, n, s, hprefix, hrun, hreaches, hfreed⟩
    exact (hiff before now n s hprefix hrun hreaches).1
      (htruly before now n s hprefix hrun hreaches) hfreed
  · intro hnone before now n s hprefix hrun hreaches
    refine (hiff before now n s hprefix hrun hreaches).2 fun hfreed => ?_
    exact hnone ⟨before, now, n, s, hprefix, hrun, hreaches, hfreed⟩

/-- A session in which a device learns an event. It is asked for the two variables of the event, and
    has to take the event out before it comes to the second. -/
def freedSession : List Input :=
  eventSession (lesson [⟨1, 1⟩] ++
    [.received (.addressed Opcode.reqev.byte 1 [0, 1, 0]),
      .received (.addressed Opcode.evuln.byte 1 [0, 1])]) 4 ++
    [.cycle (.milliseconds 10)]

/-- In the last cycle the service reports a variable of the erased event, with every slot free. -/
theorem exists_report_freedSession : ∃ before now n s x,
    before ++ [.cycle now] <+: freedSession ∧ eventDevice.run before = some (running n) ∧
    n.Reaches now s ∧ s.entry.service.id = .teaching ∧
    x ∈ (s.trace (n.facts now)).service.queued ∧
    x.item = .transmit (.addressed Opcode.evans.byte 0xffff [0xff, 0xff, 2, 0xff]) ∧
    ∀ slot < x.config.layout.slots, x.config.isFree slot = true := by
  have hrun : ((eventDevice.run freedSession.dropLast).bind node?).any (fun n =>
      (n.entries.map (·.service.id)).count .teaching == 1 &&
        (n.cycle (.milliseconds 10)).toOption.any fun o =>
          (o.traces[(n.before .teaching).length]?).any fun t => t.service.queued.any fun x =>
            x.item == .transmit (.addressed Opcode.evans.byte 0xffff [0xff, 0xff, 2, 0xff]) &&
              (List.range x.config.layout.slots).all x.config.isFree) = true := by
    decide +kernel
  obtain ⟨n, hn, h⟩ := exists_running hrun
  obtain ⟨hone, h⟩ := Bool.and_eq_true_iff.1 h
  obtain ⟨o, ho, h⟩ := Option.any_eq_true _ _ |>.1 h
  obtain ⟨t, ht, h⟩ := Option.any_eq_true _ _ |>.1 h
  obtain ⟨x, hx, h⟩ := List.any_eq_true.1 h
  obtain ⟨hitem, hfree⟩ := Bool.and_eq_true_iff.1 h
  have hone : n.HasOne .teaching := beq_iff_eq.1 hone
  obtain ⟨p, rfl⟩ := hone.exists_passage (toOption_eq_some_iff.1 ho)
  obtain rfl : p.trace = t := Option.some.inj (p.getElem?_traces.symm.trans ht)
  refine ⟨freedSession.dropLast, .milliseconds 10, n, p.stop, x, List.prefix_refl _, hn,
    p.reaches_stop, p.id_entry, ?_, beq_iff_eq.1 hitem, fun slot hslot => ?_⟩
  · rw [p.trace_stop]
    exact hx
  · exact List.all_eq_true.1 hfree slot (List.mem_range.2 hslot)

/-- So there is a stop at which it does not tell the truth. -/
theorem exists_untruthful_freedSession : ∃ before now n s,
    before ++ [.cycle now] <+: freedSession ∧ eventDevice.run before = some (running n) ∧
    n.Reaches now s ∧ ¬ s.Truthful (n.facts now) := by
  obtain ⟨before, now, n, s, x, hprefix, hrun, hreaches, hid, hx, hitem, hfree⟩ :=
    exists_report_freedSession
  refine ⟨before, now, n, s, hprefix, hrun, hreaches, fun htruthful => ?_⟩
  have hreport : Teaching.IsReport x.item :=
    ⟨_, hitem, Or.inr (Or.inl (Message.opcode?_addressed .evans _ _ _))⟩
  exact Emission.not_truthful hreport hfree (htruthful hid x hx)

theorem not_reportsTruly_freedSession : ¬ eventDevice.ReportsTruly freedSession := by
  intro htruly
  obtain ⟨before, now, n, s, hprefix, hrun, hreaches, huntruthful⟩ :=
    exists_untruthful_freedSession
  exact huntruthful (htruly before now n s hprefix hrun hreaches)

/-- It has come to a list of the variables of a slot that has been freed. -/
theorem pollsFreed_freedSession : eventDevice.PollsFreed freedSession := by
  have hstarts : ∀ i ∈ freedSession, i.Starts fun b => ∀ s ∈ b.services, s.IsNew := by
    intro i hi
    rcases List.mem_append.1 hi with hi | hi
    · have hbuild : eventBuild.HasOne .teaching := hasOne_eventBuild (by decide)
      exact starts_eventSession hbuild.isNew _ _ i hi
    · obtain rfl := List.mem_singleton.1 hi
      trivial
  have hiff : eventDevice.ReportsTruly freedSession ↔ ¬ eventDevice.PollsFreed freedSession :=
    reportsTruly_iff hstarts
  by_contra hnone
  obtain ⟨before, now, n, s, hprefix, hrun, hreaches, huntruthful⟩ :=
    exists_untruthful_freedSession
  exact huntruthful (hiff.2 hnone before now n s hprefix hrun hreaches)

end Device

end RailNode
