import RailNode.Proofs.Node.Visit
import RailNode.Proofs.Service.Queueing

/-
  The queue and the link over a cycle. What is in the queue after a cycle is what was in it, without
  the action that was taken, and behind it what the entries have queued in their order
  (`queue_cycle`). An entry other than bus access leaves the link.
-/
namespace RailNode

/-- The state of a service that is bus access. -/
def Service.busAccess? : Service → Option BusAccess
  | busAccess s => some s
  | _ => none

namespace Node

open RailNode.Configuration

/-- The actions that an entry has put in the queue in a cycle. -/
def EntryTrace.actions (t : EntryTrace) : List Action := t.service.actions ++ t.reporter.actions

/-- The frames that an entry has offered to the link in a cycle. -/
def EntryTrace.frames (t : EntryTrace) : List Frame := t.service.frames ++ t.reporter.frames

/-- The actions that have been put in the queue in a cycle. -/
def Outcome.queued (o : Outcome) : List Action := o.traces.flatMap EntryTrace.actions

/-- The frames that have been offered to the link in a cycle. -/
def Outcome.offered (o : Outcome) : List Frame := o.traces.flatMap EntryTrace.frames

/-! ## The turn of an entry -/

variable {c : Cycle} {position : Nat} {e e' : Entry} {shared shared' : Shared}
  {trace : EntryTrace} {es : List Entry} {r : List (Entry × EntryTrace) × Shared}

/-- The turn of an entry is that of its service and then that of its reporter. -/
theorem entryTurn_eq_ok_iff : entryTurn c position e shared = .ok ((e', trace), shared') ↔
    ∃ t : Turn Service, Service.turn c { self := e.service, shared } = .ok t ∧
      ∃ u : Turn Reporter,
        Reporter.turn c t.self position { self := e.reporter, shared := t.shared } = u ∧
        e' = ⟨t.self, u.self⟩ ∧ trace = ⟨t.trace, u.trace⟩ ∧ shared' = u.shared := by
  constructor
  · intro h
    obtain ⟨t, ht, h⟩ := bind_eq_ok_iff.1 h
    have heq := Except.ok.inj h
    exact ⟨t, ht, _, rfl, (congrArg (·.1.1) heq).symm, (congrArg (·.1.2) heq).symm,
      (congrArg (·.2) heq).symm⟩
  · rintro ⟨t, ht, u, rfl, rfl, rfl, rfl⟩
    exact bind_eq_ok_iff.2 ⟨t, ht, rfl⟩

theorem queue_entryTurn (h : entryTurn c position e shared = .ok ((e', trace), shared')) :
    shared'.queue = shared.queue.putAll trace.actions := by
  obtain ⟨t, ht, u, hu, -, rfl, rfl⟩ := entryTurn_eq_ok_iff.1 h
  obtain ⟨as, has, _⟩ := Service.queues_turn ht
  obtain ⟨bs, hbs, _⟩ := (Reporter.speaks_turn c t.self position
    { self := e.reporter, shared := t.shared }).queues
  rw [hu] at hbs
  have hgiven : t.trace.actions = as := has.given
  have hreported : u.trace.actions = bs := hbs.given
  rw [hbs.queue, has.queue, EntryTrace.actions, hgiven, hreported, Backlog.putAll_append]

/-- An entry without bus access leaves the link, and queues no message from the bus. -/
theorem link_entryTurn (h : entryTurn c position e shared = .ok ((e', trace), shared'))
    (hid : e.service.id ≠ .busAccess) :
    shared'.link = shared.link ∧ trace.frames = [] ∧
      ∀ a ∈ trace.actions, a.received? = none := by
  obtain ⟨t, ht, u, hu, -, rfl, rfl⟩ := entryTurn_eq_ok_iff.1 h
  have hservice := Service.speaks_turn ht hid
  have hreporter := Reporter.speaks_turn c t.self position
    { self := e.reporter, shared := t.shared }
  rw [hu] at hreporter
  refine ⟨hreporter.link.trans hservice.link, ?_, fun a ha => ?_⟩
  · unfold EntryTrace.frames Trace.frames
    rw [hservice.offered, hreporter.offered]
    rfl
  · obtain ⟨as, has, hnone⟩ := hservice.adds
    obtain ⟨bs, hbs, hnone'⟩ := hreporter.adds
    have hgiven : t.trace.actions = as := has.given
    have hreported : u.trace.actions = bs := hbs.given
    rw [EntryTrace.actions, hgiven, hreported] at ha
    rcases List.mem_append.1 ha with ha | ha
    · exact (hnone a ha).1
    · exact (hnone' a ha).1

/-- An entry that does not speak with an opcode puts nothing with it in the queue. -/
theorem filter_sends_entryTurn {o : Opcode}
    (h : entryTurn c position e shared = .ok ((e', trace), shared'))
    (hservice : o ∉ e.service.vocabulary ++ Opcode.responses)
    (hreporter : o ∉ Reporter.vocabulary ++ Opcode.responses) :
    trace.actions.filter (·.sends o) = [] := by
  obtain ⟨t, ht, u, rfl, -, rfl, -⟩ := entryTurn_eq_ok_iff.1 h
  have hsilent := (Reporter.speaks_turn c t.self position
    { self := e.reporter, shared := t.shared }).queues.filter_sends hreporter
  rw [EntryTrace.actions, List.filter_append]
  exact List.append_eq_nil_iff.2 ⟨(Service.queues_turn ht).filter_sends hservice, hsilent⟩

/-! ## The turns of a list of entries -/

theorem filter_sends_turns {o : Opcode} (h : turns c position shared es = .ok r)
    (hes : ∀ e ∈ es, o ∉ e.service.vocabulary ++ Opcode.responses)
    (hreporter : o ∉ Reporter.vocabulary ++ Opcode.responses) :
    ((r.1.map (·.2)).flatMap EntryTrace.actions).filter (·.sends o) = [] := by
  induction es generalizing position shared r with
  | nil =>
    rw [← Except.ok.inj h]
    rfl
  | cons e es ih =>
    obtain ⟨e', trace, between, rest, last, he, hrest, rfl⟩ := turns_cons_eq_ok h
    rw [List.forall_mem_cons] at hes
    rw [List.map_cons, List.flatMap_cons, List.filter_append,
      filter_sends_entryTurn he hes.1 hreporter, ih hrest hes.2]
    rfl

theorem queue_turns (h : turns c position shared es = .ok r) :
    r.2.queue = shared.queue.putAll ((r.1.map (·.2)).flatMap EntryTrace.actions) := by
  induction es generalizing position shared r with
  | nil =>
    rw [← Except.ok.inj h]
    rfl
  | cons e es ih =>
    obtain ⟨e', trace, between, rest, last, he, hrest, rfl⟩ := turns_cons_eq_ok h
    have hfirst := queue_entryTurn he
    have hlater := ih hrest
    rw [List.map_cons, List.flatMap_cons, Backlog.putAll_append, ← hfirst]
    exact hlater

theorem link_turns (h : turns c position shared es = .ok r)
    (hid : ∀ e ∈ es, e.service.id ≠ .busAccess) :
    r.2.link = shared.link ∧ (r.1.map (·.2)).flatMap EntryTrace.frames = [] ∧
      ∀ a ∈ (r.1.map (·.2)).flatMap EntryTrace.actions, a.received? = none := by
  induction es generalizing position shared r with
  | nil =>
    rw [← Except.ok.inj h]
    exact ⟨rfl, rfl, nofun⟩
  | cons e es ih =>
    obtain ⟨e', trace, between, rest, last, he, hrest, rfl⟩ := turns_cons_eq_ok h
    obtain ⟨hlink, hframes, hnone⟩ := link_entryTurn he (hid e List.mem_cons_self)
    obtain ⟨hlink', hframes', hnone'⟩ := ih hrest fun x hx => hid x (List.mem_cons_of_mem _ hx)
    refine ⟨hlink'.trans hlink, ?_, fun a ha => ?_⟩
    · rw [List.map_cons, List.flatMap_cons, hframes, hframes', List.append_nil]
    · rw [List.map_cons, List.flatMap_cons] at ha
      rcases List.mem_append.1 ha with ha | ha
      · exact hnone a ha
      · exact hnone' a ha

/-! ## The cycle -/

variable {n : Node} {now : Time} {o : Outcome}

theorem queue_cycle (h : n.cycle now = .ok o) :
    o.node.queue = n.nextAction.2.putAll o.queued := by
  obtain ⟨r, hr, rfl⟩ := cycle_eq_ok h
  exact queue_turns hr

/-- A cycle takes the oldest action from the queue. -/
theorem items_nextAction (n : Node) :
    n.queue.items = n.nextAction.1.toList ++ n.nextAction.2.items := by
  unfold nextAction
  rcases hpop : n.queue.pop? with _ | ⟨a, q⟩
  · exact (Backlog.items_of_pop?_eq_none hpop).trans (by
      simp [Backlog.items_of_pop?_eq_none hpop])
  · exact Backlog.items_of_pop? hpop

theorem timing_cycle (h : n.cycle now = .ok o) : o.node.timing = n.timing := by
  obtain ⟨r, _, rfl⟩ := cycle_eq_ok h
  rfl

/-! ## Bus access -/

/-- The state of the bus access service, of several that of the first. -/
def busAccess (n : Node) : BusAccess :=
  (n.entries.findSome? (·.service.busAccess?)).getD {}

/-- The bus access service that stands behind others is the one that is found. -/
theorem busAccess_eq {before after : List Entry} {e : Entry} {s : BusAccess}
    (hsplit : n.entries = before ++ e :: after) (hs : e.service = .busAccess s)
    (hbefore : ∀ x ∈ before, x.service.id ≠ .busAccess) : n.busAccess = s := by
  have hnone : before.findSome? (·.service.busAccess?) = none := by
    refine List.findSome?_eq_none_iff.2 fun x hx => ?_
    have hid := hbefore x hx
    unfold Service.busAccess?
    split
    · rename_i s' hs'
      exact absurd (by rw [hs']; rfl) hid
    · rfl
  rw [busAccess, hsplit, List.findSome?_append, hnone, Option.none_or, List.findSome?_cons, hs]
  rfl

/-- The parts that services other than bus access may change. -/
def partsBesideBus : List Part :=
  [.mode, .number, .flags, .learning, .nodeVariables, .records, .index]

theorem parts_subset_partsBesideBus {s : Service} (h : s.id ≠ .busAccess) :
    s.parts ⊆ partsBesideBus := by
  cases s with
  | busAccess _ => exact absurd rfl h
  | _ => simp only [Service.parts]; decide

/-- What a cycle of a node is for its only bus access service, which has the turn `t`: nobody else
    touches the link or the bus address, and nobody else queues messages from the bus. -/
structure BusVisit (now : Time) (n : Node) (o : Outcome) (t : Turn BusAccess) : Prop where
  turn : ∃ found : Shared, found.link = n.link ∧ Edits partsBesideBus n.config found.config ∧
    BusAccess.turn (n.facts now) { self := n.busAccess, shared := found } = t
  busAccess : o.node.busAccess = t.self
  link : o.node.link = t.shared.link
  given : n.givenBy .busAccess o = t.given
  received : o.queued.filterMap Action.received? = t.given.filterMap Action.received?
  offered : o.offered = t.trace.frames
  edits : Edits partsBesideBus t.config o.node.config

theorem exists_busVisit (hone : n.HasOne .busAccess) (h : n.cycle now = .ok o) :
    ∃ t, BusVisit now n o t := by
  obtain ⟨p, rfl⟩ := hone.exists_passage h
  obtain ⟨s, hs⟩ := BusAccess.exists_busAccess p.id_entry
  obtain ⟨t, ht, u, hu, hdone, htrace, hleft⟩ := entryTurn_eq_ok_iff.1 p.turn
  have hreporter := Reporter.speaks_turn (n.facts now) t.self
    (1 + (n.before .busAccess).length) { self := p.entry.reporter, shared := t.shared }
  rw [hu] at hreporter
  obtain ⟨hlink, hframes, hnone⟩ := link_turns p.turns_before p.before_ne
  obtain ⟨hlink', hframes', hnone'⟩ := link_turns p.turns_after p.after_ne
  unfold Service.turn at ht
  rw [hs] at ht
  obtain rfl := Except.ok.inj ht
  -- The silence of the others and of the reporter, as facts about what can be filtered out.
  have hquiet : ∀ {as : List Action}, (∀ a ∈ as, a.received? = none) →
      as.filterMap Action.received? = [] := fun h => List.filterMap_eq_nil_iff.2 h
  have hreported : u.trace.actions.filterMap Action.received? = [] := by
    obtain ⟨bs, hbs, hbsnone⟩ := hreporter.adds
    have hgiven : u.trace.actions = bs := hbs.given
    rw [hgiven]
    exact hquiet fun a ha => (hbsnone a ha).1
  refine ⟨BusAccess.turn (n.facts now) { self := s, shared := p.found },
    ⟨⟨p.found, hlink, ?_, ?_⟩, ?_, ?_, ?_, ?_, ?_, ?_⟩⟩
  · exact edits_turns p.turns_before fun x hx => parts_subset_partsBesideBus (p.before_ne x hx)
  · rw [busAccess_eq p.entries hs p.before_ne]
  · exact busAccess_eq p.entries_outcome (by rw [hdone]; rfl) p.first_ne
  · show p.last.link = _
    rw [hlink', hleft, hreporter.link]
    rfl
  · rw [givenBy, p.getElem?_traces, Option.elim_some, htrace]
    rfl
  · rw [Outcome.queued, p.traces_outcome, List.flatMap_append, List.flatMap_cons,
      List.filterMap_append, List.filterMap_append, hquiet hnone, hquiet hnone', htrace,
      EntryTrace.actions, List.filterMap_append, hreported, List.append_nil, List.append_nil,
      List.nil_append]
    rfl
  · rw [Outcome.offered, p.traces_outcome, List.flatMap_append, List.flatMap_cons, hframes,
      hframes', htrace, EntryTrace.frames, Trace.frames, Trace.frames, hreporter.offered,
      List.append_nil, List.nil_append]
    exact List.append_nil _
  · have hedits := edits_turns p.turns_after fun x hx =>
      parts_subset_partsBesideBus (p.after_ne x hx)
    have hconfig : p.left.config =
        (BusAccess.turn (n.facts now) { self := s, shared := p.found }).config := by
      rw [hleft, ← hu]
      exact Reporter.config_turn _ _ _ _
    rw [hconfig] at hedits
    exact hedits

end Node

end RailNode
