import RailNode.Node
import RailNode.Proofs.Service.Edits

/-
  What the turns of a cycle do to the configuration, one entry after the other. A cycle that comes
  to its end has made edits in the parts of its services. One that ends in a restart has made
  some of them, and leaves what they led to or the factory reset of it.
-/
namespace RailNode.Node

open RailNode.Configuration

/-! ## The turn of an entry -/

variable {c : Cycle} {position : Nat} {e e' : Entry} {shared shared' : Shared}
  {trace : EntryTrace} {es : List Entry} {r : List (Entry × EntryTrace) × Shared} {x : Halt}
  {A : List Part}

/-- The turn of an entry is that of its service; what the reporter adds leaves the
    configuration. -/
theorem entryTurn_eq_ok (h : entryTurn c position e shared = .ok ((e', trace), shared')) :
    ∃ t, Service.turn c { self := e.service, shared } = .ok t ∧ e'.service = t.self ∧
      trace.service = t.trace ∧ shared'.config = t.config := by
  obtain ⟨t, ht, h⟩ := bind_eq_ok_iff.1 h
  have heq := Except.ok.inj h
  refine ⟨t, ht, ?_, ?_, ?_⟩
  · rw [← congrArg (·.1.1.service) heq]
  · rw [← congrArg (·.1.2.service) heq]
  · rw [← congrArg (·.2.config) heq]
    exact Reporter.config_turn c t.self position _

theorem entryTurn_eq_error (h : entryTurn c position e shared = .error x) :
    Service.turn c { self := e.service, shared } = .error x := by
  rcases bind_eq_error_iff.1 h with h | ⟨_, _, h⟩
  · exact h
  · contradiction

theorem edits_entryTurn (h : entryTurn c position e shared = .ok ((e', trace), shared')) :
    Edits e.service.parts shared.config shared'.config := by
  obtain ⟨t, ht, _, _, hconfig⟩ := entryTurn_eq_ok h
  rw [hconfig]
  exact Service.edits_turn ht

theorem id_entryTurn (h : entryTurn c position e shared = .ok ((e', trace), shared')) :
    e'.service.id = e.service.id := by
  obtain ⟨t, ht, hself, _, _⟩ := entryTurn_eq_ok h
  rw [hself]
  exact Service.id_turn ht

/-! ## The turns of a list of entries -/

theorem turns_cons_eq_ok (h : turns c position shared (e :: es) = .ok r) :
    ∃ e' trace between rest last, entryTurn c position e shared = .ok ((e', trace), between) ∧
      turns c (position + 1) between es = .ok (rest, last) ∧ r = ((e', trace) :: rest, last) := by
  obtain ⟨⟨⟨e', trace⟩, between⟩, he, h⟩ := bind_eq_ok_iff.1 h
  obtain ⟨⟨rest, last⟩, hrest, h⟩ := bind_eq_ok_iff.1 h
  exact ⟨e', trace, between, rest, last, he, hrest, (Except.ok.inj h).symm⟩

theorem turns_cons_eq_error (h : turns c position shared (e :: es) = .error x) :
    entryTurn c position e shared = .error x ∨
      ∃ r, entryTurn c position e shared = .ok r ∧
        turns c (position + 1) r.2 es = .error x := by
  rcases bind_eq_error_iff.1 h with h | ⟨r, he, h⟩
  · exact Or.inl h
  · refine Or.inr ⟨r, he, ?_⟩
    rcases bind_eq_error_iff.1 h with h | ⟨_, _, h⟩
    · exact h
    · contradiction

/-- The turns of two lists are those of the first and then those of the second. -/
theorem turns_append_eq_ok {before after : List Entry}
    (h : turns c position shared (before ++ after) = .ok r) :
    ∃ first between second last, turns c position shared before = .ok (first, between) ∧
      turns c (position + before.length) between after = .ok (second, last) ∧
      r = (first ++ second, last) := by
  induction before generalizing position shared r with
  | nil => exact ⟨[], shared, r.1, r.2, rfl, h, rfl⟩
  | cons e before ih =>
    obtain ⟨e', trace, next, rest, last, he, hrest, rfl⟩ := turns_cons_eq_ok h
    obtain ⟨first, between, second, last', hfirst, hsecond, heq⟩ := ih hrest
    obtain ⟨rfl, rfl⟩ := Prod.mk.inj heq
    refine ⟨(e', trace) :: first, between, second, last, ?_, ?_, rfl⟩
    · rw [turns, he]
      simp only [bind, Except.bind, hfirst]
      rfl
    · rwa [List.length_cons, Nat.add_comm before.length, ← Nat.add_assoc]

/-- What edits the turn of every entry makes, their turns one after the other make. -/
theorem edits_turns_of (h : turns c position shared es = .ok r)
    (hA : ∀ e ∈ es, ∀ {found : Shared} {t : Turn Service},
      Service.turn c { self := e.service, shared := found } = .ok t →
        Edits A found.config t.config) :
    Edits A shared.config r.2.config := by
  induction es generalizing position shared r with
  | nil =>
    rw [← Except.ok.inj h]
  | cons e es ih =>
    obtain ⟨e', trace, between, rest, last, he, hrest, rfl⟩ := turns_cons_eq_ok h
    obtain ⟨t, ht, -, -, hconfig⟩ := entryTurn_eq_ok he
    have hfirst := hA e List.mem_cons_self ht
    have hlater := ih hrest fun e he => hA e (List.mem_cons_of_mem _ he)
    rw [hconfig] at hlater
    exact hfirst.trans hlater

theorem edits_turns (h : turns c position shared es = .ok r)
    (hA : ∀ e ∈ es, e.service.parts ⊆ A) : Edits A shared.config r.2.config :=
  edits_turns_of h fun e he {_ _} ht => (Service.edits_turn ht).mono (hA e he)

theorem leaves_turns (h : turns c position shared es = .error x)
    (hA : ∀ e ∈ es, e.service.parts ⊆ A) :
    ∃ d, Edits A shared.config d ∧ x.Leaves d := by
  induction es generalizing position shared with
  | nil => contradiction
  | cons e es ih =>
    rcases turns_cons_eq_error h with he | ⟨⟨⟨e', trace⟩, between⟩, he, hrest⟩
    · exact ⟨shared.config, .refl, Service.leaves_turn (entryTurn_eq_error he)⟩
    · obtain ⟨d, hd, hx⟩ := ih hrest fun e he => hA e (List.mem_cons_of_mem _ he)
      exact ⟨d, ((edits_entryTurn he).mono (hA e List.mem_cons_self)).trans hd, hx⟩

theorem length_turns (h : turns c position shared es = .ok r) : r.1.length = es.length := by
  induction es generalizing position shared r with
  | nil => rw [← Except.ok.inj h, List.length_nil, List.length_nil]
  | cons e es ih =>
    obtain ⟨e', trace, between, rest, last, he, hrest, rfl⟩ := turns_cons_eq_ok h
    rw [List.length_cons, List.length_cons, ih hrest]

theorem ids_turns (h : turns c position shared es = .ok r) :
    r.1.map (·.1.service.id) = es.map (·.service.id) := by
  induction es generalizing position shared r with
  | nil => rw [← Except.ok.inj h, List.map_nil, List.map_nil]
  | cons e es ih =>
    obtain ⟨e', trace, between, rest, last, he, hrest, rfl⟩ := turns_cons_eq_ok h
    rw [List.map_cons, List.map_cons, ih hrest, id_entryTurn he]

/-! ## The cycle -/

variable {n : Node} {now : Time}

/-- What the services can know of the cycle that comes next. -/
def facts (now : Time) (n : Node) : Cycle where
  now
  action := n.nextAction.1
  services := n.services
  parameters := n.parameters
  timing := n.timing

/-- What the first service of the next cycle finds. -/
def opening (n : Node) : Shared where
  config := n.config
  link := n.link
  queue := n.nextAction.2

/-- What the turns of the entries make of a node. -/
def outcome (n : Node) (r : List (Entry × EntryTrace) × Shared) : Outcome where
  node :=
    { n with
      config := r.2.config
      link := r.2.link
      queue := r.2.queue
      entries := r.1.map (·.1)
      indication := indicate n.indication n.nextAction.1 }
  traces := r.1.map (·.2)

theorem cycle_eq (now : Time) (n : Node) :
    n.cycle now = (turns (n.facts now) 1 n.opening n.entries).map n.outcome := by
  unfold cycle
  rcases h : turns (n.facts now) 1 n.opening n.entries with x | r
  · exact congrArg (fun y => y >>= _) h
  · exact congrArg (fun y => y >>= _) h

theorem cycle_eq_ok {o : Outcome} (h : n.cycle now = .ok o) :
    ∃ r, turns (n.facts now) 1 n.opening n.entries = .ok r ∧ n.outcome r = o := by
  rw [cycle_eq] at h
  exact map_eq_ok_iff.1 h

theorem cycle_eq_error (h : n.cycle now = .error x) :
    turns (n.facts now) 1 n.opening n.entries = .error x := by
  rw [cycle_eq] at h
  exact map_eq_error_iff.1 h

/-- The parts that services may change at all. -/
def parts : List Part :=
  [.mode, .number, .address, .flags, .learning, .nodeVariables, .records, .index]

theorem parts_subset (s : Service) : s.parts ⊆ parts := by
  cases s <;> simp only [Service.parts] <;> decide

theorem edits_cycle {o : Outcome} (h : n.cycle now = .ok o) :
    Edits parts n.config o.node.config := by
  obtain ⟨r, hr, rfl⟩ := cycle_eq_ok h
  exact edits_turns hr fun e _ => parts_subset e.service

theorem leaves_cycle (h : n.cycle now = .error x) :
    ∃ d, Edits parts n.config d ∧ x.Leaves d :=
  leaves_turns (cycle_eq_error h) fun e _ => parts_subset e.service

theorem ids_cycle {o : Outcome} (h : n.cycle now = .ok o) :
    o.node.entries.map (·.service.id) = n.entries.map (·.service.id) := by
  obtain ⟨r, hr, rfl⟩ := cycle_eq_ok h
  rw [← ids_turns hr, outcome, List.map_map]
  rfl

end RailNode.Node
