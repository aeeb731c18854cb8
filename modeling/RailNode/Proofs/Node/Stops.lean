import RailNode.Proofs.Device.FactoryReset

/-
  The stops of a cycle: the turns that it comes to, one for each entry, with what the entry finds. A
  restart ends a cycle early, and what the device then leaves tells no more than the turn that
  restarts it. The stops also tell what was given out on the way there (`Reaches`).
-/
namespace RailNode

/-! ## Restarts -/

/-- What a turn has given out, also if it ends in a restart. -/
def told {σ : Type} : Except Halt (Turn σ) → Trace
  | .ok t => t.trace
  | .error (.restart _ trace) => trace
  | .error .fault => {}

/-- The cycle takes an NNRSM message that names the node with this configuration. -/
def Cycle.Resets (c : Cycle) (d : Configuration) : Prop :=
  ∃ m, c.action = some (.received m) ∧ m.opcode? = some .nnrsm ∧ m.nodeNumber? = some d.nodeNumber

/-- A restart leaves everything as the service has found it, or comes after a factory reset. -/
theorem MinimumNode.restart_cases {c : Cycle} {s : MinimumNode} {shared left : Shared}
    {trace : Trace} (h : turn c { self := s, shared } = .error (.restart left trace)) :
    ¬ c.Resets shared.config ∧ left = shared ∧ trace = {} ∨
      c.Resets shared.config ∧ left = shared.released ∧ trace = shared.lastWord := by
  have hrestart := h
  rw [turn_eq] at h
  rcases bind_eq_error_iff.1 h with h | ⟨u, _, h⟩
  · unfold react at h
    split at h
    · contradiction
    · contradiction
    · rename_i m hm
      by_cases hreset : c.Resets shared.config
      · obtain ⟨m', hm', ho, hn⟩ := hreset
        rw [turn_nnrsm hm' ho hn] at hrestart
        obtain ⟨rfl, rfl⟩ := Halt.restart.inj (Except.error.inj hrestart)
        exact Or.inr ⟨⟨m', hm', ho, hn⟩, rfl, rfl⟩
      · unfold handle at h
        split at h
        all_goals try contradiction
        rename_i o _ _ _ _ ho
        split_ifs at h with hnamed
        unfold handleNamed at h
        split at h
        · contradiction
        · obtain ⟨rfl, rfl⟩ := Halt.restart.inj (Except.error.inj h)
          exact Or.inl ⟨hreset, rfl, rfl⟩
        · exact absurd ⟨m, hm, ho, beq_iff_eq.1 hnamed⟩ hreset
        · split at h <;> contradiction
        all_goals contradiction
    · contradiction
  · exact nomatch eq_fault_of_poll h

namespace Node

/-! ## Stops -/

/-- The turn of an entry: the entry, its position, and what it finds. -/
structure Stop where
  position : Nat
  entry : Entry
  found : Shared

namespace Stop

/-- The turn of the service. -/
def turn (c : Cycle) (s : Stop) : Except Halt (Turn Service) :=
  Service.turn c { self := s.entry.service, shared := s.found }

/-- What the service gives out, and its reporter after it. -/
def trace (c : Cycle) (s : Stop) : EntryTrace where
  service := told (s.turn c)
  reporter :=
    match s.turn c with
    | .ok t =>
      (Reporter.turn c t.self s.position { self := s.entry.reporter, shared := t.shared }).trace
    | .error _ => {}

/-- The service resets the node. -/
def Resets (c : Cycle) (s : Stop) : Prop :=
  s.entry.service.id = .minimumNode ∧ c.Resets s.found.config

variable {c : Cycle} {s : Stop}

/-- A reporter says nothing past the queue. -/
theorem offered_reporter (c : Cycle) (s : Stop) : (s.trace c).reporter.offered = [] := by
  unfold trace
  dsimp only
  split
  · exact (Reporter.speaks_turn c _ s.position _).offered
  · rfl

/-- The service resets the node with its release as the last word. -/
theorem turn_of_resets (h : s.Resets c) :
    s.turn c = .error (.restart s.found.released s.found.lastWord) := by
  obtain ⟨hminimum, m, hm, ho, hn⟩ := h
  obtain ⟨minimum, hs⟩ := MinimumNode.exists_minimumNode hminimum
  unfold turn Service.turn
  rw [hs]
  exact congrArg (Except.map (Turn.map Service.minimumNode)) (MinimumNode.turn_nnrsm hm ho hn)

/-- A stop that restarts the device leaves everything as it has found it, or resets the node. -/
theorem restart_cases {left : Shared} {trace : Trace}
    (h : s.turn c = .error (.restart left trace)) :
    ¬ s.Resets c ∧ left = s.found ∧ trace = {} ∨
      s.Resets c ∧ left = s.found.released ∧ trace = s.found.lastWord := by
  obtain ⟨hminimum, _⟩ := Service.turn_eq_restart h
  obtain ⟨minimum, hs⟩ := MinimumNode.exists_minimumNode hminimum
  unfold turn Service.turn at h
  rw [hs] at h
  rcases MinimumNode.restart_cases (map_eq_error_iff.1 h) with ⟨hnone, hleft⟩ | ⟨hresets, hleft⟩
  · exact Or.inl ⟨fun hreset => hnone hreset.2, hleft⟩
  · exact Or.inr ⟨⟨hminimum, hresets⟩, hleft⟩

/-- A service other than bus access says one thing past the queue, before it resets the node. -/
theorem offered_service (hid : s.entry.service.id ≠ .busAccess) (x : Emission Frame) :
    x ∈ (s.trace c).service.offered ↔
      s.Resets c ∧ x = ⟨s.found.config.release, s.found.config⟩ := by
  show x ∈ (told (s.turn c)).offered ↔ _
  rcases hturn : s.turn c with (⟨left, trace⟩ | _) | t
  · rcases restart_cases hturn with ⟨hnone, rfl, rfl⟩ | ⟨hresets, rfl, rfl⟩
    · exact ⟨nofun, fun h => absurd h.1 hnone⟩
    · exact List.mem_singleton.trans ⟨fun h => ⟨hresets, h⟩, fun h => h.2⟩
  · exact ⟨nofun, fun h => nomatch (turn_of_resets h.1).symm.trans hturn⟩
  · have hoffered : t.trace.offered = [] := (Service.speaks_turn hturn hid).offered
    rw [show (told (.ok t)).offered = [] from hoffered]
    exact ⟨nofun, fun h => nomatch (turn_of_resets h.1).symm.trans hturn⟩

end Stop

theorem trace_of_entryTurn {c : Cycle} {position : Nat} {e e' : Entry} {shared left : Shared}
    {trace : EntryTrace} (h : entryTurn c position e shared = .ok ((e', trace), left)) :
    Stop.trace c ⟨position, e, shared⟩ = trace := by
  obtain ⟨t, ht, u, rfl, -, rfl, -⟩ := entryTurn_eq_ok_iff.1 h
  unfold Stop.trace Stop.turn
  dsimp only
  rw [ht]
  rfl

/-- The next cycle comes to this stop. -/
def Reaches (now : Time) (n : Node) (s : Stop) : Prop :=
  ∃ first after r, n.entries = first ++ s.entry :: after ∧ s.position = 1 + first.length ∧
    turns (n.facts now) 1 n.opening first = .ok (r, s.found)

variable {n : Node} {now : Time} {s : Stop}

theorem Reaches.mem_entries (h : n.Reaches now s) : s.entry ∈ n.entries := by
  obtain ⟨first, after, r, hsplit, _⟩ := h
  rw [hsplit]
  exact List.mem_append_right _ List.mem_cons_self

/-- Each of several turns stands behind the turns of those before it. -/
theorem exists_of_mem_turns {c : Cycle} {position : Nat} {shared : Shared} {es : List Entry}
    {r : List (Entry × EntryTrace) × Shared} {x : Entry × EntryTrace}
    (h : turns c position shared es = .ok r) (hx : x ∈ r.1) :
    ∃ first e after r' left, es = first ++ e :: after ∧
      turns c position shared first = .ok r' ∧
      entryTurn c (position + first.length) e r'.2 = .ok (x, left) := by
  induction es generalizing position shared r with
  | nil =>
    rw [← Except.ok.inj h] at hx
    exact nomatch hx
  | cons e es ih =>
    obtain ⟨e', trace, between, rest, last, he, hrest, rfl⟩ := turns_cons_eq_ok h
    rcases List.mem_cons.1 hx with rfl | hx
    · exact ⟨[], e, es, ([], shared), between, rfl, rfl, he⟩
    · obtain ⟨first, e₁, after, ⟨rest', last'⟩, left, rfl, hfirst, hturn⟩ := ih hrest hx
      refine ⟨e :: first, e₁, after, ((e', trace) :: rest', last'), left, rfl, ?_, ?_⟩
      · rw [turns, he]
        simp only [bind, Except.bind, hfirst]
        rfl
      · rwa [List.length_cons, Nat.add_comm first.length, ← Nat.add_assoc]

/-- What the first entries tell that a cycle comes to, their stops have given out. -/
theorem exists_reaches_of_turns {first after : List Entry} {r : List (Entry × EntryTrace) × Shared}
    (hsplit : n.entries = first ++ after)
    (hfirst : turns (n.facts now) 1 n.opening first = .ok r) {x : EntryTrace}
    (hx : x ∈ r.1.map (·.2)) : ∃ s, n.Reaches now s ∧ s.trace (n.facts now) = x := by
  obtain ⟨⟨e', trace⟩, hmem, rfl⟩ := List.mem_map.1 hx
  obtain ⟨before, e, between, r', left, rfl, hbefore, hturn⟩ := exists_of_mem_turns hfirst hmem
  refine ⟨⟨1 + before.length, e, r'.2⟩, ⟨before, between ++ after, r'.1, ?_, rfl, hbefore⟩,
    trace_of_entryTurn hturn⟩
  rw [hsplit, List.append_assoc, List.cons_append]

/-- The turn of the only entry of its kind is a stop. -/
def Passage.stop {id : ServiceId} (p : Passage id now n) : Stop where
  position := 1 + (n.before id).length
  entry := p.entry
  found := p.found

theorem Passage.reaches_stop {id : ServiceId} (p : Passage id now n) : n.Reaches now p.stop :=
  ⟨n.before id, p.after, p.first, p.entries, rfl, p.turns_before⟩

theorem Passage.trace_stop {id : ServiceId} (p : Passage id now n) :
    p.stop.trace (n.facts now) = p.trace := trace_of_entryTurn p.turn

/-- What a cycle that comes to its end tells, its stops have given out. -/
theorem exists_reaches_of_cycle {o : Outcome} (h : n.cycle now = .ok o) {x : EntryTrace}
    (hx : x ∈ o.traces) : ∃ s, n.Reaches now s ∧ s.trace (n.facts now) = x := by
  obtain ⟨r, hr, rfl⟩ := cycle_eq_ok h
  exact exists_reaches_of_turns (List.append_nil _).symm hr hx

/-- The stops of entries, the first of them at this position. -/
def stopsOf (c : Cycle) (position : Nat) (shared : Shared) : List Entry → List Stop
  | [] => []
  | e :: es => ⟨position, e, shared⟩ ::
      (entryTurn c position e shared).toOption.elim [] fun r => stopsOf c (position + 1) r.2 es

/-- The stops of the next cycle, as far as it comes. -/
def stops (now : Time) (n : Node) : List Stop := stopsOf (n.facts now) 1 n.opening n.entries

theorem stopsOf_cons {c : Cycle} {position : Nat} {e : Entry} {shared : Shared}
    {r : (Entry × EntryTrace) × Shared} (h : entryTurn c position e shared = .ok r)
    (es : List Entry) :
    stopsOf c position shared (e :: es) =
      ⟨position, e, shared⟩ :: stopsOf c (position + 1) r.2 es := by
  rw [stopsOf, h]
  rfl

/-- Each of several entries has its stop, with what it has given out. -/
theorem map_stopsOf {c : Cycle} {position : Nat} {shared : Shared} {es : List Entry}
    {r : List (Entry × EntryTrace) × Shared} (h : turns c position shared es = .ok r) :
    (stopsOf c position shared es).map Stop.entry = es ∧
      (stopsOf c position shared es).map Stop.position = List.range' position es.length ∧
      (stopsOf c position shared es).map (Stop.trace c) = r.1.map (·.2) := by
  induction es generalizing position shared r with
  | nil =>
    rw [← Except.ok.inj h]
    exact ⟨rfl, rfl, rfl⟩
  | cons e es ih =>
    obtain ⟨e', trace, between, rest, last, he, hrest, rfl⟩ := turns_cons_eq_ok h
    obtain ⟨hentries, hpositions, htraces⟩ := ih hrest
    rw [stopsOf_cons he, List.map_cons, List.map_cons, List.map_cons, hentries, hpositions,
      htraces, trace_of_entryTurn he]
    exact ⟨rfl, rfl, rfl⟩

theorem exists_of_mem_stopsOf {c : Cycle} {position : Nat} {shared : Shared} {es : List Entry}
    {r : List (Entry × EntryTrace) × Shared} (h : turns c position shared es = .ok r)
    (hs : s ∈ stopsOf c position shared es) :
    ∃ first after r', es = first ++ s.entry :: after ∧ s.position = position + first.length ∧
      turns c position shared first = .ok (r', s.found) := by
  induction es generalizing position shared r with
  | nil => exact absurd hs List.not_mem_nil
  | cons e es ih =>
    obtain ⟨e', trace, between, rest, last, he, hrest, rfl⟩ := turns_cons_eq_ok h
    rw [stopsOf_cons he] at hs
    rcases List.mem_cons.1 hs with rfl | hs
    · exact ⟨[], es, [], rfl, rfl, rfl⟩
    · obtain ⟨first, after, r', rfl, hposition, hfirst⟩ := ih hrest hs
      refine ⟨e :: first, after, (e', trace) :: r', rfl, ?_, ?_⟩
      · rw [hposition, List.length_cons, Nat.add_comm first.length, ← Nat.add_assoc]
      · rw [turns, he]
        simp only [bind, Except.bind, hfirst]
        rfl

theorem reaches_of_mem_stops {o : Outcome} (h : n.cycle now = .ok o) (hs : s ∈ n.stops now) :
    n.Reaches now s := by
  obtain ⟨r, hr, rfl⟩ := cycle_eq_ok h
  exact exists_of_mem_stopsOf hr hs

/-- A stop that does not come to its end ends the cycle. -/
theorem Reaches.cycle_eq_error {x : Halt} (h : n.Reaches now s)
    (hturn : s.turn (n.facts now) = .error x) : n.cycle now = .error x := by
  obtain ⟨first, after, r, hsplit, _, hfirst⟩ := h
  rw [cycle_eq, hsplit, turns_eq_error hfirst hturn]
  rfl

theorem Reaches.exists_turn {o : Outcome} (h : n.Reaches now s) (hcycle : n.cycle now = .ok o) :
    ∃ t, s.turn (n.facts now) = .ok t := by
  rcases hturn : s.turn (n.facts now) with x | t
  · rw [h.cycle_eq_error hturn] at hcycle
    contradiction
  · exact ⟨t, rfl⟩

/-- A cycle that ends in a restart has come to the stop that restarts the device. -/
theorem exists_reaches_of_restart {left : Shared} {trace : Trace}
    (h : n.cycle now = .error (.restart left trace)) :
    ∃ s, n.Reaches now s ∧ s.turn (n.facts now) = .error (.restart left trace) := by
  obtain ⟨first, e, after, r, hsplit, hfirst, hturn⟩ := exists_of_cycle_eq_error h
  exact ⟨⟨1 + first.length, e, r.2⟩, ⟨first, after, r.1, hsplit, rfl, hfirst⟩, hturn⟩

end Node

end RailNode
