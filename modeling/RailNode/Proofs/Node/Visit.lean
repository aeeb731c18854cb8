import Mathlib.Data.List.TakeWhile
import RailNode.Proofs.Node.Cycle
import RailNode.Proofs.Service.Safety

/-
  A cycle from the point of view of one service. Of a node that has just one service of a kind,
  everything else that a cycle does are edits of the other services, before its turn and after it
  (`visit_of_cycle`). The second part says that no cycle of a sound node ends in a fault.
-/
namespace RailNode.Node

open RailNode.Configuration

variable {n : Node} {now : Time} {id : ServiceId} {o : Outcome}

/-! ## The visit of a service -/

/-- The node has just one service with this id. -/
def HasOne (id : ServiceId) (n : Node) : Prop := (n.entries.map (·.service.id)).count id = 1

/-- The entries before the first with this id. -/
def before (id : ServiceId) (n : Node) : List Entry := n.entries.takeWhile (·.service.id != id)

/-- What the first service with this id finds in the next cycle. -/
def foundBy (id : ServiceId) (now : Time) (n : Node) : Except Halt Shared :=
  (turns (n.facts now) 1 n.opening (n.before id)).map (·.2)

/-- The actions that the first service with this id has put in the queue in a cycle. -/
def givenBy (id : ServiceId) (n : Node) (o : Outcome) : List Action :=
  (o.traces[(n.before id).length]?).elim [] fun trace => trace.service.queued.map (·.item)

theorem before_ne (n : Node) (id : ServiceId) : ∀ x ∈ n.before id, x.service.id ≠ id := fun _ hx =>
  bne_iff_ne.1 (List.mem_takeWhile_imp (p := fun e : Entry => e.service.id != id) hx)

/-- The first service of a kind that the node has stands behind others. -/
theorem exists_split (h : id ∈ n.entries.map (·.service.id)) :
    ∃ e after, n.entries = n.before id ++ e :: after ∧ e.service.id = id := by
  have hsplit := List.takeWhile_append_dropWhile (p := fun e : Entry => e.service.id != id)
    (l := n.entries)
  rcases hafter : n.entries.dropWhile (·.service.id != id) with _ | ⟨e, after⟩
  · rw [hafter, List.append_nil] at hsplit
    obtain ⟨x, hx, hid⟩ := List.mem_map.1 h
    rw [← hsplit] at hx
    exact absurd hid (n.before_ne id x hx)
  · have he := List.head_dropWhile_not (fun e : Entry => e.service.id != id)
      (l := n.entries) (by rw [hafter]; exact List.cons_ne_nil _ _)
    simp only [hafter, List.head_cons, bne_eq_false_iff_eq] at he
    rw [hafter] at hsplit
    exact ⟨e, after, hsplit.symm, he⟩

/-- The only service of its kind stands between others. -/
theorem HasOne.split (h : n.HasOne id) :
    ∃ e after, n.entries = n.before id ++ e :: after ∧ e.service.id = id ∧
      (∀ x ∈ n.before id, x.service.id ≠ id) ∧ ∀ x ∈ after, x.service.id ≠ id := by
  have hmem : id ∈ n.entries.map (·.service.id) := by
    rw [← List.count_pos_iff, h]
    exact Nat.one_pos
  obtain ⟨e, after, hsplit, he⟩ := exists_split hmem
  refine ⟨e, after, hsplit, he, n.before_ne id, fun x hx hid => ?_⟩
  rw [HasOne, hsplit, List.map_append, List.map_cons, List.count_append, he,
    List.count_cons_self] at h
  have hpos : 0 < (after.map (·.service.id)).count id :=
    List.count_pos_iff.2 (List.mem_map.2 ⟨x, hx, hid⟩)
  omega

theorem HasOne.eq (h : n.HasOne id) {s s' : Service} (hs : s ∈ n.entries.map (·.service))
    (hid : s.id = id) (hs' : s' ∈ n.entries.map (·.service)) (hid' : s'.id = id) : s = s' := by
  obtain ⟨e, after, hsplit, _, hbefore, hafter⟩ := h.split
  have hall : ∀ {x : Service}, x ∈ n.entries.map (·.service) → x.id = id → x = e.service := by
    intro x hx hxid
    obtain ⟨y, hy, rfl⟩ := List.mem_map.1 hx
    rw [hsplit] at hy
    rcases List.mem_append.1 hy with hy | hy
    · exact absurd hxid (hbefore y hy)
    · rcases List.mem_cons.1 hy with rfl | hy
      · rfl
      · exact absurd hxid (hafter y hy)
  rw [hall hs hid, hall hs' hid']

/-- No other service of its kind stands before the only one. -/
theorem HasOne.ne_of_before (h : n.HasOne id) {first after : List Entry} {e : Entry}
    (hsplit : n.entries = first ++ e :: after) (he : e.service.id = id) :
    ∀ x ∈ first, x.service.id ≠ id := by
  intro x hx hid
  rw [HasOne, hsplit, List.map_append, List.map_cons, List.count_append, he,
    List.count_cons_self] at h
  have hpos : 0 < (first.map (·.service.id)).count id :=
    List.count_pos_iff.2 (List.mem_map.2 ⟨x, hx, hid⟩)
  omega

theorem HasOne.cycle (hone : n.HasOne id) (h : n.cycle now = .ok o) : o.node.HasOne id := by
  rw [HasOne, ids_cycle h]
  exact hone

/-- How a cycle passes the only entry of its kind: those before it have their turns, then it has its
    own, and then those after it have theirs. -/
structure Passage (id : ServiceId) (now : Time) (n : Node) where
  entry : Entry
  after : List Entry
  first : List (Entry × EntryTrace)
  /-- What the entry finds. -/
  found : Shared
  /-- The entry after its turn. -/
  done : Entry
  trace : EntryTrace
  /-- What the entry leaves. -/
  left : Shared
  rest : List (Entry × EntryTrace)
  last : Shared
  entries : n.entries = n.before id ++ entry :: after
  id_entry : entry.service.id = id
  before_ne : ∀ x ∈ n.before id, x.service.id ≠ id
  after_ne : ∀ x ∈ after, x.service.id ≠ id
  turns_before : turns (n.facts now) 1 n.opening (n.before id) = .ok (first, found)
  turn : entryTurn (n.facts now) (1 + (n.before id).length) entry found = .ok ((done, trace), left)
  turns_after : turns (n.facts now) (1 + (n.before id).length + 1) left after = .ok (rest, last)

namespace Passage

/-- What the cycle makes of the node. -/
def outcome (p : Passage id now n) : Outcome :=
  n.outcome (p.first ++ (p.done, p.trace) :: p.rest, p.last)

variable (p : Passage id now n)

theorem traces_outcome :
    p.outcome.traces = p.first.map (·.2) ++ p.trace :: p.rest.map (·.2) :=
  List.map_append

theorem getElem?_traces : p.outcome.traces[(n.before id).length]? = some p.trace := by
  have hlength : (p.first.map (·.2)).length = (n.before id).length := by
    rw [List.length_map, length_turns p.turns_before]
  rw [p.traces_outcome, ← hlength, List.getElem?_append_right (Nat.le_refl _), Nat.sub_self]
  rfl

theorem entries_outcome :
    p.outcome.node.entries = p.first.map (·.1) ++ p.done :: p.rest.map (·.1) :=
  List.map_append

theorem first_ne : ∀ x ∈ p.first.map (·.1), x.service.id ≠ id := by
  intro x hx
  obtain ⟨y, hy, rfl⟩ := List.mem_map.1 hx
  have hmem : y.1.service.id ∈ (n.before id).map (·.service.id) := by
    rw [← ids_turns p.turns_before]
    exact List.mem_map.2 ⟨y, hy, rfl⟩
  obtain ⟨z, hz, hzid⟩ := List.mem_map.1 hmem
  rw [← hzid]
  exact p.before_ne z hz

theorem foundBy_eq : n.foundBy id now = .ok p.found := by
  rw [foundBy, p.turns_before]
  rfl

end Passage

/-- Every cycle passes the only entry of a kind. -/
theorem HasOne.exists_passage (hone : n.HasOne id) (h : n.cycle now = .ok o) :
    ∃ p : Passage id now n, p.outcome = o := by
  obtain ⟨e, after, hsplit, he, hbefore, hafter⟩ := hone.split
  obtain ⟨r, hr, rfl⟩ := cycle_eq_ok h
  rw [hsplit] at hr
  obtain ⟨first, found, second, last, hfirst, hrest, rfl⟩ := turns_append_eq_ok hr
  obtain ⟨done, trace, left, rest, last', hturn, hlater, heq⟩ := turns_cons_eq_ok hrest
  obtain ⟨rfl, rfl⟩ := Prod.mk.inj heq
  exact ⟨⟨e, after, first, found, done, trace, left, rest, last, hsplit, he, hbefore, hafter,
    hfirst, hturn, hlater⟩, rfl⟩

/-- A cycle is the edits of other services, the turn of the service, and edits of others. -/
theorem visit_of_cycle {A : List Part} (hone : n.HasOne id)
    (hA : ∀ s : Service, s.id ≠ id → s.parts ⊆ A) (h : n.cycle now = .ok o) :
    ∃ e ∈ n.entries, e.service.id = id ∧ ∃ found t, n.foundBy id now = .ok found ∧
      Edits A n.config found.config ∧
      Service.turn (n.facts now) { self := e.service, shared := found } = .ok t ∧
      n.givenBy id o = t.given ∧ Edits A t.config o.node.config ∧
      ∃ e' ∈ o.node.entries, e'.service = t.self := by
  obtain ⟨p, rfl⟩ := hone.exists_passage h
  obtain ⟨t, ht, hself, htrace, hconfig⟩ := entryTurn_eq_ok p.turn
  refine ⟨p.entry, by rw [p.entries]; simp, p.id_entry, p.found, t, p.foundBy_eq, ?_, ht, ?_, ?_,
    p.done, by rw [p.entries_outcome]; simp, hself⟩
  · exact edits_turns p.turns_before fun x hx => hA x.service (p.before_ne x hx)
  · rw [givenBy, p.getElem?_traces, Option.elim_some, htrace]
    rfl
  · have hedits := edits_turns p.turns_after fun x hx => hA x.service (p.after_ne x hx)
    rw [← hconfig]
    exact hedits

section Turns

variable {c : Cycle} {position : Nat} {shared : Shared} {es : List Entry} {x : Halt}

/-- Turns that end early do so in the turn of an entry, after the turns of those before it. -/
theorem exists_of_turns_eq_error (h : turns c position shared es = .error x) :
    ∃ first e after r, es = first ++ e :: after ∧ turns c position shared first = .ok r ∧
      Service.turn c { self := e.service, shared := r.2 } = .error x := by
  induction es generalizing position shared with
  | nil => exact nomatch h
  | cons e es ih =>
    rcases turns_cons_eq_error h with he | ⟨⟨⟨e', trace⟩, between⟩, he, hrest⟩
    · exact ⟨[], e, es, ([], shared), rfl, rfl, entryTurn_eq_error he⟩
    · obtain ⟨first, e₁, after, ⟨rest, last⟩, rfl, hfirst, hturn⟩ := ih hrest
      refine ⟨e :: first, e₁, after, ((e', trace) :: rest, last), rfl, ?_, hturn⟩
      rw [turns, he]
      simp only [bind, Except.bind, hfirst]
      rfl

/-- Behind the turns of some entries the turn of the next can end them all. -/
theorem turns_eq_error {first after : List Entry} {e : Entry}
    {r : List (Entry × EntryTrace) × Shared} (hfirst : turns c position shared first = .ok r)
    (he : Service.turn c { self := e.service, shared := r.2 } = .error x) :
    turns c position shared (first ++ e :: after) = .error x := by
  induction first generalizing position shared r with
  | nil =>
    rw [← Except.ok.inj hfirst] at he
    rw [List.nil_append, turns, entryTurn, he]
    rfl
  | cons e₁ first ih =>
    obtain ⟨e', trace, between, rest, last, hturn, hrest, rfl⟩ := turns_cons_eq_ok hfirst
    rw [List.cons_append, turns, hturn]
    simp only [bind, Except.bind, ih hrest he]

/-- Turns that end early after those of some entries do so in the turns of the others. -/
theorem turns_append_eq_error {before after : List Entry}
    {r : List (Entry × EntryTrace) × Shared}
    (h : turns c position shared (before ++ after) = .error x)
    (hbefore : turns c position shared before = .ok r) :
    turns c (position + before.length) r.2 after = .error x := by
  induction before generalizing position shared r with
  | nil =>
    rw [← Except.ok.inj hbefore]
    exact h
  | cons e before ih =>
    obtain ⟨e', trace, between, rest, last, he, hrest, rfl⟩ := turns_cons_eq_ok hbefore
    rcases turns_cons_eq_error h with herror | ⟨r', hr', hlater⟩
    · rw [he] at herror
      contradiction
    · obtain rfl := Except.ok.inj (he.symm.trans hr')
      have hafter := ih hlater hrest
      rwa [List.length_cons, Nat.add_comm before.length, ← Nat.add_assoc]

end Turns

/-- A cycle that ends early does so in the turn of an entry, after the turns of those before it. -/
theorem exists_of_cycle_eq_error {x : Halt} (h : n.cycle now = .error x) :
    ∃ first e after r, n.entries = first ++ e :: after ∧
      turns (n.facts now) 1 n.opening first = .ok r ∧
      Service.turn (n.facts now) { self := e.service, shared := r.2 } = .error x :=
  exists_of_turns_eq_error (cycle_eq_error h)

/-- Only the service that every node has restarts the device, so the restart leaves what edits of
    other services have led to, or the factory reset of it. -/
theorem visit_of_restart {A : List Part} {shared : Shared} {trace : Trace}
    (hone : n.HasOne .minimumNode) (hA : ∀ s : Service, s.id ≠ .minimumNode → s.parts ⊆ A)
    (h : n.cycle now = .error (.restart shared trace)) :
    ∃ d, Edits A n.config d ∧ (shared.config = d ∨ shared.config = d.factoryReset) := by
  obtain ⟨first, e, after, r, hsplit, hfirst, hturn⟩ := exists_of_cycle_eq_error h
  have he : e.service.id = .minimumNode := (Service.turn_eq_restart hturn).1
  have hothers := hone.ne_of_before hsplit he
  exact ⟨r.2.config, edits_turns hfirst fun x hx => hA x.service (hothers x hx),
    Service.leaves_turn hturn⟩

/-! ## Sound nodes -/

/-- What every service still has to report is there. -/
def Sound (n : Node) : Prop :=
  ∀ s ∈ n.entries.map (·.service), s.Sound n.entries.length n.config.layout

variable {c : Cycle} {position : Nat} {shared : Shared} {es : List Entry}

theorem sound_entryTurn {e e' : Entry} {trace : EntryTrace} {shared' : Shared}
    (he : e.service.Sound c.services.length shared.config.layout)
    (h : entryTurn c position e shared = .ok ((e', trace), shared')) :
    e'.service.Sound c.services.length shared.config.layout := by
  obtain ⟨t, ht, hself, _, _⟩ := entryTurn_eq_ok h
  rw [hself]
  exact Service.sound_turn (t := { self := e.service, shared }) he ht

theorem turns_ne_fault
    (hes : ∀ e ∈ es, e.service.Sound c.services.length shared.config.layout) :
    turns c position shared es ≠ .error .fault := by
  induction es generalizing position shared with
  | nil => exact fun h => nomatch h
  | cons e es ih =>
    intro h
    rcases turns_cons_eq_error h with he | ⟨⟨⟨e', trace⟩, between⟩, he, hrest⟩
    · exact Service.turn_ne_fault (t := { self := e.service, shared })
        (hes e List.mem_cons_self) (entryTurn_eq_error he)
    · have hl := (edits_entryTurn he).changesOnly.layout
      refine ih (fun x hx => ?_) hrest
      rw [hl]
      exact hes x (List.mem_cons_of_mem _ hx)

theorem sound_turns {r : List (Entry × EntryTrace) × Shared}
    (hes : ∀ e ∈ es, e.service.Sound c.services.length shared.config.layout)
    (h : turns c position shared es = .ok r) :
    ∀ x ∈ r.1, x.1.service.Sound c.services.length shared.config.layout := by
  induction es generalizing position shared r with
  | nil =>
    rw [← Except.ok.inj h]
    exact fun _ hx => nomatch hx
  | cons e es ih =>
    obtain ⟨e', trace, between, rest, last, he, hrest, rfl⟩ := turns_cons_eq_ok h
    have hl := (edits_entryTurn he).changesOnly.layout
    intro x hx
    rcases List.mem_cons.1 hx with rfl | hx
    · exact sound_entryTurn (hes e List.mem_cons_self) he
    · rw [← hl]
      refine ih (fun y hy => ?_) hrest x hx
      rw [hl]
      exact hes y (List.mem_cons_of_mem _ hy)

theorem length_services (n : Node) (now : Time) :
    (n.facts now).services.length = n.entries.length := by
  simp [facts, services]

theorem Sound.entries (hn : n.Sound) (now : Time) : ∀ e ∈ n.entries,
    e.service.Sound (n.facts now).services.length n.opening.config.layout := by
  intro e he
  rw [length_services]
  exact hn e.service (List.mem_map.2 ⟨e, he, rfl⟩)

/-- No cycle of a sound node ends in a fault. -/
theorem Sound.cycle_ne_fault (hn : n.Sound) (now : Time) : n.cycle now ≠ .error .fault :=
  fun h => turns_ne_fault (hn.entries now) (cycle_eq_error h)

/-- A cycle of a sound node comes to its end unless a message restarts the device. -/
theorem Sound.exists_cycle (hn : n.Sound) (now : Time)
    (h : ∀ m, (n.facts now).received? = some m →
      m.opcode? ≠ some .nnrst ∧ m.opcode? ≠ some .nnrsm) :
    ∃ o, n.cycle now = .ok o := by
  rcases hcycle : n.cycle now with x | o
  · obtain ⟨first, e, after, r, _, _, hturn⟩ := exists_of_cycle_eq_error hcycle
    cases x with
    | restart left trace =>
      obtain ⟨_, m, hm, ho⟩ := Service.turn_eq_restart hturn
      rcases ho with ho | ho
      · exact absurd ho (h m hm).1
      · exact absurd ho (h m hm).2
    | fault => exact absurd hcycle (hn.cycle_ne_fault now)
  · exact ⟨o, rfl⟩

/-- A sound node is sound after a cycle. -/
theorem Sound.cycle (hn : n.Sound) (h : n.cycle now = .ok o) : o.node.Sound := by
  obtain ⟨r, hr, rfl⟩ := cycle_eq_ok h
  have hl : r.2.config.layout = n.config.layout := (edits_cycle h).changesOnly.layout
  have hsound := sound_turns (hn.entries now) hr
  intro s hs
  obtain ⟨e, he, rfl⟩ := List.mem_map.1 hs
  obtain ⟨x, hx, rfl⟩ := List.mem_map.1 he
  have hlen : (n.outcome r).node.entries.length = n.entries.length := by
    rw [outcome, List.length_map, length_turns hr]
  rw [hlen, ← length_services n now]
  show Service.Sound _ r.2.config.layout _
  rw [hl]
  exact hsound x hx

end RailNode.Node
