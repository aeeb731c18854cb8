import RailNode.Proofs.Device.Quiet
import RailNode.Proofs.Node.Silence
import RailNode.Proofs.Service.Refusals

/-
  Rejected commands. Whoever refuses a message in a cycle, no entry has changed anything because of
  it: the entry that refuses it has not, nor have the others, since no message is refused by one
  service and carried out by another (`alike_turns`). So the cycle leaves what the cycle without an
  action leaves, and that is what the node has had unless something else was due.
-/
namespace RailNode.Node

open Turn

/-! ## Turns -/

section Turns

variable {c : Cycle} {m : Message} {position : Nat} {e e' : Entry} {x y left left' : Shared}
  {trace : EntryTrace} {es : List Entry} {r q : List (Entry × EntryTrace) × Shared}

/-- The actions that entries have put in the queue. -/
def queuedBy (r : List (Entry × EntryTrace)) : List Action :=
  (r.map (·.2)).flatMap EntryTrace.actions

theorem queuedBy_cons (a : Entry × EntryTrace) (r : List (Entry × EntryTrace)) :
    queuedBy (a :: r) = a.2.actions ++ queuedBy r := by
  rw [queuedBy, List.map_cons, List.flatMap_cons]
  rfl

theorem shared_reporter {service : Service} {u : Turn Reporter} {v : Turn Reporter}
    (h : Reporter.turn c service position u = v) : u.shared.Alike v.shared := by
  subst h
  exact ⟨Reporter.config_turn c service position u,
    (Reporter.speaks_turn c service position u).link⟩

/-- What an entry refuses it explains; its service refuses it or, as a request for diagnostics, its
    reporter. -/
theorem answers_entryTurn (hm : c.action = some (.received m)) (he : e.service.HasFragments)
    (h : entryTurn c position e x = .ok ((e', trace), left)) :
    Explains m trace.actions ∧ ∀ a ∈ trace.actions, a.refuses = true →
      m.refuser? = some e.service.id ∨ m.refuser? = some .minimumNode := by
  obtain ⟨t, ht, u, hu, -, rfl, -⟩ := entryTurn_eq_ok_iff.1 h
  have hservice := Service.answers_turn hm he ht
  have hreporter := Reporter.answers_turn hm t.self position
    (t := { self := e.reporter, shared := t.shared }) rfl
  rw [hu] at hreporter
  refine ⟨hservice.explains.append hreporter.explains, fun a ha hrefuses => ?_⟩
  rcases List.mem_append.1 ha with ha | ha
  · exact Or.inl (hservice.refuser a ha hrefuses)
  · exact Or.inr (hreporter.refuser a ha hrefuses)

/-- An entry that has refused the message, or leaves that to another, leaves what it would have left
    without an action. -/
theorem alike_entryTurn (hm : c.action = some (.received m)) (hxy : x.Alike y)
    (h : entryTurn c position e x = .ok ((e', trace), left)) {quiet : Entry × EntryTrace}
    (hquiet : entryTurn c.quiet position e y = .ok (quiet, left'))
    (hy : Yields e.service.id m trace.actions) : left.Alike left' := by
  obtain ⟨t, ht, u, hu, -, rfl, rfl⟩ := entryTurn_eq_ok_iff.1 h
  obtain ⟨t', ht', u', hu', -, -, rfl⟩ := entryTurn_eq_ok_iff.1 hquiet
  have hyields : Yields e.service.id m t.given := by
    rcases hy with ⟨a, ha, hrefuses⟩ | hothers
    · rcases List.mem_append.1 ha with ha | ha
      · exact Or.inl ⟨a, ha, hrefuses⟩
      · have hreporter := Reporter.answers_turn hm t.self position
          (t := { self := e.reporter, shared := t.shared }) rfl
        rw [hu] at hreporter
        exact Or.inr ⟨_, hreporter.refuser a ha hrefuses, Or.inr rfl⟩
    · exact Or.inr hothers
  have hservice := Service.alike_turn hm ht ht' hxy hyields
  have hleft := shared_reporter hu
  have hleft' := shared_reporter hu'
  exact ⟨hleft'.config.trans (hservice.config.trans hleft.config.symm),
    hleft'.link.trans (hservice.link.trans hleft.link.symm)⟩

theorem explains_turns (hm : c.action = some (.received m))
    (hes : ∀ e ∈ es, e.service.HasFragments) (h : turns c position x es = .ok r) :
    Explains m (queuedBy r.1) := by
  induction es generalizing position x r with
  | nil =>
    rw [← Except.ok.inj h]
    trivial
  | cons e es ih =>
    obtain ⟨e', trace, between, rest, last, he, hrest, rfl⟩ := turns_cons_eq_ok h
    rw [List.forall_mem_cons] at hes
    rw [queuedBy_cons]
    exact (answers_entryTurn hm hes.1 he).1.append (ih hes.2 hrest)

/-- A message that an entry has refused is one that a service of the entries refuses, or a request
    for diagnostics. -/
theorem refuser_turns (hm : c.action = some (.received m))
    (hes : ∀ e ∈ es, e.service.HasFragments) (h : turns c position x es = .ok r)
    (hrefused : ∃ a ∈ queuedBy r.1, a.refuses = true) :
    ∃ id, m.refuser? = some id ∧ (id ∈ es.map (·.service.id) ∨ id = .minimumNode) := by
  induction es generalizing position x r with
  | nil =>
    rw [← Except.ok.inj h] at hrefused
    obtain ⟨a, ha, _⟩ := hrefused
    exact absurd ha List.not_mem_nil
  | cons e es ih =>
    obtain ⟨e', trace, between, rest, last, he, hrest, rfl⟩ := turns_cons_eq_ok h
    rw [List.forall_mem_cons] at hes
    obtain ⟨a, ha, hrefuses⟩ := hrefused
    rw [queuedBy_cons] at ha
    rcases List.mem_append.1 ha with ha | ha
    · rcases (answers_entryTurn hm hes.1 he).2 a ha hrefuses with hid | hid
      · exact ⟨_, hid, Or.inl List.mem_cons_self⟩
      · exact ⟨_, hid, Or.inr rfl⟩
    · obtain ⟨id, hid, hmem⟩ := ih hes.2 hrest ⟨a, ha, hrefuses⟩
      exact ⟨id, hid, hmem.imp_left (List.mem_cons_of_mem _)⟩

/-- Entries of which none refuses the message, while another does, leave what they would have left
    without an action. -/
theorem alike_turns_of_others (hm : c.action = some (.received m)) {id : ServiceId}
    (hid : m.refuser? = some id) (hothers : id ∉ es.map (·.service.id) ∨ id = .minimumNode)
    (hxy : x.Alike y) (h : turns c position x es = .ok r)
    (hquiet : turns c.quiet position y es = .ok q) : r.2.Alike q.2 := by
  induction es generalizing position x y r q with
  | nil =>
    rw [← Except.ok.inj h, ← Except.ok.inj hquiet]
    exact hxy
  | cons e es ih =>
    obtain ⟨e', trace, between, rest, last, he, hrest, rfl⟩ := turns_cons_eq_ok h
    obtain ⟨_, _, between', rest', last', he', hrest', rfl⟩ := turns_cons_eq_ok hquiet
    rw [List.map_cons, List.mem_cons, not_or] at hothers
    have hhead : between.Alike between' :=
      alike_entryTurn hm hxy he he' (Or.inr ⟨id, hid, hothers.imp_left (·.1)⟩)
    have htail := ih (hothers.imp_left (·.2)) hhead hrest hrest'
    exact htail

/-- Entries of which one has refused the message leave what they would have left without an
    action, if no two are of the same kind. -/
theorem alike_turns (hm : c.action = some (.received m))
    (hes : ∀ e ∈ es, e.service.HasFragments) (hids : (es.map (·.service.id)).Nodup)
    (hxy : x.Alike y) (h : turns c position x es = .ok r)
    (hquiet : turns c.quiet position y es = .ok q)
    (hrefused : ∃ a ∈ queuedBy r.1, a.refuses = true) : r.2.Alike q.2 := by
  induction es generalizing position x y r q with
  | nil =>
    rw [← Except.ok.inj h, ← Except.ok.inj hquiet]
    exact hxy
  | cons e es ih =>
    obtain ⟨e', trace, between, rest, last, he, hrest, rfl⟩ := turns_cons_eq_ok h
    obtain ⟨_, _, between', rest', last', he', hrest', rfl⟩ := turns_cons_eq_ok hquiet
    rw [List.forall_mem_cons] at hes
    rw [List.map_cons, List.nodup_cons] at hids
    obtain ⟨a, ha, hrefuses⟩ := hrefused
    rw [queuedBy_cons] at ha
    rcases List.mem_append.1 ha with ha | ha
    · have hhead := alike_entryTurn hm hxy he he' (Or.inl ⟨a, ha, hrefuses⟩)
      rcases (answers_entryTurn hm hes.1 he).2 a ha hrefuses with hid | hid
      · have htail := alike_turns_of_others hm hid (Or.inl hids.1) hhead hrest hrest'
        exact htail
      · have htail := alike_turns_of_others hm hid (Or.inr rfl) hhead hrest hrest'
        exact htail
    · obtain ⟨id, hid, hmem⟩ := refuser_turns hm hes.2 hrest ⟨a, ha, hrefuses⟩
      have hne : id ≠ e.service.id ∨ id = .minimumNode := by
        rcases hmem with hmem | hminimum
        · exact Or.inl fun heq => hids.1 (heq ▸ hmem)
        · exact Or.inr hminimum
      have hhead := alike_entryTurn hm hxy he he' (Or.inr ⟨id, hid, hne⟩)
      have htail := ih hes.2 hids.2 hhead hrest hrest' ⟨a, ha, hrefuses⟩
      exact htail

/-- Without an action, entries of which nothing is due leave all, if no frame waits. -/
theorem alike_of_rests (hes : ∀ e ∈ es, e.service.Rests c) (hx : x.link.received.items = [])
    (h : turns c.quiet position x es = .ok r) : x.Alike r.2 := by
  induction es generalizing position x r with
  | nil =>
    rw [← Except.ok.inj h]
    exact ⟨rfl, rfl⟩
  | cons e es ih =>
    obtain ⟨e', trace, between, rest, last, he, hrest, rfl⟩ := turns_cons_eq_ok h
    rw [List.forall_mem_cons] at hes
    obtain ⟨t, ht, u, hu, -, -, rfl⟩ := entryTurn_eq_ok_iff.1 he
    have hservice := Service.alike_of_rests hes.1 hx ht
    have hreporter := shared_reporter hu
    have hlink : u.shared.link = x.link := hreporter.link.trans hservice.link
    have hlater := ih hes.2 (hlink ▸ hx) hrest
    exact ⟨hlater.config.trans (hreporter.config.trans hservice.config),
      hlater.link.trans hlink⟩

end Turns

/-! ## Cycles -/

variable {b : Build} {n first : Node} {now : Time} {o : Outcome} {m : Message}
  {inputs : List Input} {events : List Event}

/-- Nothing is due in the next cycle but the action that it takes: no negotiation has taken too
    long, no search for an address begins or ends, and no frame has come in. -/
structure Uneventful (now : Time) (n : Node) : Prop where
  services : ∀ e ∈ n.entries, e.service.Rests (n.facts now)
  received : n.link.received.items = []

/-- A cycle in which a message is refused leaves what the cycle without an action leaves. -/
theorem cycle_of_refused (hn : n.Sound) (hids : (n.entries.map (·.service.id)).Nodup)
    (hfragments : n.HasFragments) (ha : n.nextAction.1 = some (.received m))
    (h : n.cycle now = .ok o) (hrefused : ∃ a ∈ o.queued, a.refuses = true) :
    ∃ q, n.cycleWith now none n.nextAction.2 = .ok q ∧ o.node.config = q.node.config ∧
      (n.Uneventful now → o.node.config = n.config) := by
  obtain ⟨r, hr, rfl⟩ := cycle_eq_ok h
  obtain ⟨q, hq⟩ := hn.exists_turns_quiet now
  have halike := alike_turns ha hfragments hids ⟨rfl, rfl⟩ hr hq hrefused
  refine ⟨_, congrArg (· >>= _) hq, halike.config.symm, fun huneventful => ?_⟩
  have hrests := alike_of_rests huneventful.services huneventful.received hq
  exact halike.config.symm.trans hrests.config

theorem explains_queued (hfragments : n.HasFragments)
    (ha : n.nextAction.1 = some (.received m)) (h : n.cycle now = .ok o) :
    Explains m o.queued := by
  obtain ⟨r, hr, rfl⟩ := cycle_eq_ok h
  exact explains_turns ha hfragments hr

end Node

/-! ## Runs -/

/-- A node is put together from new services, each of them at most once; what a long message
    service still has to send are parts of long messages. -/
structure Build.EachOnce (b : Build) : Prop where
  isNew : ∀ s ∈ b.services, s.IsNew
  nodup : (b.services.map Service.id).Nodup
  fragments : ∀ s ∈ b.services, s.HasFragments

namespace Node

variable {b : Build} {first n n' : Node} {now : Time} {o : Outcome} {m : Message}
  {inputs : List Input} {events : List Event}

/-- In every state that a node can reach after a start, whatever its store holds: every CMDERR that
    a cycle queues about a message is followed at once by a GRSP that names it. If the message is
    refused the cycle leaves the configuration, its store included, as the cycle without an action
    would; and as it was, if nothing else was due. -/
theorem refused_message_changes_nothing (hb : b.EachOnce) (hstart : first.StartsFrom b)
    (hrun : first.run inputs = some (n, events)) (ha : n.nextAction.1 = some (.received m))
    (h : n.cycle now = .ok o) :
    Explains m o.queued ∧
      ((∃ a ∈ o.queued, a.refuses = true) →
        ∃ q, n.cycleWith now none n.nextAction.2 = .ok q ∧ o.node.config = q.node.config ∧
          (n.Uneventful now → o.node.config = n.config)) := by
  have hsound : n.Sound := run_preserves hrun Moves.sound (hstart.sound hb.isNew)
  have hfragments : n.HasFragments := hasFragments_of_run hb.fragments hstart hrun
  have hids : (n.entries.map (·.service.id)).Nodup := by
    refine run_preserves (R := fun n => (n.entries.map (·.service.id)).Nodup) hrun
      (fun hmoves hn => hmoves.ids.symm ▸ hn) ?_
    rw [hstart.entries, List.map_map]
    exact hb.nodup
  exact ⟨explains_queued hfragments ha h, cycle_of_refused hsound hids hfragments ha h⟩

/-- A request to write a variable that a small node does not have. -/
def badWrite : Request := .put (.received (.addressed Opcode.nvset.byte 0 [9, 42]))

theorem uneventful_badWrite : (small.serve badWrite).Uneventful 0 := by
  have hstart := startsFrom_of_boot boot_small
  refine ⟨?_, hstart.received⟩
  show ∀ e ∈ small.entries, _
  rw [hstart.entries]
  simp only [Device.smallBuild, List.map_cons, List.map_nil, List.forall_mem_cons]
  refine ⟨?_, ⟨rfl, rfl⟩, trivial, trivial, List.forall_mem_nil _⟩
  rintro g ⟨⟩

theorem changes_nothing_of_badWrite : ∃ o, (small.serve badWrite).cycle 0 = .ok o ∧
    (∃ a ∈ o.queued, a.refuses = true) ∧ o.node.config = small.config := by
  have hone : Device.smallBuild.HasOne .minimumNode := Device.hasOne_smallBuild (by decide)
  have hb : Device.smallBuild.EachOnce := by
    refine ⟨hone.isNew, by decide, ?_⟩
    simp only [Device.smallBuild, List.forall_mem_cons]
    exact ⟨trivial, trivial, trivial, trivial, List.forall_mem_nil _⟩
  have hrun : small.run [.ask badWrite] = some (small.serve badWrite, [.asked small badWrite]) :=
    rfl
  have ha : (small.serve badWrite).nextAction.1 =
      some (.received (.addressed Opcode.nvset.byte 0 [9, 42])) := by
    decide +kernel
  have hany : ((small.serve badWrite).cycle 0).toOption.any (·.queued.any Action.refuses) =
      true := by
    decide +kernel
  rcases hcycle : (small.serve badWrite).cycle 0 with x | o
  · rw [hcycle] at hany
    contradiction
  · rw [hcycle] at hany
    have hrefused : ∃ a ∈ o.queued, a.refuses = true := List.any_eq_true.1 hany
    obtain ⟨_, hkept⟩ :=
      refused_message_changes_nothing hb (startsFrom_of_boot boot_small) hrun ha hcycle
    obtain ⟨q, _, _, hsame⟩ := hkept hrefused
    exact ⟨o, rfl, hrefused, hsame uneventful_badWrite⟩

end Node

end RailNode
