import Mathlib.Algebra.Order.BigOperators.Group.List
import Mathlib.Data.List.Perm.Subperm
import RailNode.Proofs.Node.Life
import RailNode.Proofs.Service.LongAnswers

/-
  A cycle from the point of view of those who give long answers. In a node that has a service just
  once, every cycle lets the service and its reporter conduct their long answers
  (`exists_conducts`), and nothing else touches what is left of them (`Moves.left`).
-/
namespace RailNode

/-- The number of diagnostic values of a service with this id. -/
def ServiceId.diagnosticCount (id : ServiceId) : Nat :=
  if id = minimumNode then MinimumNode.diagnosticCount
  else if id = busAccess then BusAccess.diagnosticCount
  else if id = teaching then Teaching.diagnosticCount
  else if id = consumer then EventConsumer.diagnosticCount
  else if id = producer then EventProducer.diagnosticCount
  else if id = acknowledge then EventAcknowledge.diagnosticCount
  else if id = longMessage then LongMessage.diagnosticCount
  else 0

theorem Service.diagnosticCount_eq (s : Service) : s.diagnosticCount = s.id.diagnosticCount := by
  cases s <;> rfl

/-- The ids of the services that a node can have. -/
def ServiceId.all : List ServiceId :=
  [minimumNode, busAccess, nodeVariables, teaching, consumer, producer, acknowledge, longMessage]

theorem Service.id_mem_all (s : Service) : s.id ∈ ServiceId.all := by
  cases s <;> simp only [id] <;> decide

/-- The diagnostic values of all services together. -/
theorem LongAnswer.sum_diagnosticCount_le {as : List LongAnswer} (h : as.Nodup)
    (has : ∀ a ∈ as, ∃ s : Service, a = .diagnostics s.id) :
    (as.map fun a => a.speaker.id.diagnosticCount).sum ≤ 21 := by
  have hsubset : as ⊆ ServiceId.all.map .diagnostics := by
    intro a ha
    obtain ⟨s, rfl⟩ := has a ha
    exact List.mem_map_of_mem s.id_mem_all
  obtain ⟨bs, hperm, hsublist⟩ := h.subperm hsubset
  rw [← (hperm.map _).sum_eq]
  exact (hsublist.map _).sum_le_sum fun _ _ => Nat.zero_le _

theorem LongAnswer.count_eq {st st' : Stage} (a : LongAnswer)
    (hservices : st'.cycle.services.length = st.cycle.services.length)
    (hlayout : st'.opening.layout = st.opening.layout) (hid : st'.service.id = st.service.id) :
    a.count st' = a.count st := by
  cases a with
  | parameters => rfl
  | services => exact hservices
  | diagnostics id =>
    rw [count, count, Service.diagnosticCount_eq, Service.diagnosticCount_eq, hid]
  | _ => simp only [count, hlayout]

/-- What is left of the long answer of a speaker. -/
def Entry.left? (σ : Speaker) (e : Entry) : Option (Series LongAnswer) :=
  match σ with
  | .service _ => e.service.left?
  | .reporter id => e.reporter.left? id

/-- What a speaker has before it when it comes to its long answer. -/
def Entry.stage? (σ : Speaker) (c : Cycle) (position : Nat) (found : Shared) (e : Entry) :
    Option Stage :=
  match σ with
  | .service _ => e.service.stage? c position found
  | .reporter _ => (Service.turn c { self := e.service, shared := found }).toOption.map fun t =>
      e.reporter.stage c t.self position t.shared

/-- What a speaker has queued. -/
def Node.EntryTrace.said (σ : Speaker) (t : Node.EntryTrace) : List Action :=
  match σ with
  | .service _ => t.service.actions
  | .reporter _ => t.reporter.actions

namespace Node

/-- The first entry of a service with this id. -/
def entryOf? (id : ServiceId) (n : Node) : Option Entry := n.entries.find? (·.service.id == id)

/-- What is left of the long answer of a speaker. -/
def left? (σ : Speaker) (n : Node) : Option (Series LongAnswer) :=
  (n.entryOf? σ.id).bind (·.left? σ)

/-- What a speaker has before it in the next cycle when it comes to its long answer. -/
def stage? (σ : Speaker) (now : Time) (n : Node) : Option Stage :=
  (n.entryOf? σ.id).bind fun e =>
    (n.foundBy σ.id now).toOption.bind fun found =>
      e.stage? σ (n.facts now) (1 + (n.before σ.id).length) found

/-- What a speaker has queued in a cycle. -/
def saidBy (σ : Speaker) (n : Node) (o : Outcome) : List Action :=
  o.traces[(n.before σ.id).length]?.elim [] (·.said σ)

variable {n m : Node} {now : Time} {o : Outcome} {σ : Speaker} {id : ServiceId}

/-! ## The turn of an entry -/

section Entry

variable {c : Cycle} {position : Nat} {e e' : Entry} {found shared : Shared} {trace : EntryTrace}

/-- Whoever gives a long answer conducts it in the turn of its entry. -/
theorem exists_conducts_entryTurn {a : LongAnswer} (ha : a.speaker = σ) (hid : e.service.id = σ.id)
    (h : entryTurn c position e found = .ok ((e', trace), shared)) :
    ∃ st, e.stage? σ c position found = some st ∧
      Conducts σ (e.left? σ) st (e'.left? σ) (trace.said σ) := by
  obtain ⟨t, ht, u, rfl, rfl, rfl, rfl⟩ := entryTurn_eq_ok_iff.1 h
  cases σ with
  | service id =>
    obtain rfl : e.service.id = id := hid
    exact Service.conducts ht ha
  | reporter id =>
    obtain rfl : e.service.id = id := hid
    have hconducts := Reporter.conducts c t.self position t.shared e.reporter
    rw [Service.id_turn ht] at hconducts
    exact ⟨_, by rw [Entry.stage?, ht]; rfl, hconducts⟩

theorem stage?_eq_some_of_entry {st : Stage} (h : e.stage? σ c position found = some st) :
    st.cycle = c ∧ st.position = position ∧ st.opening.layout = found.config.layout ∧
      st.service.id = e.service.id := by
  cases σ with
  | service id =>
    obtain ⟨hcycle, hposition, hopening, hid⟩ := Service.stage?_eq_some h
    exact ⟨hcycle, hposition, congrArg _ hopening, hid⟩
  | reporter id =>
    obtain ⟨t, ht, rfl⟩ := Option.map_eq_some_iff.1 h
    have hturn := toOption_eq_some_iff.1 ht
    exact ⟨rfl, rfl, (Service.edits_turn hturn).changesOnly.layout, Service.id_turn hturn⟩

end Entry

/-! ## The cycle -/

theorem entryOf?_eq_some {before after : List Entry} {e : Entry}
    (hsplit : n.entries = before ++ e :: after) (he : e.service.id = id)
    (hbefore : ∀ x ∈ before, x.service.id ≠ id) : n.entryOf? id = some e := by
  have hnone : before.find? (·.service.id == id) = none :=
    List.find?_eq_none.2 fun x hx => by simpa using hbefore x hx
  rw [entryOf?, hsplit, List.find?_append, hnone, Option.none_or]
  exact List.find?_cons_of_pos (beq_iff_eq.2 he)

theorem Passage.entryOf?_eq (p : Passage id now n) : n.entryOf? id = some p.entry :=
  entryOf?_eq_some p.entries p.id_entry p.before_ne

theorem Passage.entryOf?_outcome (p : Passage id now n) :
    p.outcome.node.entryOf? id = some p.done :=
  entryOf?_eq_some p.entries_outcome ((id_entryTurn p.turn).trans p.id_entry) p.first_ne

/-- Whoever gives a long answer conducts it in every cycle. -/
theorem exists_conducts {a : LongAnswer} (ha : a.speaker = σ) (hone : n.HasOne σ.id)
    (h : n.cycle now = .ok o) :
    ∃ st, n.stage? σ now = some st ∧
      Conducts σ (n.left? σ) st (o.node.left? σ) (n.saidBy σ o) := by
  obtain ⟨p, rfl⟩ := hone.exists_passage h
  obtain ⟨st, hst, hconducts⟩ := exists_conducts_entryTurn ha p.id_entry p.turn
  refine ⟨st, ?_, ?_⟩
  · rw [stage?, p.entryOf?_eq, Option.bind_some, p.foundBy_eq]
    exact hst
  · rw [left?, left?, saidBy, p.entryOf?_eq, p.entryOf?_outcome, p.getElem?_traces]
    exact hconducts

theorem stage?_eq_some {st : Stage} (h : n.stage? σ now = some st) :
    st.cycle = n.facts now ∧ st.position = 1 + (n.before σ.id).length ∧
      st.opening.layout = n.config.layout ∧ st.service.id = σ.id := by
  obtain ⟨e, he, h⟩ := Option.bind_eq_some_iff.1 h
  obtain ⟨found, hfound, h⟩ := Option.bind_eq_some_iff.1 h
  obtain ⟨hcycle, hposition, hlayout, hid⟩ := stage?_eq_some_of_entry h
  have hsame : (e.service.id == σ.id) = true :=
    List.find?_some (p := fun e : Entry => e.service.id == σ.id) he
  refine ⟨hcycle, hposition, hlayout.trans ?_, hid.trans (beq_iff_eq.1 hsame)⟩
  obtain ⟨r, hr, rfl⟩ := map_eq_ok_iff.1 (toOption_eq_some_iff.1 hfound)
  exact (edits_turns hr fun x _ => parts_subset x.service).changesOnly.layout

/-! ## Between the cycles -/

theorem left?_core (s : Service) : s.core.left? = s.left? := by
  cases s <;> rfl

/-- What is left of the long answers is told by the cores of the services and by the reporters. -/
theorem left?_congr (hcores : m.cores = n.cores)
    (hreporters : m.entries.map Entry.reporter = n.entries.map Entry.reporter) :
    m.left? σ = n.left? σ := by
  have hzip : ∀ n : Node, n.left? σ = ((n.cores.zip (n.entries.map Entry.reporter)).find?
      (·.1.id == σ.id)).bind fun x => Entry.left? σ ⟨x.1, x.2⟩ := by
    intro n
    have hleft : ∀ e : Entry, Entry.left? σ ⟨e.service.core, e.reporter⟩ = e.left? σ := by
      intro e
      cases σ with
      | service id => exact left?_core e.service
      | reporter id => rfl
    have hid : ((fun x : Service × Reporter => x.1.id == σ.id) ∘
        fun e : Entry => (e.service.core, e.reporter)) = fun e => e.service.id == σ.id :=
      funext fun e => congrArg (· == σ.id) e.service.id_core
    rw [cores, List.zip_map', List.find?_map, hid, Option.bind_map]
    exact congrArg _ (funext fun e => (hleft e).symm)
  rw [hzip, hzip, hcores, hreporters]

/-- No request reaches a reporter. -/
theorem reporters_serve (n : Node) (r : Request) :
    (n.serve r).entries.map Entry.reporter = n.entries.map Entry.reporter := by
  obtain ⟨entries, indication, queue, heq, hentries⟩ := n.exists_serve_eq r
  rw [heq]
  exact map_eq_of_touched hentries Entry.Touched.reporter

/-- Nothing but a cycle reaches what is left of a long answer. -/
theorem Moves.left {events : List Event} (h : n.Moves m events) (hnone : rounds events = []) :
    m.left? σ = n.left? σ := by
  cases h with
  | nothing => rfl
  | round _ => contradiction
  | delivered _ => rfl
  | collected _ => rfl
  | asked r => exact left?_congr (n.sameCore_serve r).cores (reporters_serve n r)

end Node

end RailNode
