import RailNode.Proofs.Device.Identity
import RailNode.Proofs.Node.Silence

/-
  A cycle from the point of view of the service that every node has. Of a node with one such
  service a cycle is the turns of the others, its own turn, and turns of others again
  (`HasOne.exists_minimumVisit`), and what others do leaves the standing of the node. What only this
  service can say, nobody else says in the cycle (`MinimumVisit.exists_queued`).
-/
namespace RailNode

open RailNode.Configuration

/-- The state of a service that is the one for the number. -/
def Service.minimumNode? : Service → Option MinimumNode
  | minimumNode s => some s
  | _ => none

theorem Service.minimumNode?_eq_none {s : Service} (h : s.id ≠ .minimumNode) :
    s.minimumNode? = none := by
  cases s with
  | minimumNode s => exact absurd rfl h
  | _ => rfl

namespace Node

variable {n m : Node} {now : Time} {o : Outcome}

/-- The state of the service for the number, of several that of the first. -/
def minimumNode (n : Node) : MinimumNode :=
  (n.entries.findSome? (·.service.minimumNode?)).getD {}

/-- Where a node stands with its number. -/
def standing (n : Node) : Standing := .of n.minimumNode n.config

/-- The service for the number that stands behind others is the one that is found. -/
theorem minimumNode_eq {before after : List Entry} {e : Entry} {s : MinimumNode}
    (hsplit : n.entries = before ++ e :: after) (hs : e.service = .minimumNode s)
    (hbefore : ∀ x ∈ before, x.service.id ≠ .minimumNode) : n.minimumNode = s := by
  have hnone : before.findSome? (·.service.minimumNode?) = none :=
    List.findSome?_eq_none_iff.2 fun x hx => Service.minimumNode?_eq_none (hbefore x hx)
  rw [minimumNode, hsplit, List.findSome?_append, hnone, Option.none_or, List.findSome?_cons, hs]
  rfl

theorem HasOne.minimumNode_eq (h : n.HasOne .minimumNode) {s : MinimumNode} (hs : n.RunsOn s) :
    n.minimumNode = s := by
  obtain ⟨e, after, hsplit, he, hbefore, _⟩ := h.split
  obtain ⟨s', hs'⟩ := MinimumNode.exists_minimumNode he
  rw [Node.minimumNode_eq hsplit hs' hbefore]
  refine h.runsOn_eq ?_ hs
  rw [RunsOn, hsplit, List.map_append, List.map_cons, hs']
  exact List.mem_append_right _ List.mem_cons_self

theorem HasOne.runsOn_minimumNode (h : n.HasOne .minimumNode) : n.RunsOn n.minimumNode := by
  obtain ⟨s, hs⟩ := h.exists_runsOn
  rwa [h.minimumNode_eq hs]

/-- How a cycle passes the service for the number, which has the turn `t`. -/
structure MinimumVisit (p : Passage .minimumNode now n) (t : Turn MinimumNode) : Prop where
  turn : MinimumNode.turn (n.facts now) { self := n.minimumNode, shared := p.found } = .ok t
  found : Edits MinimumNode.otherParts n.config p.found.config
  minimumNode : p.outcome.node.minimumNode = t.self
  given : n.givenBy .minimumNode p.outcome = t.given
  left : p.left.config = t.config
  edits : Edits MinimumNode.otherParts t.config p.outcome.node.config

theorem HasOne.exists_minimumVisit (hone : n.HasOne .minimumNode) (h : n.cycle now = .ok o) :
    ∃ (p : Passage .minimumNode now n) (t : Turn MinimumNode),
      p.outcome = o ∧ MinimumVisit p t := by
  obtain ⟨p, hp⟩ := hone.exists_passage h
  obtain ⟨s, hs⟩ := MinimumNode.exists_minimumNode p.id_entry
  obtain ⟨t, ht, u, hu, hdone, htrace, hleft⟩ := entryTurn_eq_ok_iff.1 p.turn
  unfold Service.turn at ht
  rw [hs] at ht
  obtain ⟨v, hv, rfl⟩ := map_eq_ok_iff.1 ht
  have hconfig : p.left.config = v.config := by
    rw [hleft, ← hu]
    exact Reporter.config_turn _ _ _ _
  have hafter := edits_turns p.turns_after fun x hx =>
    MinimumNode.parts_subset_otherParts (p.after_ne x hx)
  refine ⟨p, v, hp, ?_, ?_, ?_, ?_, hconfig, hconfig ▸ hafter⟩
  · rw [Node.minimumNode_eq p.entries hs p.before_ne]
    exact hv
  · exact edits_turns p.turns_before fun x hx =>
      MinimumNode.parts_subset_otherParts (p.before_ne x hx)
  · exact Node.minimumNode_eq p.entries_outcome (by rw [hdone]; rfl) p.first_ne
  · rw [givenBy, p.getElem?_traces, Option.elim_some, htrace]
    rfl

namespace MinimumVisit

variable {p : Passage .minimumNode now n} {t : Turn MinimumNode}

/-- What the service finds is where the node stands before the cycle. -/
theorem standing_found (v : MinimumVisit p t) :
    Standing.of n.minimumNode p.found.config = n.standing :=
  MinimumNode.of_eq_of_others _ v.found

/-- What the service leaves is where the node stands after the cycle. -/
theorem standing_outcome (v : MinimumVisit p t) : p.outcome.node.standing = t.standing := by
  rw [standing, v.minimumNode]
  exact MinimumNode.of_eq_of_others _ v.edits

/-- Before the service and after it others queue nothing that only this service can say. -/
theorem exists_queued (v : MinimumVisit p t) (hn : n.HasFragments) : ∃ before after,
    p.outcome.queued = before ++ (t.given ++ after) ∧
      ∀ op ∉ Service.otherOpcodes, op ∉ Reporter.vocabulary ++ Opcode.responses →
        before.filter (·.sends op) = [] ∧ after.filter (·.sends op) = [] := by
  obtain ⟨t', ht', u, hu, _, htrace, _⟩ := entryTurn_eq_ok_iff.1 p.turn
  have hgiven : t'.given = t.given := by
    rw [← v.given, givenBy, p.getElem?_traces, Option.elim_some, htrace]
    rfl
  have hspeaks := Reporter.speaks_turn (n.facts now) t'.self
    (1 + (n.before .minimumNode).length) { self := p.entry.reporter, shared := t'.shared }
  rw [hu] at hspeaks
  refine ⟨(p.first.map (·.2)).flatMap EntryTrace.actions, u.given ++
    (p.rest.map (·.2)).flatMap EntryTrace.actions, ?_, fun op hothers hreporter => ?_⟩
  · rw [Outcome.queued, p.traces_outcome, List.flatMap_append, List.flatMap_cons, htrace,
      EntryTrace.actions, List.append_assoc]
    show _ ++ (t'.given ++ (u.given ++ _)) = _
    rw [hgiven]
  · have hsilent : ∀ e ∈ n.entries, e.service.id ≠ .minimumNode →
        op ∉ e.service.vocabulary ++ Opcode.responses :=
      fun e he hid hmem => hothers (Service.vocabulary_subset hid (hn e he) hmem)
    rw [p.entries, List.forall_mem_append, List.forall_mem_cons] at hsilent
    obtain ⟨hbefore, _, hafter⟩ := hsilent
    refine ⟨filter_sends_turns p.turns_before
      (fun e he => hbefore e he (p.before_ne e he)) hreporter, ?_⟩
    rw [List.filter_append]
    exact List.append_eq_nil_iff.2 ⟨hspeaks.queues.filter_sends hreporter,
      filter_sends_turns p.turns_after (fun e he => hafter e he (p.after_ne e he)) hreporter⟩

theorem filter_queued (v : MinimumVisit p t) (hn : n.HasFragments) {op : Opcode}
    (hothers : op ∉ Service.otherOpcodes)
    (hreporter : op ∉ Reporter.vocabulary ++ Opcode.responses) :
    p.outcome.queued.filter (·.sends op) = t.sent op := by
  obtain ⟨before, after, hqueued, hsilent⟩ := v.exists_queued hn
  obtain ⟨hbefore, hafter⟩ := hsilent op hothers hreporter
  rw [hqueued, List.filter_append, List.filter_append, hbefore, hafter, List.nil_append,
    List.append_nil]
  rfl

end MinimumVisit

/-! ## What stays between cycles -/

theorem minimumNode?_core (s : Service) : s.core.minimumNode? = s.minimumNode? := by
  cases s <;> rfl

theorem SameCore.minimumNode_eq (h : n.SameCore m) : m.minimumNode = n.minimumNode := by
  have hcores : ∀ n : Node,
      n.minimumNode = (n.cores.findSome? Service.minimumNode?).getD {} := by
    intro n
    unfold minimumNode Node.cores
    rw [List.findSome?_map]
    congr 2
    funext e
    exact (minimumNode?_core e.service).symm
  rw [hcores, hcores, h.cores]

theorem SameCore.standing_eq (h : n.SameCore m) : m.standing = n.standing := by
  rw [standing, standing, h.minimumNode_eq, h.config]

/-- A node that has just been started has a new service for its number. -/
theorem StartsFrom.minimumNode_eq {b : Build} (h : n.StartsFrom b) (hb : b.HasOne .minimumNode) :
    n.minimumNode = {} := by
  obtain ⟨s, hs⟩ := (h.hasOne hb).exists_runsOn
  rw [(h.hasOne hb).minimumNode_eq hs]
  rw [RunsOn, h.entries, List.map_map] at hs
  obtain ⟨s', hs', rfl⟩ := List.mem_map.1 hs
  exact hb.isNew _ hs'

end Node

end RailNode
