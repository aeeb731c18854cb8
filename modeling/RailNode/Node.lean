import RailNode.Service.Reporter

/-
  A node: its configuration, its link, its queue and its services. In each cycle it takes at most
  one action from the queue and gives every service its turn, in order, each followed by the
  reporter of its diagnostics.
-/
namespace RailNode

/-- A service of a node and the reporter of its diagnostics. -/
structure Entry where
  service : Service
  reporter : Reporter := {}
deriving DecidableEq, Repr

/-- What the user interface shows. -/
structure Indication where
  mode : Mode := .uninitialised
  /-- Whether something worth a blink has happened. -/
  activity : Bool := false
deriving DecidableEq, Repr

structure Node where
  config : Configuration
  link : Link
  queue : Backlog Action queueCapacity
  parameters : Parameters
  timing : Timing
  entries : List Entry
  indication : Indication

namespace Node

/-- The most services that a node can have. -/
def maxServices : Nat := 12

/-- Puts a node together; `none` if there are too many services. -/
def assemble? (config : Configuration) (link : Link) (info : ModuleInfo) (timing : Timing)
    (services : List Service) : Option Node :=
  if maxServices < services.length then none
  else
    some
      { config, link
        queue := {}
        parameters :=
          { info
            layout := config.layout
            serviceFlags := (services.map Service.flags).foldl (· ||| ·) 0 }
        timing
        entries := services.map fun service => { service }
        indication := {} }

/-- What discovery tells of the services, in order. -/
def services (n : Node) : List ServiceInfo := n.entries.map (·.service.info)

/-! ## Cycles -/

/-- What an entry has given out in a cycle. -/
structure EntryTrace where
  service : Trace
  reporter : Trace

/-- The turn of an entry. -/
def entryTurn (c : Cycle) (position : Nat) (e : Entry) (shared : Shared) :
    Except Halt ((Entry × EntryTrace) × Shared) := do
  let t ← Service.turn c { self := e.service, shared }
  let r := Reporter.turn c t.self position { self := e.reporter, shared := t.shared }
  return ((⟨t.self, r.self⟩, ⟨t.trace, r.trace⟩), r.shared)

/-- The turns of entries one after the other, the first of them at this position. -/
def turns (c : Cycle) (position : Nat) (shared : Shared) :
    List Entry → Except Halt (List (Entry × EntryTrace) × Shared)
  | [] => .ok ([], shared)
  | e :: rest => do
    let (e, shared) ← entryTurn c position e shared
    let (rest, shared) ← turns c (position + 1) shared rest
    return (e :: rest, shared)

/-- Shows what an action has to show. -/
def indicate (i : Indication) : Option Action → Indication
  | some (.showMode mode) => { i with mode }
  | some .showActivity => { i with activity := true }
  | _ => i

/-- The action that the next cycle takes from the queue, and the queue without it. -/
def nextAction (n : Node) : Option Action × Backlog Action queueCapacity :=
  match n.queue.pop? with
  | none => (none, n.queue)
  | some (a, queue) => (some a, queue)

/-- What a cycle leaves: the node, and what each of its entries has given out. -/
structure Outcome where
  node : Node
  traces : List EntryTrace

/-- Runs a cycle. -/
def cycle (now : Time) (n : Node) : Except Halt Outcome := do
  let (action, queue) := n.nextAction
  let c : Cycle :=
    { now, action, services := n.services, parameters := n.parameters, timing := n.timing }
  let (entries, shared) ← turns c 1 { config := n.config, link := n.link, queue } n.entries
  return {
    node :=
      { n with
        config := shared.config
        link := shared.link
        queue := shared.queue
        entries := entries.map (·.1)
        indication := indicate n.indication action }
    traces := entries.map (·.2) }

end Node

end RailNode
