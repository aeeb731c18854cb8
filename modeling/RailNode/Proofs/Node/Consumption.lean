import RailNode.Proofs.Device.EventIndex
import RailNode.Proofs.Device.LearnedEvents
import RailNode.Proofs.Node.Learners
import RailNode.Proofs.Node.Speakers
import RailNode.Proofs.Service.Consumption

/-
  Learned events from the bus to the application. In each cycle the consumer keeps what the message
  brings, and the service that acknowledges answers just that, though it looks the event up again.
  Over the life of a node the events leave the consumer in the order in which they came: the
  application takes them, or the oldest makes room when eight wait, and is counted
  (`delivers_of_run`).
-/
namespace RailNode

open RailNode.Configuration

/-- The consumer, if the service is one. -/
def Service.consumer? : Service → Option EventConsumer
  | consumer s => some s
  | _ => none

/-- In this list of services the one that every node has stands before one consumer and before one
    service that acknowledges. -/
structure ServesEvents (ids : List ServiceId) : Prop where
  minimumNode : ids.count .minimumNode = 1
  consumer : ids.count .consumer = 1
  acknowledge : ids.count .acknowledge = 1
  beforeConsumer : .minimumNode ∈ ids.takeWhile (· != .consumer)
  beforeAcknowledge : .minimumNode ∈ ids.takeWhile (· != .acknowledge)

namespace Node

variable {n m : Node} {now : Time} {o : Outcome} {id : ServiceId} {found : Shared}

/-! ## What services find -/

/-- No turn touches the table in a cycle whose message has no opcode that the node knows. -/
theorem edits_turn_of_unknown {c : Cycle} {t t' : Turn Service}
    (hc : ∀ m, c.received? = some m → m.opcode? = none) (h : Service.turn c t = .ok t') :
    Edits Teaching.otherParts t.config t'.config := by
  by_cases hid : t.self.id = .teaching
  · obtain ⟨s, hs⟩ := Teaching.exists_teaching hid
    unfold Service.turn at h
    rw [hs] at h
    obtain ⟨u, hu, rfl⟩ := map_eq_ok_iff.1 h
    have hconfig : u.config = t.config := by
      unfold Teaching.turn at hu
      split at hu
      · rename_i m hm
        obtain ⟨v, hv, rfl⟩ := map_eq_ok_iff.1 hu
        unfold Teaching.handle at hv
        rw [hc m hm] at hv
        rw [Teaching.config_pollListing, ← Except.ok.inj hv, Turn.config_withSelf]
      · rw [← Except.ok.inj hu, Teaching.config_pollListing, Turn.config_withSelf]
    rw [Turn.config_map, hconfig]
  · exact (Service.edits_turn h).mono (Teaching.parts_subset_otherParts hid)

theorem indexAgrees_found (hc : n.config.IndexAgrees) (h : n.foundBy id now = .ok found) :
    found.config.IndexAgrees := by
  obtain ⟨r, hr, rfl⟩ := map_eq_ok_iff.1 h
  exact (edits_turns hr fun e _ => parts_subset e.service).indexAgrees hc

/-- Every service recognises in the message of a cycle what the table tells with which the cycle
    begins. -/
theorem recognise?_found (hc : n.config.IndexAgrees) (h : n.foundBy id now = .ok found)
    {m : Message} (hm : ∀ m', (n.facts now).received? = some m' → m' = m) :
    found.config.recognise? m = n.config.recognise? m := by
  by_cases ho : m.opcode? = none
  · have hindex := indexAgrees_found hc h
    obtain ⟨r, hr, rfl⟩ := map_eq_ok_iff.1 h
    have hedits : Edits Teaching.otherParts n.config r.2.config :=
      edits_turns_of hr fun e _ {_ _} ht =>
        edits_turn_of_unknown (fun m' hm' => hm m' hm' ▸ ho) ht
    exact hc.recognise?_of_changesOnly hindex hedits.changesOnly (by decide) m
  · have hnone : ∀ d : Configuration, d.recognise? m = none := fun d =>
      Option.eq_none_iff_forall_ne_some.2 fun e he => ho (opcode?_of_recognise? he)
    rw [hnone, hnone]

/-! ## The consumer of a node -/

/-- The state of the consumer, of several that of the first. -/
def consumer (n : Node) : EventConsumer :=
  ((n.entryOf? .consumer).bind (·.service.consumer?)).getD .new

/-- The event that the consumer keeps in the next cycle, if any. -/
def consumed? (now : Time) (n : Node) : Option RecognisedEvent :=
  (n.foundBy .consumer now).toOption.bind fun found =>
    n.consumer.consumed? (n.facts now) found.config

theorem consumer_eq {before after : List Entry} {e : Entry} {s : EventConsumer}
    (hsplit : n.entries = before ++ e :: after) (hs : e.service = .consumer s)
    (hbefore : ∀ x ∈ before, x.service.id ≠ .consumer) : n.consumer = s := by
  rw [consumer, entryOf?_eq_some hsplit (by rw [hs]; rfl) hbefore, Option.bind_some, hs]
  rfl

namespace Passage

/-- The consumer keeps what it recognises on its own. -/
theorem consumed?_eq (p : Passage .consumer now n) :
    n.consumed? now = n.consumer.consumed? (n.facts now) p.found.config := by
  rw [consumed?, p.foundBy_eq]
  rfl

theorem pending_consumer (p : Passage .consumer now n) : p.outcome.node.consumer.pending =
    n.consumer.pending.putAll (n.consumed? now).toList := by
  obtain ⟨s, hs⟩ := EventConsumer.exists_consumer p.id_entry
  obtain ⟨t, ht, hdone, -, -⟩ := entryTurn_eq_ok p.turn
  unfold Service.turn at ht
  rw [hs] at ht
  obtain rfl := Except.ok.inj ht
  have hleft : p.outcome.node.consumer =
      (EventConsumer.turn (n.facts now) { self := s, shared := p.found }).self :=
    consumer_eq p.entries_outcome (by rw [hdone]; rfl) p.first_ne
  rw [p.consumed?_eq, hleft, EventConsumer.turn_eq, consumer_eq p.entries hs p.before_ne]
  rfl

theorem given_acknowledge (p : Passage .acknowledge now n) {m : Message}
    (hm : (n.facts now).received? = some m) : n.givenBy .acknowledge p.outcome =
      if p.found.config.acknowledge ∧ p.found.config.mode = .normal then
        (p.found.config.recognise? m).toList.map
          (RecognisedEvent.acknowledgement p.found.config.nodeNumber)
      else [] := by
  obtain ⟨s, hs⟩ := EventAcknowledge.exists_acknowledge p.id_entry
  obtain ⟨t, ht, -, htrace, -⟩ := entryTurn_eq_ok p.turn
  unfold Service.turn at ht
  rw [hs] at ht
  obtain rfl := Except.ok.inj ht
  rw [givenBy, p.getElem?_traces, Option.elim_some, htrace]
  exact EventAcknowledge.given_turn hm { self := s, shared := p.found }

end Passage

/-! ## Requests -/

theorem updateFirst_eq_none {α : Type} {f : Service → Option (α × Service)} {es : List Entry}
    (h : updateFirst f es = none) : ∀ e ∈ es, f e.service = none := by
  induction es with
  | nil => exact fun _ he => absurd he List.not_mem_nil
  | cons e es ih =>
    unfold updateFirst at h
    split at h
    · contradiction
    · rename_i hnone
      exact List.forall_mem_cons.2 ⟨hnone, ih (Option.map_eq_none_iff.1 h)⟩

/-- An update that is for services of another kind leaves the first with this id. -/
theorem find?_updateFirst {α : Type} {f : Service → Option (α × Service)} {es es' : List Entry}
    {a : α} (h : updateFirst f es = some (a, es'))
    (hf : ∀ {s s' : Service} {a : α}, f s = some (a, s') → s.id ≠ id ∧ s'.id ≠ id) :
    es'.find? (·.service.id == id) = es.find? (·.service.id == id) := by
  obtain ⟨before, e, after, s, rfl, -, hs, rfl⟩ := exists_of_updateFirst h
  obtain ⟨he, hs⟩ := hf hs
  rw [List.find?_append, List.find?_append, List.find?_cons_of_neg (by simpa using hs),
    List.find?_cons_of_neg (by simpa using he)]

theorem consumer_congr (h : m.entryOf? .consumer = n.entryOf? .consumer) :
    m.consumer = n.consumer := by
  rw [consumer, consumer, h]

theorem consumer_produce {slot : Nat} {on : Bool} {data : List UInt8}
    (h : n.produce slot on data = .ok m) : m.consumer = n.consumer := by
  unfold produce at h
  dsimp only at h
  split at h
  · contradiction
  · rename_i entries hcount
    split at h
    · contradiction
    · rw [← Except.ok.inj h]
      refine consumer_congr (find?_updateFirst hcount fun {s s' _} hs => ?_)
      cases s with
      | producer s =>
        rw [← (Prod.mk.inj (Option.some.inj hs)).2]
        exact ⟨by simp only [Service.id]; decide, by simp only [Service.id]; decide⟩
      | _ => contradiction

theorem consumer_setLongMessage (n : Node) (s : LongMessage) :
    (n.setLongMessage s).consumer = n.consumer := by
  refine consumer_congr ?_
  show ((updateFirst _ n.entries).elim n.entries (·.2)).find? _ = n.entries.find? _
  rcases hupdate : updateFirst _ n.entries with _ | ⟨_, entries⟩
  · rfl
  · refine find?_updateFirst hupdate fun {s s' _} hs => ?_
    cases s with
    | longMessage s =>
      rw [← (Prod.mk.inj (Option.some.inj hs)).2]
      exact ⟨by simp only [Service.id]; decide, by simp only [Service.id]; decide⟩
    | _ => contradiction

/-- A request to the long message service that may be refused leaves the consumer. -/
theorem consumer_elim {α : Type} (x : Option α) (f : α → Node)
    (hf : ∀ a, (f a).consumer = n.consumer) : (x.elim n f).consumer = n.consumer := by
  rcases x with _ | a
  · rfl
  · exact hf a

/-- The application reaches the consumer in one way only. -/
theorem consumer_serve (n : Node) {r : Request} (hr : r ≠ .takeConsumed) :
    (n.serve r).consumer = n.consumer := by
  cases r with
  | put a => rfl
  | takeActivity => rfl
  | produce slot on data =>
    unfold serve
    dsimp only
    rcases h : n.produce slot on data with _ | m
    · rfl
    · exact consumer_produce h
  | takeConsumed => exact absurd rfl hr
  | subscribe stream => exact consumer_elim _ _ n.consumer_setLongMessage
  | send stream payload => exact consumer_elim _ _ n.consumer_setLongMessage
  | takeReceipt => exact consumer_elim _ _ fun r => n.consumer_setLongMessage r.2

/-- What the application takes is the oldest event of the consumer. -/
theorem takeConsumed?_eq (hone : n.HasOne .consumer) :
    (n.takeConsumed?.map fun x => (x.1, x.2.consumer)) = n.consumer.take? := by
  obtain ⟨e, after, hsplit, he, hbefore, -⟩ := hone.split
  obtain ⟨s, hs⟩ := EventConsumer.exists_consumer he
  rw [consumer_eq hsplit hs hbefore]
  have hmem : Service.consumer s ∈ n.entries.map (·.service) :=
    List.mem_map.2 ⟨e, by rw [hsplit]; simp, hs⟩
  rcases htake : n.takeConsumed? with _ | ⟨x, m⟩
  · have hnone := updateFirst_eq_none (Option.map_eq_none_iff.1 htake) e (by rw [hsplit]; simp)
    rw [hs] at hnone
    exact (Option.map_eq_none_iff.1 hnone).symm
  · obtain ⟨⟨_, entries⟩, hupdate, heq⟩ := Option.map_eq_some_iff.1 htake
    obtain ⟨rfl, rfl⟩ := Prod.mk.inj heq
    obtain ⟨first, e', rest, s', hsplit', -, hs', rfl⟩ := exists_of_updateFirst hupdate
    rcases hservice : e'.service with _ | _ | _ | _ | s₁ | _ | _ | _
    all_goals rw [hservice] at hs'
    case consumer =>
      obtain ⟨⟨_, s₂⟩, htaken, heq⟩ := Option.map_eq_some_iff.1 hs'
      obtain ⟨rfl, rfl⟩ := Prod.mk.inj heq
      have hmem' : Service.consumer s₁ ∈ n.entries.map (·.service) :=
        List.mem_map.2 ⟨e', by rw [hsplit']; simp, hservice⟩
      obtain rfl := Service.consumer.inj (hone.eq hmem' rfl hmem rfl)
      rw [htaken]
      refine congrArg (fun s => some (_, s)) (consumer_eq (s := s₂) rfl rfl ?_)
      exact hone.ne_of_before hsplit' (by rw [hservice]; rfl)
    all_goals contradiction

/-! ## Rounds -/

namespace Round

variable {r : Round}

/-- The event that the consumer keeps in the round, if any. -/
def consumed? (r : Round) : Option RecognisedEvent := r.node.consumed? r.now

/-- The message is offered to the services, or it is the node's own and the consumer is to look at
    those too. -/
def Observes (r : Round) (m : Message) : Prop :=
  r.offered? = some m ∨ r.node.consumer.consumesOwn = true ∧ r.taken? = some m

/-- What the round does with the events of the table. In normal mode the consumer keeps the event
    that the message brings, and nothing else; what it keeps is acknowledged once, if it has come
    from the bus and acknowledgement is on, and nothing else is. -/
structure Consumes (r : Round) : Prop where
  consumed : ∃ found, r.node.foundBy .consumer r.now = .ok found ∧ ∀ e,
    r.consumed? = some e ↔
      found.config.mode = .normal ∧ ∃ m, r.Observes m ∧ r.node.config.Brings m e
  pending : r.outcome.node.consumer.pending =
    r.node.consumer.pending.putAll r.consumed?.toList
  acknowledged : ∀ m, r.offered? = some m →
    ∃ found, r.node.foundBy .acknowledge r.now = .ok found ∧
      r.node.givenBy .acknowledge r.outcome =
        if found.config.acknowledge then
          r.consumed?.toList.map (RecognisedEvent.acknowledgement found.config.nodeNumber)
        else []

theorem observed?_eq_some_iff {m : Message} :
    r.node.consumer.observed? (r.node.facts r.now) = some m ↔ r.Observes m := by
  unfold EventConsumer.observed? Observes offered? taken? facts
  dsimp only
  rcases r.node.nextAction.1 with _ | a
  · simp
  · cases a <;> simp [Action.received?, Action.transmitted?]

/-- A message from the bus is the only one that the round observes. -/
theorem Observes.eq {m m' : Message} (h : r.Observes m)
    (hm' : (r.node.facts r.now).received? = some m') : m' = m := by
  have hoffered : r.offered? = some m' := (received?_facts r.now r.node).symm.trans hm'
  rcases h with h | ⟨-, h⟩
  · exact Option.some.inj (hoffered.symm.trans h)
  · unfold taken? at h
    unfold offered? at hoffered
    rcases haction : r.node.nextAction.1 with _ | a
    all_goals rw [haction] at h hoffered
    · contradiction
    · cases a <;> contradiction

end Round

/-- What every node that serves events has in every state. -/
structure Attends (n : Node) : Prop where
  services : ServesEvents (n.entries.map (·.service.id))
  index : n.config.IndexAgrees
  sound : n.Sound

namespace Attends

theorem map_before (n : Node) (id : ServiceId) :
    (n.before id).map (·.service.id) = (n.entries.map (·.service.id)).takeWhile (· != id) := by
  rw [List.takeWhile_map]
  rfl

theorem moves {now : List Event} (hn : n.Attends) (h : n.Moves m now) : m.Attends where
  services := h.ids ▸ hn.services
  index := by
    rcases h.sameCore with ⟨hcore, _⟩ | ⟨t, o, hcycle, rfl, _⟩
    · rw [hcore.config]
      exact hn.index
    · exact (edits_cycle hcycle).indexAgrees hn.index
  sound := h.sound hn.sound

/-- The mode that a service behind the one for the mode finds is that with which the cycle ends. -/
theorem mode_found (hn : n.Attends) (p : Passage id now n) (hid : id ≠ .minimumNode)
    (hbefore : .minimumNode ∈ (n.entries.map (·.service.id)).takeWhile (· != id)) :
    p.outcome.node.config.mode = p.found.config.mode := by
  rw [← map_before] at hbefore
  have hedits := p.edits_behind hid (Nat.le_of_eq hn.services.minimumNode) hbefore
  exact hedits.changesOnly.mode (by decide)

/-- Every cycle of such a node does this. -/
theorem consumes (hn : n.Attends) (h : n.cycle now = .ok o) : Round.Consumes ⟨now, n, o⟩ := by
  obtain ⟨p, rfl⟩ := HasOne.exists_passage hn.services.consumer h
  obtain ⟨q, hq⟩ := HasOne.exists_passage hn.services.acknowledge h
  have hmode : q.found.config.mode = p.found.config.mode := by
    rw [← hn.mode_found p (by decide) hn.services.beforeConsumer, ← hq,
      hn.mode_found q (by decide) hn.services.beforeAcknowledge]
  refine ⟨⟨p.found, p.foundBy_eq, fun e => ?_⟩, p.pending_consumer, fun m hm =>
    ⟨q.found, q.foundBy_eq, ?_⟩⟩
  · show n.consumed? now = some e ↔ _
    rw [p.consumed?_eq, EventConsumer.consumed?_eq_some_iff]
    refine and_congr_right fun _ => exists_congr fun m => ?_
    rw [Round.observed?_eq_some_iff (r := ⟨now, n, p.outcome⟩)]
    refine and_congr_right fun hobserves => ?_
    rw [recognise?_found hn.index p.foundBy_eq fun m' => hobserves.eq,
      hn.index.recognise?_eq_some_iff]
  · have hm : (n.facts now).received? = some m := (received?_facts now n).trans hm
    have honly : ∀ m', (n.facts now).received? = some m' → m' = m := fun m' hm' =>
      Option.some.inj (hm'.symm.trans hm)
    have hconsumed : n.consumed? now =
        if p.found.config.mode = .normal then n.config.recognise? m else none := by
      rw [p.consumed?_eq, EventConsumer.consumed?_of_received (Teaching.received?_facts.1 hm),
        recognise?_found hn.index p.foundBy_eq honly]
    show n.givenBy .acknowledge p.outcome = if _ then (n.consumed? now).toList.map _ else []
    rw [← hq, q.given_acknowledge hm, recognise?_found hn.index q.foundBy_eq honly, hmode,
      hconsumed]
    by_cases hnormal : p.found.config.mode = .normal
    · simp only [hnormal, and_true, if_true]
    · simp only [hnormal, and_false, if_false, Option.toList_none, List.map_nil, ite_self]

/-- A cycle in which the consumer has its turn comes to its end. -/
theorem exists_cycle (hn : n.Attends) (h : n.foundBy .consumer now = .ok found) :
    ∃ o, n.cycle now = .ok o := by
  rcases hcycle : n.cycle now with (⟨left, trace⟩ | _) | o
  · obtain ⟨e, after, hsplit, -⟩ := HasOne.split hn.services.consumer
    obtain ⟨r, hr, -⟩ := map_eq_ok_iff.1 h
    have herror := cycle_eq_error hcycle
    rw [hsplit] at herror
    obtain ⟨first, e', rest, r', hafter, -, hturn⟩ :=
      exists_of_turns_eq_error (turns_append_eq_error herror hr)
    -- The service that restarts the device has had its turn before.
    have hid : e'.service.id = .minimumNode := (Service.turn_eq_restart hturn).1
    have hbefore := hn.services.beforeConsumer
    have hone := hn.services.minimumNode
    rw [← map_before, ← List.count_pos_iff] at hbefore
    rw [hsplit, hafter, List.map_append, List.map_append, List.map_cons, List.count_append,
      List.count_append, hid, List.count_cons_self] at hone
    omega
  · exact absurd hcycle (hn.sound.cycle_ne_fault now)
  · exact ⟨o, rfl⟩

end Attends

/-! ## Histories -/

namespace Event

/-- The event that the consumer has kept. -/
def consumed? : Event → Option RecognisedEvent
  | round r => r.consumed?
  | _ => none

/-- The event that has made room for another: the oldest, if eight were waiting. -/
def dropped? : Event → Option RecognisedEvent
  | round r => r.consumed?.bind fun _ => r.node.consumer.pending.ousted?
  | _ => none

/-- The event that the application has taken. -/
def taken? : Event → Option RecognisedEvent
  | asked n .takeConsumed => n.takeConsumed?.map (·.1)
  | _ => none

/-- The event that has left the consumer, one way or the other. -/
def departed? (e : Event) : Option RecognisedEvent := e.taken?.or e.dropped?

end Event

/-- What has become of the events over a history. Those that were consumed have left the consumer in
    their order, taken or dropped, and the rest is still waiting. -/
structure Accounts (events : List Event) (m : Node) : Prop where
  balance : events.filterMap Event.consumed? =
    events.filterMap Event.departed? ++ m.consumer.pending.items
  puts : m.consumer.pending.stats.puts = UInt32.ofNat (events.filterMap Event.consumed?).length
  overflows : m.consumer.pending.stats.overflows =
    UInt32.ofNat (events.filterMap Event.dropped?).length

namespace Accounts

variable {events : List Event} {r : Round}

/-- The consumer is as it was, and nothing has come or gone. -/
theorem same {now : List Event} (h : Accounts events n) (hm : m.consumer = n.consumer)
    (hnow : ∀ e ∈ now, e.consumed? = none ∧ e.departed? = none ∧ e.dropped? = none) :
    Accounts (events ++ now) m := by
  have hnone : ∀ {f : Event → Option RecognisedEvent}, (∀ e ∈ now, f e = none) →
      (events ++ now).filterMap f = events.filterMap f := by
    intro f hf
    rw [List.filterMap_append, List.filterMap_eq_nil_iff.2 hf, List.append_nil]
  have hconsumed := hnone fun e he => (hnow e he).1
  have hdeparted := hnone fun e he => (hnow e he).2.1
  have hdropped := hnone fun e he => (hnow e he).2.2
  constructor
  · rw [hconsumed, hdeparted, hm]
    exact h.balance
  · rw [hconsumed, hm]
    exact h.puts
  · rw [hdropped, hm]
    exact h.overflows

theorem round (h : Accounts events r.node)
    (hr : r.outcome.node.consumer.pending =
      r.node.consumer.pending.putAll r.consumed?.toList) :
    Accounts (events ++ [.round r]) r.outcome.node := by
  have hpos : 0 < EventConsumer.capacity := by decide
  constructor
  · rw [filterMap_concat, filterMap_concat, h.balance, hr, List.append_assoc,
      List.append_assoc]
    exact congrArg _ (Backlog.items_putAll_toList _ _ hpos)
  · rw [filterMap_concat, hr, List.length_append, UInt32.ofNat_add, ← h.puts]
    exact Backlog.puts_putAll_toList _ _
  · rw [filterMap_concat, hr, List.length_append, UInt32.ofNat_add, ← h.overflows]
    exact Backlog.overflows_putAll_toList _ _ hpos

theorem taken (h : Accounts events n) (hone : n.HasOne .consumer) :
    Accounts (events ++ [.asked n .takeConsumed]) (n.serve .takeConsumed) := by
  have htake := takeConsumed?_eq hone
  rcases htaken : n.takeConsumed? with _ | ⟨x, m⟩
  · have hserve : n.serve .takeConsumed = n := by
      unfold serve
      dsimp only
      rw [htaken]
      rfl
    refine h.same (congrArg consumer hserve) fun e he => ?_
    obtain rfl := List.mem_singleton.1 he
    exact ⟨rfl, by rw [Event.departed?, Event.taken?, htaken]; rfl, rfl⟩
  · have hserve : n.serve .takeConsumed = m := by
      unfold serve
      dsimp only
      rw [htaken]
      rfl
    rw [htaken] at htake
    obtain ⟨⟨oldest, pending⟩, hpop, heq⟩ := Option.map_eq_some_iff.1 htake.symm
    obtain ⟨rfl, hm⟩ := Prod.mk.inj heq
    have hpending : m.consumer.pending = pending := (congrArg EventConsumer.pending hm).symm
    have hdeparted : (Event.asked n .takeConsumed).departed? = some oldest := by
      rw [Event.departed?, Event.taken?, htaken]
      rfl
    rw [hserve]
    constructor
    · rw [filterMap_concat, filterMap_concat, hdeparted, h.balance, hpending,
        Backlog.items_of_pop? hpop]
      simp [Event.consumed?]
    · rw [filterMap_concat, hpending, Backlog.puts_of_pop? hpop, h.puts]
      simp [Event.consumed?]
    · rw [filterMap_concat, hpending, Backlog.overflows_of_pop? hpop, h.overflows]
      simp [Event.dropped?]

theorem moves {now : List Event} (h : Accounts events n) (hn : n.Attends) (hmoves : n.Moves m now) :
    Accounts (events ++ now) m := by
  cases hmoves with
  | nothing => exact h.same rfl fun _ he => absurd he List.not_mem_nil
  | round hcycle => exact h.round (r := ⟨_, _, _⟩) (hn.consumes hcycle).pending
  | delivered _ => exact h.same rfl fun e he => List.mem_singleton.1 he ▸ ⟨rfl, rfl, rfl⟩
  | collected _ => exact h.same rfl fun e he => List.mem_singleton.1 he ▸ ⟨rfl, rfl, rfl⟩
  | asked r =>
    by_cases hr : r = .takeConsumed
    · subst hr
      exact h.taken hn.services.consumer
    · refine h.same (n.consumer_serve hr) fun e he => ?_
      obtain rfl := List.mem_singleton.1 he
      cases r with
      | takeConsumed => exact absurd rfl hr
      | _ => exact ⟨rfl, rfl, rfl⟩

end Accounts

/-! ## Runs -/

theorem StartsFrom.pending_consumer {b : Build} (h : n.StartsFrom b)
    (hb : ∀ s ∈ b.services, s.IsNew) : n.consumer.pending = {} := by
  unfold consumer
  rcases hfound : (n.entryOf? .consumer).bind (·.service.consumer?) with _ | s
  · rfl
  · obtain ⟨e, he, hs⟩ := Option.bind_eq_some_iff.1 hfound
    have hmem := List.mem_of_find?_eq_some he
    rw [h.entries] at hmem
    obtain ⟨service, hservice, rfl⟩ := List.mem_map.1 hmem
    have hnew := hb service hservice
    cases service with
    | consumer s' =>
      obtain rfl := Option.some.inj hs
      exact hnew
    | _ => contradiction

theorem attends_of_boot {b : Build} {format : Bool} {d : Device}
    (hnew : ∀ s ∈ b.services, s.IsNew) (hb : ServesEvents (b.services.map Service.id))
    (h : (d.boot b format).1 = .running n) : n.Attends where
  services := by
    rw [(startsFrom_of_boot h).entries, List.map_map]
    exact hb
  index := by
    have hboots := Device.boots_boot b format d
    rw [h] at hboots
    cases hboots with
    | started c n _ _ _ hn _ _ =>
      rw [hn]
      exact c.indexAgrees_load
  sound := (startsFrom_of_boot h).sound hnew

/-- What becomes of learned events over a history that ends in this state. Each round treats them as
    `Round.Consumes` says, and so does the next, if the consumer has its turn in it. The events that
    were consumed leave in the order in which they came: what the application has not taken is still
    waiting, or was the oldest of eight when another came. The diagnostics count the events that
    were consumed and those that were dropped. -/
structure Delivers (events : List Event) (m : Node) : Prop where
  rounds : ∀ r ∈ rounds events, r.Consumes
  next : ∀ now found, m.foundBy .consumer now = .ok found → ∃ o, m.cycle now = .ok o
  order : events.filterMap Event.consumed? =
    events.filterMap Event.departed? ++ m.consumer.pending.items
  consumedCount : m.consumer.diagnostic? 1 =
    some (UInt16.ofNat (events.filterMap Event.consumed?).length)
  droppedCount : m.consumer.diagnostic? 2 =
    some (UInt16.ofNat (events.filterMap Event.dropped?).length)

/-- In every run of a node that has been started from a list of services in which the one that every
    node has stands before one consumer and one that acknowledges, whatever is in its store, learned
    events reach the application like this. -/
theorem delivers_of_run {b : Build} {format : Bool} {d : Device} {inputs : List Input}
    {events : List Event} (hnew : ∀ s ∈ b.services, s.IsNew)
    (hb : ServesEvents (b.services.map Service.id)) (hboot : (d.boot b format).1 = .running n)
    (h : n.run inputs = some (m, events)) : Delivers events m := by
  have hstart := attends_of_boot hnew hb hboot
  have hm : m.Attends := run_preserves h (fun hmoves hn => hn.moves hmoves) hstart
  have hrounds := forall_rounds h (fun hmoves hn => hn.moves hmoves) hstart
  have haccounts : Accounts events m := by
    refine (run_induction (P := fun events m => m.Attends ∧ Accounts events m) h ?_ ?_).2
    · have hpending := (startsFrom_of_boot hboot).pending_consumer hnew
      exact ⟨hstart, by rw [hpending]; rfl, by rw [hpending]; rfl, by rw [hpending]; rfl⟩
    · rintro before now n m hmoves ⟨hn, haccounts⟩
      exact ⟨hn.moves hmoves, haccounts.moves hn hmoves⟩
  refine ⟨fun r hr => ?_, fun now found => hm.exists_cycle, haccounts.balance, ?_, ?_⟩
  · obtain ⟨hn, hcycle⟩ := hrounds r hr
    exact hn.consumes hcycle
  · show some m.consumer.pending.stats.puts.toUInt16 = _
    rw [haccounts.puts, UInt32.toUInt16_ofNat']
  · show some m.consumer.pending.stats.overflows.toUInt16 = _
    rw [haccounts.overflows, UInt32.toUInt16_ofNat']

/-- A device for events after its first start. -/
def freshDevice : Device := (Device.eventDevice.boot Device.eventBuild false).1

/-- The node that its second start gives. -/
def attendant : Node :=
  (freshDevice.boot Device.eventBuild false).1.node?.get (by decide +kernel)

/-- The node learns a long and a short event, gets the number 5, and is to acknowledge. -/
def preparation : List Action :=
  Device.lesson [⟨1, 2⟩, ⟨0, 3⟩] ++
    [.advanceMode, .received (.addressed Opcode.snn.byte 5 []),
      .received (.addressed Opcode.mode.byte 5 [ModeCommand.acknowledgeOn.byte])]

/-- The short event goes off, an event goes on that nobody has learned, and then the long one eight
    times, with a byte of data. -/
def traffic : List Action :=
  .received (.addressed 0x99 77 (Word.bytes 3)) ::
    .received (.addressed 0x90 2 (Word.bytes 4)) ::
      (List.range 8).map fun i => .received (.addressed 0xb0 1 [0, 2, UInt8.ofNat i])

/-- All of it is queued and processed before the application takes an event. -/
def deliveryInputs : List Input :=
  ((preparation ++ traffic).map fun a => .ask (.put a)) ++
    ((preparation ++ traffic).map fun _ => .cycle 0) ++ [.ask .takeConsumed]

/-- The short event has made room for the last, and the application takes the first long one. -/
theorem delivers_of_deliveryInputs : ∃ m events,
    attendant.run deliveryInputs = some (m, events) ∧
    (events.filterMap Event.consumed?).length = 9 ∧
    events.filterMap Event.dropped? = [⟨1, ⟨77, 3⟩, true, false, []⟩] ∧
    events.filterMap Event.taken? = [⟨0, ⟨1, 2⟩, false, true, [0]⟩] ∧
    ((rounds events).flatMap fun r => r.node.givenBy .acknowledge r.outcome).length = 9 ∧
    Delivers events m := by
  have hrun : ((attendant.run deliveryInputs).any fun x =>
      (x.2.filterMap Event.consumed?).length == 9 &&
        x.2.filterMap Event.dropped? == [⟨1, ⟨77, 3⟩, true, false, []⟩] &&
        x.2.filterMap Event.taken? == [⟨0, ⟨1, 2⟩, false, true, [0]⟩] &&
        ((rounds x.2).flatMap fun r =>
          r.node.givenBy .acknowledge r.outcome).length == 9) = true := by
    decide +kernel
  obtain ⟨m, events, hm, hp⟩ := exists_run hrun
  simp only [Bool.and_eq_true, beq_iff_eq] at hp
  obtain ⟨⟨⟨hconsumed, hdropped⟩, htaken⟩, hgiven⟩ := hp
  have hboot : (freshDevice.boot Device.eventBuild false).1 = .running attendant :=
    eq_running_of_node? (Option.some_get _).symm
  refine ⟨m, events, hm, hconsumed, hdropped, htaken, hgiven, delivers_of_run ?_ ?_ hboot hm⟩
  · have hbuild : Device.eventBuild.HasOne .consumer := Device.hasOne_eventBuild (by decide)
    exact hbuild.isNew
  · constructor <;> decide

end Node

end RailNode
