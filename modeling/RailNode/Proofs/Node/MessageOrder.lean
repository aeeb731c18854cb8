import RailNode.Proofs.Node.AddressConflicts

/-
  The order of messages through a node. As long as the queue has room, what comes in from the bus is
  offered to the services in its order, and what is queued to be sent is sent in its order or
  counted as refused (`inOrder_of_run`). Every step keeps a balance between what has come, what has
  gone and what is in between.
-/
namespace RailNode.Node

open BusAccess

/-! ## What events tell -/

theorem received?_facts (now : Time) (n : Node) :
    (n.facts now).received? = n.nextAction.1.bind Action.received? := by
  unfold Cycle.received? facts
  dsimp only
  rcases n.nextAction.1 with _ | x
  · rfl
  · cases x <;> rfl

namespace Round

/-- The message from the bus that the round offers to the services. -/
def offered? (r : Round) : Option Message := r.node.nextAction.1.bind Action.received?

/-- The message that the round takes from the queue to send it. -/
def taken? (r : Round) : Option Message := r.node.nextAction.1.bind Action.transmitted?

/-- The frame with that message, if the link has room for it. -/
def sent (r : Round) : List Frame :=
  if r.node.link.outgoing.hasRoom then (r.taken?.map (.message r.node.config.address)).toList
  else []

/-- Whether a message is lost because the link has no room for it. -/
def refuses (r : Round) : Bool := r.taken?.isSome && !r.node.link.outgoing.hasRoom

/-- What else the round puts in the link. -/
def asides (r : Round) : List Frame :=
  r.outcome.node.link.outgoing.items.drop (r.node.link.outgoing.items ++ r.sent).length

end Round

namespace Event

/-- The message of a frame that has come in. -/
def arrived? : Event → Option Message
  | delivered f => f.payload?
  | _ => none

/-- The frame that the driver has taken. -/
def collected? : Event → Option Frame
  | collected f => some f
  | _ => none

/-- The actions that are put in the queue. -/
def queued : Event → List Action
  | round r => r.outcome.queued
  | asked n r => r.queued n
  | _ => []

/-- The queue has room for what is put in. -/
def Fits : Event → Prop
  | round r => r.node.nextAction.2.length + r.outcome.queued.length ≤ queueCapacity
  | asked n r => n.queue.length + (r.queued n).length ≤ queueCapacity
  | _ => True

/-- The application queues no message as if it came from the bus. -/
def IsHonest : Event → Prop
  | asked n r => ∀ a ∈ r.queued n, a.received? = none
  | _ => True

instance : DecidablePred Fits
  | round _ => inferInstanceAs (Decidable (_ ≤ _))
  | asked _ _ => inferInstanceAs (Decidable (_ ≤ _))
  | delivered _ => inferInstanceAs (Decidable True)
  | collected _ => inferInstanceAs (Decidable True)

instance : DecidablePred IsHonest
  | asked n r => inferInstanceAs (Decidable (∀ a ∈ r.queued n, a.received? = none))
  | round _ => inferInstanceAs (Decidable True)
  | delivered _ => inferInstanceAs (Decidable True)
  | collected _ => inferInstanceAs (Decidable True)

end Event

/-! ## The balance -/

/-- Everything that has come in or was queued is where it should be: the messages from the bus have
    been offered, or wait in the queue and behind it in the link; the messages to be sent have been
    taken from the queue or wait there; the frames that were sent are with the driver or wait for
    it. -/
structure InOrder (events : List Event) (m : Node) : Prop where
  received : events.filterMap Event.arrived? = (rounds events).filterMap Round.offered? ++
    (m.queue.items.filterMap Action.received? ++
      m.link.received.items.filterMap Frame.payload?)
  transmitted : (events.flatMap Event.queued).filterMap Action.transmitted? =
    (rounds events).filterMap Round.taken? ++ m.queue.items.filterMap Action.transmitted?
  sent : events.filterMap Event.collected? ++ m.link.outgoing.items =
    (rounds events).flatMap fun r => r.sent ++ r.asides
  asides : ∀ r ∈ rounds events, ∀ f ∈ r.asides,
    ∃ own, f = .addressRequest own ∨ f = .addressAnswer own
  refused : m.busAccess.refused = UInt16.ofNat ((rounds events).countP Round.refuses)

/-! ## Rounds -/

theorem filterMap_toList {α β : Type} (f : α → Option β) (a : Option α) :
    a.toList.filterMap f = (a.bind f).toList := by
  rcases a with _ | a
  · rfl
  · rw [Option.toList_some, List.filterMap_cons, Option.bind_some]
    rcases f a with _ | b <;> rfl

theorem filterMap_eq_head?_append {α β : Type} (f : α → Option β) (as : List α) :
    as.filterMap f = (as.head?.bind f).toList ++ as.tail.filterMap f := by
  rcases as with _ | ⟨a, as⟩
  · rfl
  · rw [List.filterMap_cons, List.head?_cons, Option.bind_some, List.tail_cons]
    rcases f a with _ | b <;> rfl

theorem items_sendAll_toList {α : Type} (c : Channel α) (a : Option α) :
    (c.sendAll a.toList).items = c.items ++ if c.hasRoom then a.toList else [] := by
  rcases a with _ | a
  · split_ifs <;> exact (List.append_nil _).symm
  · rcases hroom : c.hasRoom with _ | _
    · exact (congrArg Channel.items (Channel.send_of_not_hasRoom a hroom)).trans
        (List.append_nil _).symm
    · exact Channel.items_send_of_hasRoom a hroom

namespace Round

variable {r : Round}

/-- What a round puts in the link stands behind what was there, its message first. -/
theorem outgoing_eq (hone : r.node.HasOne .busAccess) (h : r.node.cycle r.now = .ok r.outcome) :
    r.outcome.node.link.outgoing.items = r.node.link.outgoing.items ++ (r.sent ++ r.asides) ∧
      ∀ f ∈ r.asides, ∃ own, f = .addressRequest own ∨ f = .addressAnswer own := by
  obtain ⟨own, found, t, hvisit, hlink, hedits, hacts⟩ := exists_acts hone h
  obtain ⟨rest, hoffers, hrest⟩ := hacts.exists_offers
  have haddress : found.config.address = r.node.config.address :=
    hedits.changesOnly.address (by decide)
  have hsent : (found.link.outgoing.sendAll
      (messageFrame? (r.node.facts r.now).action found.config.address).toList).items =
        r.node.link.outgoing.items ++ r.sent := by
    rw [items_sendAll_toList, haddress, hlink]
    rfl
  have houtgoing : r.outcome.node.link.outgoing = (found.link.outgoing.sendAll
      (messageFrame? (r.node.facts r.now).action found.config.address).toList).sendAll rest := by
    rw [hvisit.link, ← Channel.sendAll_append]
    exact hoffers.outgoing
  obtain ⟨kept, hkept, hitems⟩ := Channel.items_sendAll (found.link.outgoing.sendAll
    (messageFrame? (r.node.facts r.now).action found.config.address).toList) rest
  rw [← houtgoing, hsent] at hitems
  have hasides : r.asides = kept := by
    rw [asides, hitems, List.drop_left]
  rw [hasides, hitems, List.append_assoc]
  exact ⟨rfl, fun f hf => hrest f (hkept.subset hf)⟩

theorem refused_eq (hone : r.node.HasOne .busAccess) (h : r.node.cycle r.now = .ok r.outcome) :
    r.outcome.node.busAccess.refused =
      if r.refuses then r.node.busAccess.refused + 1 else r.node.busAccess.refused := by
  obtain ⟨own, found, t, hvisit, hlink, hedits, hacts⟩ := exists_acts hone h
  have hrefuses : r.refuses = ((messageFrame? (r.node.facts r.now).action
      found.config.address).isSome && !found.link.outgoing.hasRoom) := by
    rw [refuses, hlink, messageFrame?, Option.isSome_map]
    rfl
  rw [hvisit.busAccess, hacts.refused, hrefuses]
  rfl

/-- What waited in the queue and in the link is offered in the round or waits after it. -/
theorem received_eq (hone : r.node.HasOne .busAccess) (h : r.node.cycle r.now = .ok r.outcome)
    (hfits : (Event.round r).Fits) :
    r.node.queue.items.filterMap Action.received? ++
        r.node.link.received.items.filterMap Frame.payload? =
      r.offered?.toList ++
        (r.outcome.node.queue.items.filterMap Action.received? ++
          r.outcome.node.link.received.items.filterMap Frame.payload?) := by
  obtain ⟨own, found, t, hvisit, hlink, -, hacts⟩ := exists_acts hone h
  have hqueued : r.outcome.queued.filterMap Action.received? =
      (r.node.link.received.items.head?.bind Frame.payload?).toList := by
    rw [hvisit.received, hacts.messages, ← hlink]
    rfl
  have hrest : r.outcome.node.link.received.items = r.node.link.received.items.tail := by
    rw [hvisit.link, hacts.received, ← hlink]
  have hqueue : r.outcome.node.queue.items = r.node.nextAction.2.items ++ r.outcome.queued := by
    rw [queue_cycle h, Backlog.items_putAll hfits]
  rw [hqueue, hrest, items_nextAction, List.filterMap_append, List.filterMap_append, hqueued,
    filterMap_toList, filterMap_eq_head?_append Frame.payload? r.node.link.received.items]
  simp only [List.append_assoc]
  rfl

/-- The messages that waited to be sent are taken in the round or wait after it, before those that
    have been queued in it. -/
theorem transmitted_eq (h : r.node.cycle r.now = .ok r.outcome) (hfits : (Event.round r).Fits) :
    r.node.queue.items.filterMap Action.transmitted? ++
        r.outcome.queued.filterMap Action.transmitted? =
      r.taken?.toList ++ r.outcome.node.queue.items.filterMap Action.transmitted? := by
  have hqueue : r.outcome.node.queue.items = r.node.nextAction.2.items ++ r.outcome.queued := by
    rw [queue_cycle h, Backlog.items_putAll hfits]
  rw [hqueue, items_nextAction, List.filterMap_append, List.filterMap_append, filterMap_toList]
  simp only [List.append_assoc]
  rfl

end Round

/-! ## Steps -/

theorem deliver?_eq_some {l l' : Link} {f : Frame} (h : l.deliver? f = some l') :
    l'.received.items = l.received.items ++ [f] ∧ l'.outgoing = l.outgoing := by
  obtain ⟨c, hc, rfl⟩ := Option.map_eq_some_iff.1 h
  unfold Channel.send? at hc
  split_ifs at hc
  rw [← Option.some.inj hc]
  exact ⟨rfl, rfl⟩

theorem collect?_eq_some {l l' : Link} {f : Frame} (h : l.collect? = some (f, l')) :
    l.outgoing.items = f :: l'.outgoing.items ∧ l'.received = l.received := by
  obtain ⟨received, ⟨capacity, items, hle⟩⟩ := l
  rcases items with _ | ⟨g, rest⟩
  · contradiction
  · obtain ⟨rfl, rfl⟩ := Prod.mk.inj (Option.some.inj h)
    exact ⟨rfl, rfl⟩

variable {n m m' : Node} {inputs : List Input} {events now : List Event}

theorem filterMap_concat {α β : Type} (f : α → Option β) (as : List α) (a : α) :
    (as ++ [a]).filterMap f = as.filterMap f ++ (f a).toList := by
  rw [List.filterMap_append]
  exact congrArg (as.filterMap f ++ ·) (filterMap_toList f (some a))

namespace InOrder

theorem round {r : Round} (h : InOrder events r.node) (hone : r.node.HasOne .busAccess)
    (hcycle : r.node.cycle r.now = .ok r.outcome) (hfits : (Event.round r).Fits) :
    InOrder (events ++ [.round r]) r.outcome.node := by
  obtain ⟨houtgoing, hasides⟩ := Round.outgoing_eq hone hcycle
  have hrounds : rounds (events ++ [.round r]) = rounds events ++ [r] := rounds_append _ _
  refine ⟨?_, ?_, ?_, ?_, ?_⟩
  · have hnone : (Event.round r).arrived? = none := rfl
    rw [filterMap_concat, hnone, Option.toList_none, List.append_nil, hrounds, filterMap_concat,
      h.received, Round.received_eq hone hcycle hfits, List.append_assoc]
  · rw [List.flatMap_append, List.flatMap_singleton, List.filterMap_append, h.transmitted, hrounds,
      filterMap_concat, List.append_assoc, List.append_assoc]
    exact congrArg _ (Round.transmitted_eq hcycle hfits)
  · rw [filterMap_concat, hrounds, List.flatMap_append, List.flatMap_singleton, ← h.sent, houtgoing]
    have hnone : (Event.round r).collected? = none := rfl
    rw [hnone, Option.toList_none, List.append_nil, List.append_assoc]
  · intro x hx
    rw [hrounds] at hx
    rcases List.mem_append.1 hx with hx | hx
    · exact h.asides x hx
    · rw [List.mem_singleton.1 hx]
      exact hasides
  · rw [hrounds, List.countP_append, List.countP_singleton, Round.refused_eq hone hcycle, h.refused]
    split_ifs
    · exact (UInt16.ofNat_add _ _).symm
    · rfl

/-- A step that is not a round leaves what is taken from the queue and what is sent. -/
theorem other {e : Event} (h : InOrder events m) (hround : e.round? = none)
    (hreceived : m.queue.items.filterMap Action.received? ++
        m.link.received.items.filterMap Frame.payload? ++ e.arrived?.toList =
      m'.queue.items.filterMap Action.received? ++ m'.link.received.items.filterMap Frame.payload?)
    (hqueue : m'.queue.items.filterMap Action.transmitted? =
      m.queue.items.filterMap Action.transmitted? ++ e.queued.filterMap Action.transmitted?)
    (hsent : e.collected?.toList ++ m'.link.outgoing.items = m.link.outgoing.items)
    (hbus : m'.busAccess = m.busAccess) : InOrder (events ++ [e]) m' := by
  have hrounds : rounds (events ++ [e]) = rounds events := by
    rw [rounds, filterMap_concat, hround]
    exact List.append_nil _
  refine ⟨?_, ?_, ?_, ?_, ?_⟩
  · rw [filterMap_concat, hrounds, h.received, ← hreceived, List.append_assoc]
  · rw [List.flatMap_append, List.flatMap_singleton, List.filterMap_append, h.transmitted, hrounds,
      hqueue, List.append_assoc]
  · rw [filterMap_concat, hrounds, List.append_assoc, hsent, h.sent]
  · rw [hrounds]
    exact h.asides
  · rw [hrounds, hbus, h.refused]

/-- Every step keeps the balance. -/
theorem step (h : InOrder events m) (hone : m.HasOne .busAccess) (hmoves : m.Moves m' now)
    (hfits : ∀ e ∈ now, e.Fits) (hhonest : ∀ e ∈ now, e.IsHonest) : InOrder (events ++ now) m' := by
  cases hmoves with
  | nothing =>
    rw [List.append_nil]
    exact h
  | round hcycle =>
    exact h.round (r := ⟨_, _, _⟩) hone hcycle (hfits _ List.mem_cons_self)
  | delivered hdeliver =>
    obtain ⟨hreceived, houtgoing⟩ := deliver?_eq_some hdeliver
    refine h.other rfl ?_ (List.append_nil _).symm (congrArg Channel.items houtgoing) rfl
    rw [List.append_assoc, hreceived, filterMap_concat]
    rfl
  | collected hcollect =>
    obtain ⟨houtgoing, hreceived⟩ := collect?_eq_some hcollect
    refine h.other rfl ?_ (List.append_nil _).symm houtgoing.symm rfl
    rw [hreceived]
    exact List.append_nil _
  | asked r =>
    obtain ⟨hqueue, hlink⟩ := queue_serve m r
    have hitems : (m.serve r).queue.items = m.queue.items ++ r.queued m := by
      rw [hqueue]
      exact Backlog.items_putAll (hfits _ List.mem_cons_self)
    have hnone : (r.queued m).filterMap Action.received? = [] :=
      List.filterMap_eq_nil_iff.2 (hhonest _ List.mem_cons_self)
    refine h.other rfl ?_ ?_ ?_ (m.sameCore_serve r).busAccess_eq
    · rw [hitems, hlink, List.filterMap_append, hnone, List.append_nil]
      exact List.append_nil _
    · rw [hitems, List.filterMap_append]
      rfl
    · rw [hlink]
      rfl

end InOrder

/-! ## Runs -/

/-- In every run of a started node with one bus access service whose queue always has room, and
    whose application queues no message as if it came from the bus, the messages keep their
    order. -/
theorem inOrder_of_run {b : Build} {format : Bool} {d : Device} (hb : b.HasOne .busAccess)
    (hboot : (d.boot b format).1 = .running n) (h : n.run inputs = some (m, events))
    (hfits : ∀ e ∈ events, e.Fits) (hhonest : ∀ e ∈ events, e.IsHonest) : InOrder events m := by
  have hstarts := startsFrom_of_boot hboot
  have hstart : InOrder [] n := by
    refine ⟨?_, ?_, ?_, fun _ hr => absurd hr List.not_mem_nil, ?_⟩
    · rw [hstarts.queue, hstarts.received]
      rfl
    · rw [hstarts.queue]
      rfl
    · rw [hstarts.outgoing]
      rfl
    · rw [hstarts.busAccess_eq hb.isNew]
      rfl
  refine (run_induction (P := fun events m => (∀ e ∈ events, e.Fits) →
    (∀ e ∈ events, e.IsHonest) → m.HasOne .busAccess ∧ InOrder events m) h ?_ ?_ hfits hhonest).2
  · exact fun _ _ => ⟨hstarts.hasOne hb, hstart⟩
  · intro before now m m' hmoves hbefore hfits hhonest
    obtain ⟨hone, horder⟩ := hbefore (fun e he => hfits e (List.mem_append_left _ he))
      (fun e he => hhonest e (List.mem_append_left _ he))
    exact ⟨hmoves.hasOne hone, horder.step hone hmoves
      (fun e he => hfits e (List.mem_append_right _ he))
      (fun e he => hhonest e (List.mem_append_right _ he))⟩

/-- A message that a node is asked to send. -/
def ownMessage : Message := .addressed 0x91 7 [0, 3]

/-- A run of a small node in which a message is queued to be sent and another one comes in. -/
def messageInputs : List Input :=
  [.ask (.put (.transmit ownMessage)), .deliver rivalFrame, .cycle 0, .collect, .cycle 1]

theorem inOrder_of_messageInputs : ∃ m events, small.run messageInputs = some (m, events) ∧
    (rounds events).filterMap Round.offered? = [rivalFrame.data] ∧
    events.filterMap Event.collected? = [.message .unassigned ownMessage] ∧
    InOrder events m := by
  have hrun : ((small.run messageInputs).any fun x =>
      (rounds x.2).filterMap Round.offered? == [rivalFrame.data] &&
        x.2.filterMap Event.collected? == [.message .unassigned ownMessage] &&
        decide (∀ e ∈ x.2, e.Fits) && decide (∀ e ∈ x.2, e.IsHonest)) = true := by
    decide +kernel
  obtain ⟨m, events, hm, hp⟩ := exists_run hrun
  simp only [Bool.and_eq_true, beq_iff_eq, decide_eq_true_eq] at hp
  obtain ⟨⟨⟨hoffered, hcollected⟩, hfits⟩, hhonest⟩ := hp
  exact ⟨m, events, hm, hoffered, hcollected,
    inOrder_of_run (Device.hasOne_smallBuild (by decide)) boot_small hm hfits hhonest⟩

end RailNode.Node
