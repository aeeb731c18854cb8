import RailNode.Proofs.Device.Run
import RailNode.Proofs.Node.Queue
import RailNode.Proofs.Service.BusAccess

/-
  The life of a node between its start and the next restart: cycles, what the driver does with the
  link one frame at a time, and what the application asks. A run keeps a history of what has come
  of its inputs. What every input preserves holds along the history (`run_induction`), and what only
  cycles change is handed on from each round to the next (`handsOn_of_run`).
-/
namespace RailNode.Node

/-! ## Runs -/

/-- What happens to a node. -/
inductive Input where
  | cycle (now : Time)
  | deliver (f : Frame)
  /-- The driver takes the next frame to transmit. -/
  | collect
  | ask (r : Request)

/-- A cycle that has come to its end. -/
structure Round where
  now : Time
  node : Node
  outcome : Outcome

/-- What has come of an input. -/
inductive Event where
  | round (r : Round)
  | delivered (f : Frame)
  | collected (f : Frame)
  | asked (n : Node) (r : Request)

/-- What an input makes of a node, and what has come of it: nothing of a frame for which the link
    has no room, and of an empty link. `none` stands for a cycle that does not come to its end. -/
def step (n : Node) : Input → Option (Node × List Event)
  | .cycle now => (n.cycle now).toOption.map fun o => (o.node, [.round ⟨now, n, o⟩])
  | .deliver f =>
    some ((n.link.deliver? f).elim (n, []) fun link => ({ n with link }, [.delivered f]))
  | .collect =>
    some (n.link.collect?.elim (n, []) fun (f, link) => ({ n with link }, [.collected f]))
  | .ask r => some (n.serve r, [.asked n r])

/-- What inputs one after the other make of a node, and the history of the run. -/
def run (n : Node) : List Input → Option (Node × List Event)
  | [] => some (n, [])
  | i :: inputs =>
    (n.step i).bind fun (m, now) => (m.run inputs).map fun (m, later) => (m, now ++ later)

/-- What a step can come to. -/
inductive Moves (n : Node) : Node → List Event → Prop
  | nothing : Moves n n []
  | round {now : Time} {o : Outcome} : n.cycle now = .ok o → Moves n o.node [.round ⟨now, n, o⟩]
  | delivered {f : Frame} {link : Link} : n.link.deliver? f = some link →
      Moves n { n with link } [.delivered f]
  | collected {f : Frame} {link : Link} : n.link.collect? = some (f, link) →
      Moves n { n with link } [.collected f]
  | asked (r : Request) : Moves n (n.serve r) [.asked n r]

variable {n m m' : Node} {i : Input} {inputs : List Input} {events now : List Event}

theorem moves_of_step (h : n.step i = some (m, now)) : n.Moves m now := by
  cases i with
  | cycle now =>
    obtain ⟨o, ho, heq⟩ := Option.map_eq_some_iff.1 h
    obtain ⟨rfl, rfl⟩ := Prod.mk.inj heq
    exact .round (toOption_eq_some_iff.1 ho)
  | deliver f =>
    have heq := Option.some.inj h
    rcases hlink : n.link.deliver? f with _ | link
    · rw [hlink] at heq
      obtain ⟨rfl, rfl⟩ := Prod.mk.inj heq
      exact .nothing
    · rw [hlink] at heq
      obtain ⟨rfl, rfl⟩ := Prod.mk.inj heq
      exact .delivered hlink
  | collect =>
    have heq := Option.some.inj h
    rcases hlink : n.link.collect? with _ | ⟨f, link⟩
    · rw [hlink] at heq
      obtain ⟨rfl, rfl⟩ := Prod.mk.inj heq
      exact .nothing
    · rw [hlink] at heq
      obtain ⟨rfl, rfl⟩ := Prod.mk.inj heq
      exact .collected hlink
  | ask r =>
    obtain ⟨rfl, rfl⟩ := Prod.mk.inj (Option.some.inj h)
    exact .asked r

theorem run_cons_eq_some (h : n.run (i :: inputs) = some (m, events)) :
    ∃ between now later, n.step i = some (between, now) ∧ between.run inputs = some (m, later) ∧
      events = now ++ later := by
  obtain ⟨⟨between, now⟩, hstep, h⟩ := Option.bind_eq_some_iff.1 h
  obtain ⟨⟨m', later⟩, hrun, heq⟩ := Option.map_eq_some_iff.1 h
  obtain ⟨rfl, rfl⟩ := Prod.mk.inj heq
  exact ⟨between, now, later, hstep, hrun, rfl⟩

/-- What holds at the start and is kept from every history to the next holds of a run. -/
theorem run_induction {P : List Event → Node → Prop} (h : n.run inputs = some (m, events))
    (start : P [] n)
    (step : ∀ {before now : List Event} {m m' : Node}, m.Moves m' now → P before m →
      P (before ++ now) m') : P events m := by
  -- The histories that the induction is about go on after one that is already there.
  have key : ∀ {inputs : List Input} {n : Node} {before events : List Event},
      n.run inputs = some (m, events) → P before n → P (before ++ events) m := by
    intro inputs
    induction inputs with
    | nil =>
      intro n before events h hn
      obtain ⟨rfl, rfl⟩ := Prod.mk.inj (Option.some.inj h)
      rwa [List.append_nil]
    | cons i inputs ih =>
      intro n before events h hn
      obtain ⟨between, now, later, hstep, hrun, rfl⟩ := run_cons_eq_some h
      rw [← List.append_assoc]
      exact ih hrun (step (moves_of_step hstep) hn)
  exact key h start

/-- What every step keeps, a run keeps. -/
theorem run_preserves {R : Node → Prop} (h : n.run inputs = some (m, events))
    (step : ∀ {m m' : Node} {now : List Event}, m.Moves m' now → R m → R m') (hn : R n) : R m :=
  run_induction (P := fun _ m => R m) h hn step

/-! ## Rounds -/

/-- The round that an event is, if it is one. -/
def Event.round? : Event → Option Round
  | round r => some r
  | _ => none

theorem Event.eq_round {e : Event} {r : Round} (h : e.round? = some r) : e = .round r := by
  cases e with
  | round r' => rw [Option.some.inj h]
  | _ => cases h

/-- The rounds of a history, in their order. -/
def rounds (events : List Event) : List Round := events.filterMap Event.round?

theorem rounds_append (before later : List Event) :
    rounds (before ++ later) = rounds before ++ rounds later := List.filterMap_append

@[simp]
theorem rounds_round (r : Round) : rounds [.round r] = [r] := rfl

/-! ## What steps keep -/

/-- What only cycles can change is the same after every other step. -/
theorem Moves.sameCore (h : n.Moves m now) : (n.SameCore m ∧ rounds now = []) ∨
    ∃ t o, n.cycle t = .ok o ∧ m = o.node ∧ now = [.round ⟨t, n, o⟩] := by
  cases h with
  | nothing => exact Or.inl ⟨.refl n, rfl⟩
  | round hcycle => exact Or.inr ⟨_, _, hcycle, rfl, rfl⟩
  | delivered _ => exact Or.inl ⟨⟨rfl, rfl, rfl, rfl⟩, rfl⟩
  | collected _ => exact Or.inl ⟨⟨rfl, rfl, rfl, rfl⟩, rfl⟩
  | asked r => exact Or.inl ⟨n.sameCore_serve r, rfl⟩

theorem Moves.hasOne {id : ServiceId} (h : n.Moves m now) (hn : n.HasOne id) : m.HasOne id := by
  rcases h.sameCore with ⟨hcore, _⟩ | ⟨t, o, hcycle, rfl, _⟩
  · exact hcore.hasOne hn
  · exact hn.cycle hcycle

theorem Moves.ids (h : n.Moves m now) :
    m.entries.map (·.service.id) = n.entries.map (·.service.id) := by
  rcases h.sameCore with ⟨hcore, _⟩ | ⟨t, o, hcycle, rfl, _⟩
  · exact hcore.ids
  · exact ids_cycle hcycle

theorem Moves.timing (h : n.Moves m now) : m.timing = n.timing := by
  rcases h.sameCore with ⟨hcore, _⟩ | ⟨t, o, hcycle, rfl, _⟩
  · exact hcore.timing
  · exact timing_cycle hcycle

theorem Moves.sound (h : n.Moves m now) (hn : n.Sound) : m.Sound := by
  rcases h.sameCore with ⟨hcore, _⟩ | ⟨t, o, hcycle, rfl, _⟩
  · exact hcore.sound hn
  · exact hn.cycle hcycle

/-- Every round of a run is a cycle of a node that has what every step keeps. -/
theorem forall_rounds {R : Node → Prop} (h : n.run inputs = some (m, events))
    (step : ∀ {m m' : Node} {now : List Event}, m.Moves m' now → R m → R m') (hn : R n) :
    ∀ r ∈ rounds events, R r.node ∧ r.node.cycle r.now = .ok r.outcome := by
  refine (run_induction (P := fun events m =>
    R m ∧ ∀ r ∈ rounds events, R r.node ∧ r.node.cycle r.now = .ok r.outcome) h
    ⟨hn, fun _ hr => absurd hr List.not_mem_nil⟩ ?_).2
  rintro before now m m' hmoves ⟨hm, hrounds⟩
  refine ⟨step hmoves hm, fun r hr => ?_⟩
  rw [rounds_append] at hr
  rcases List.mem_append.1 hr with hr | hr
  · exact hrounds r hr
  · rcases hmoves.sameCore with ⟨_, hnone⟩ | ⟨t, o, hcycle, rfl, rfl⟩
    · rw [hnone] at hr
      exact absurd hr List.not_mem_nil
    · rw [rounds_round] at hr
      obtain rfl := List.mem_singleton.1 hr
      exact ⟨hm, hcycle⟩

/-! ## From round to round -/

/-- Each round finds what the round before it has left, the first `a`, and the last leaves `b`. -/
inductive HandsOn {α : Type} (g : Node → α) : α → List Round → α → Prop
  | nil (a : α) : HandsOn g a [] a
  | cons {r : Round} {rest : List Round} {b : α} : HandsOn g (g r.outcome.node) rest b →
      HandsOn g (g r.node) (r :: rest) b

namespace HandsOn

variable {α : Type} {g : Node → α} {a b : α} {r : Round} {before after rest : List Round}

theorem nil_iff : HandsOn g a [] b ↔ a = b := by
  constructor
  · rintro ⟨⟩
    rfl
  · rintro rfl
    exact .nil a

theorem cons_iff : HandsOn g a (r :: rest) b ↔
    a = g r.node ∧ HandsOn g (g r.outcome.node) rest b := by
  constructor
  · intro h
    cases h with
    | cons hrest => exact ⟨rfl, hrest⟩
  · rintro ⟨rfl, h⟩
    exact .cons h

theorem append_iff : HandsOn g a (before ++ after) b ↔
    ∃ c, HandsOn g a before c ∧ HandsOn g c after b := by
  induction before generalizing a with
  | nil =>
    rw [List.nil_append]
    constructor
    · intro h
      exact ⟨a, .nil a, h⟩
    · rintro ⟨c, hc, h⟩
      rwa [nil_iff.1 hc]
  | cons r before ih =>
    rw [List.cons_append, cons_iff, ih]
    constructor
    · rintro ⟨ha, c, hc, h⟩
      exact ⟨c, cons_iff.2 ⟨ha, hc⟩, h⟩
    · rintro ⟨c, hc, h⟩
      obtain ⟨ha, hc⟩ := cons_iff.1 hc
      exact ⟨ha, c, hc, h⟩

/-- What every round leaves as it finds it stays what it was. -/
theorem eq_of_keeps {rounds : List Round} (h : HandsOn g a rounds b)
    (hkeeps : ∀ r ∈ rounds, g r.outcome.node = g r.node) :
    b = a ∧ ∀ r ∈ rounds, g r.node = a := by
  induction rounds generalizing a with
  | nil => exact ⟨(nil_iff.1 h).symm, fun r hr => absurd hr List.not_mem_nil⟩
  | cons r rest ih =>
    obtain ⟨rfl, hrest⟩ := cons_iff.1 h
    rw [List.forall_mem_cons] at hkeeps
    have hlater := ih hrest hkeeps.2
    rw [hkeeps.1] at hlater
    exact ⟨hlater.1, List.forall_mem_cons.2 ⟨rfl, hlater.2⟩⟩

/-- Rounds that leave what they find can be left out. -/
theorem filter {rounds : List Round} (q : Round → Bool) (h : HandsOn g a rounds b)
    (hkeeps : ∀ r ∈ rounds, q r = false → g r.outcome.node = g r.node) :
    HandsOn g a (rounds.filter q) b := by
  induction rounds generalizing a with
  | nil => exact h
  | cons r rest ih =>
    obtain ⟨rfl, hrest⟩ := cons_iff.1 h
    rw [List.forall_mem_cons] at hkeeps
    have hlater := ih hrest hkeeps.2
    rcases hq : q r with _ | _
    · rw [List.filter_cons_of_neg (by rw [hq]; decide), ← hkeeps.1 hq]
      exact hlater
    · rw [List.filter_cons_of_pos hq]
      exact .cons hlater

/-- A round finds what there was at first, or what the round before it has left. -/
theorem found_cases {rounds : List Round} {t : Nat} (h : HandsOn g a rounds b)
    (hr : rounds[t]? = some r) : t = 0 ∧ g r.node = a ∨
      ∃ s r', t = s + 1 ∧ rounds[s]? = some r' ∧ g r.node = g r'.outcome.node := by
  induction rounds generalizing a t with
  | nil => contradiction
  | cons r' rest ih =>
    obtain ⟨rfl, hrest⟩ := cons_iff.1 h
    cases t with
    | zero =>
      rw [List.getElem?_cons_zero] at hr
      exact Or.inl ⟨rfl, by rw [Option.some.inj hr]⟩
    | succ t =>
      rw [List.getElem?_cons_succ] at hr
      refine Or.inr ?_
      rcases ih hrest hr with ⟨rfl, hfirst⟩ | ⟨s, r'', rfl, hr'', hbefore⟩
      · exact ⟨0, r', rfl, rfl, hfirst⟩
      · exact ⟨s + 1, r'', rfl, by rw [List.getElem?_cons_succ, hr''], hbefore⟩

end HandsOn

/-- What only cycles change is handed on from round to round. -/
theorem handsOn_of_run {α : Type} {g : Node → α} (hg : ∀ {n m : Node}, n.SameCore m → g m = g n)
    (h : n.run inputs = some (m, events)) : HandsOn g (g n) (rounds events) (g m) := by
  refine run_induction (P := fun events m => HandsOn g (g n) (rounds events) (g m)) h (.nil _) ?_
  intro before now m m' hmoves hbefore
  rw [rounds_append]
  refine HandsOn.append_iff.2 ⟨g m, hbefore, ?_⟩
  rcases hmoves.sameCore with ⟨hcore, hnone⟩ | ⟨t, o, hcycle, rfl, rfl⟩
  · rw [hnone, hg hcore]
    exact .nil _
  · rw [rounds_round]
    exact HandsOn.cons_iff.2 ⟨rfl, .nil _⟩

/-! ## Bus access -/

theorem busAccess?_core (s : Service) : s.core.busAccess? = s.busAccess? := by
  cases s <;> rfl

theorem SameCore.busAccess_eq (h : n.SameCore m) : m.busAccess = n.busAccess := by
  have hcores : ∀ n : Node, n.busAccess = (n.cores.findSome? Service.busAccess?).getD {} := by
    intro n
    unfold busAccess Node.cores
    rw [List.findSome?_map]
    congr 2
    funext e
    exact (busAccess?_core e.service).symm
  rw [hcores, hcores, h.cores]

/-- What bus access does in a cycle of a node that has it once. -/
theorem exists_acts (hone : n.HasOne .busAccess) {t : Time} {o : Outcome} (h : n.cycle t = .ok o) :
    ∃ own found u, BusVisit t n o u ∧ found.link = n.link ∧
      Configuration.Edits partsBesideBus n.config found.config ∧
      BusAccess.Acts (n.facts t) own { self := n.busAccess, shared := found } u := by
  obtain ⟨u, hvisit⟩ := exists_busVisit hone h
  obtain ⟨found, hlink, hedits, hturn⟩ := hvisit.turn
  obtain ⟨own, hacts⟩ := BusAccess.acts_turn (n.facts t) { self := n.busAccess, shared := found }
  rw [hturn] at hacts
  exact ⟨own, found, u, hvisit, hlink, hedits, hacts⟩

/-! ## What the application queues -/

/-- The actions that a request puts in the queue of a node. -/
def Request.queued (n : Node) : Request → List Action
  | .put a => [a]
  | .produce slot on data =>
    match n.produce slot on data, EventProducer.message n.config slot on data with
    | .ok _, .ok m => [.transmit m]
    | _, _ => []
  | _ => []

theorem queue_serve (n : Node) (r : Request) :
    (n.serve r).queue = n.queue.putAll (r.queued n) ∧ (n.serve r).link = n.link := by
  cases r with
  | put a => exact ⟨rfl, rfl⟩
  | takeActivity => exact ⟨rfl, rfl⟩
  | produce slot on data =>
    unfold serve Request.queued
    dsimp only
    rcases h : n.produce slot on data with e | m
    · exact ⟨rfl, rfl⟩
    · obtain ⟨entries, message, hmessage, rfl, _⟩ := exists_of_produce h
      rw [hmessage]
      exact ⟨rfl, rfl⟩
  | takeConsumed =>
    unfold serve
    dsimp only
    rcases h : n.takeConsumed? with _ | ⟨e, m⟩
    · exact ⟨rfl, rfl⟩
    · obtain ⟨entries, rfl, _⟩ := exists_of_takeConsumed? h
      exact ⟨rfl, rfl⟩
  | subscribe stream =>
    unfold serve
    dsimp only
    rcases n.longMessage?.bind (·.subscribe? stream) with _ | s <;> exact ⟨rfl, rfl⟩
  | send stream payload =>
    unfold serve
    dsimp only
    rcases n.longMessage?.bind fun s => (s.send stream payload).toOption with _ | s <;>
      exact ⟨rfl, rfl⟩
  | takeReceipt =>
    unfold serve
    dsimp only
    rcases n.longMessage?.bind (·.takeReceipt?) with _ | ⟨_, s⟩ <;> exact ⟨rfl, rfl⟩

/-! ## The start of a node -/

/-- A node that has just been started from this build: nothing is in its queue or its link, and its
    services are as they were made. -/
structure StartsFrom (b : Build) (n : Node) : Prop where
  queue : n.queue.items = []
  received : n.link.received.items = []
  outgoing : n.link.outgoing.items = []
  entries : n.entries = b.services.map fun service => { service }

theorem startsFrom_of_boot {b : Build} {format : Bool} {d : Device}
    (h : (d.boot b format).1 = .running n) : n.StartsFrom b := by
  unfold Device.boot at h
  split at h
  · contradiction
  · rename_i c _
    dsimp only at h
    generalize (if format then c.factoryReset else c) = c' at h
    unfold assemble? at h
    split_ifs at h
    · contradiction
    · unfold Device.start at h
      dsimp only at h
      rcases hstart : c'.start with config | config
      · rw [hstart] at h
        rw [← Device.running.inj h]
        exact ⟨rfl, rfl, rfl, rfl⟩
      · rw [hstart] at h
        contradiction

theorem StartsFrom.hasOne {b : Build} {id : ServiceId} (h : n.StartsFrom b) (hb : b.HasOne id) :
    n.HasOne id := by
  rw [HasOne, h.entries, List.map_map]
  exact hb.count

theorem StartsFrom.sound {b : Build} (h : n.StartsFrom b) (hb : ∀ s ∈ b.services, s.IsNew) :
    n.Sound := by
  intro s hs
  rw [h.entries, List.map_map] at hs
  obtain ⟨s', hs', rfl⟩ := List.mem_map.1 hs
  exact Service.sound_of_isNew (hb s' hs')

/-- New services have a new bus access service among them, if any. -/
theorem StartsFrom.busAccess_eq {b : Build} (h : n.StartsFrom b)
    (hb : ∀ s ∈ b.services, s.IsNew) : n.busAccess = {} := by
  rcases hfind : n.entries.findSome? (·.service.busAccess?) with _ | s
  · rw [busAccess, hfind]
    rfl
  · rw [busAccess, hfind]
    obtain ⟨e, he, hs⟩ := List.exists_of_findSome?_eq_some hfind
    rw [h.entries] at he
    obtain ⟨s', hs', rfl⟩ := List.mem_map.1 he
    have hnew := hb s' hs'
    unfold Service.busAccess? at hs
    split at hs
    · rename_i s'' heq
      rw [show s' = .busAccess s'' from heq] at hnew
      rw [← Option.some.inj hs]
      exact hnew
    · contradiction

theorem eq_running_of_node? {d : Device} (h : d.node? = some n) : d = .running n := by
  cases d with
  | idle store link => contradiction
  | running n => rw [Option.some.inj h]

/-- The node of a small device. -/
def small : Node :=
  (Device.smallDevice.boot Device.smallBuild false).1.node?.get (by decide +kernel)

theorem boot_small : (Device.smallDevice.boot Device.smallBuild false).1 = .running small :=
  eq_running_of_node? (Option.some_get _).symm

theorem hasOne_small {id : ServiceId}
    (h : (Device.smallBuild.services.map Service.id).count id = 1) : small.HasOne id :=
  (startsFrom_of_boot boot_small).hasOne (Device.hasOne_smallBuild h)

theorem exists_run {r : Option (Node × List Event)} {p : Node × List Event → Bool}
    (h : r.any p = true) : ∃ m events, r = some (m, events) ∧ p (m, events) = true := by
  rcases r with _ | ⟨m, events⟩
  · contradiction
  · exact ⟨m, events, rfl, h⟩

end RailNode.Node
