import RailNode.Proofs.Node.Cycle
import RailNode.Proofs.Node.Queue
import RailNode.Proofs.Node.Requests
import RailNode.Proofs.Service.Transfer

/-
  Nodes over stores that move several bytes in different ways. A cycle is the turns of the entries
  one after the other, so that it commutes with a change of the way as they do (`cycle_moving`), and
  the application is answered the same (`Request.answer_moving`).
-/
namespace RailNode.Node

variable {k : Transfer} {n : Node}

/-- The same node over a store that moves several bytes in this way. -/
def moving (k : Transfer) (n : Node) : Node := { n with config := n.config.moving k }

/-! ## Cycles -/

def EntryTrace.moving (k : Transfer) (t : EntryTrace) : EntryTrace where
  service := t.service.moving k
  reporter := t.reporter.moving k

def Outcome.moving (k : Transfer) (o : Outcome) : Outcome where
  node := o.node.moving k
  traces := o.traces.map (·.moving k)

@[simp]
theorem EntryTrace.actions_moving (t : EntryTrace) : (t.moving k).actions = t.actions := by
  simp only [actions, moving, Trace.actions, Trace.moving, List.map_map]
  rfl

@[simp]
theorem EntryTrace.frames_moving (t : EntryTrace) : (t.moving k).frames = t.frames := by
  simp only [frames, moving, Trace.frames, Trace.moving, List.map_map]
  rfl

/-- The actions and the frames that each entry has given out. -/
def Outcome.given (o : Outcome) : List (List Action × List Frame) :=
  o.traces.map fun t => (t.actions, t.frames)

@[simp]
theorem Outcome.given_moving (o : Outcome) : (o.moving k).given = o.given := by
  simp only [given, moving, List.map_map]
  exact List.map_congr_left fun t _ => congrArg₂ Prod.mk t.actions_moving t.frames_moving

theorem entryTurn_moving (c : Cycle) (position : Nat) (e : Entry) (shared : Shared) :
    entryTurn c position e (shared.moving k) =
      carry k (fun r => ((r.1.1, r.1.2.moving k), r.2.moving k))
        (entryTurn c position e shared) := by
  have hstart : Turn.mk e.service (shared.moving k) {} =
      (Turn.mk e.service shared {}).moving k := rfl
  unfold entryTurn
  rw [hstart, Service.turn_moving]
  refine carry_bind (fun t => ?_) _
  have hreporter : Turn.mk e.reporter (t.shared.moving k) {} =
      (Turn.mk e.reporter t.shared {}).moving k := rfl
  simp only [Turn.self_moving, Turn.shared_moving, hreporter, Reporter.turn_moving]
  rfl

/-- What the turns of entries come to, over a store that moves several bytes in this way. -/
def movingTurns (k : Transfer) (r : List (Entry × EntryTrace) × Shared) :
    List (Entry × EntryTrace) × Shared :=
  (r.1.map fun x => (x.1, x.2.moving k), r.2.moving k)

theorem turns_moving (c : Cycle) (position : Nat) (shared : Shared) (es : List Entry) :
    turns c position (shared.moving k) es =
      carry k (movingTurns k) (turns c position shared es) := by
  induction es generalizing position shared with
  | nil => rfl
  | cons e es ih =>
    unfold turns
    rw [entryTurn_moving]
    refine carry_bind (fun r => ?_) _
    dsimp only
    rw [ih]
    refine carry_bind (fun rest => ?_) _
    rfl

theorem outcome_moving (r : List (Entry × EntryTrace) × Shared) :
    (n.moving k).outcome (movingTurns k r) = (n.outcome r).moving k := by
  simp only [outcome, movingTurns, Outcome.moving, List.map_map]
  rfl

/-- A cycle does the same over any store, and gives the same out. -/
theorem cycle_moving (now : Time) (n : Node) :
    (n.moving k).cycle now = carry k (Outcome.moving k) (n.cycle now) := by
  have hopening : (n.moving k).opening = n.opening.moving k := rfl
  rw [cycle_eq, cycle_eq, hopening]
  show Except.map _ (turns (n.facts now) 1 _ n.entries) = _
  rw [turns_moving]
  exact carry_map outcome_moving _

/-! ## Requests -/

namespace Request

/-- What a request is answered with. -/
def Answer : Request → Type
  | put _ => Unit
  | takeActivity => Bool
  | produce _ _ _ => Except RequestError Unit
  | takeConsumed => Option RecognisedEvent
  | subscribe _ => Bool
  | send _ _ => Option (Except LongMessage.SendError Unit)
  | takeReceipt => Option LongMessage.Receipt

def answer (n : Node) : (r : Request) → r.Answer
  | put _ => ()
  | takeActivity => n.takeActivity.1
  | produce slot on data => (n.produce slot on data).map fun _ => ()
  | takeConsumed => n.takeConsumed?.map (·.1)
  | subscribe stream => (n.longMessage?.bind (·.subscribe? stream)).isSome
  | send stream payload => n.longMessage?.map fun s => (s.send stream payload).map fun _ => ()
  | takeReceipt => (n.longMessage?.bind (·.takeReceipt?)).map (·.1)

end Request

theorem message_moving (c : Configuration) (slot : Nat) (on : Bool) (data : List UInt8) :
    EventProducer.message (c.moving k) slot on data = EventProducer.message c slot on data := by
  unfold EventProducer.message
  rw [Configuration.mode_moving, Configuration.isFree_moving, Configuration.event_moving,
    Configuration.nodeNumber_moving]

theorem produce_moving (slot : Nat) (on : Bool) (data : List UInt8) :
    (n.moving k).produce slot on data = (n.produce slot on data).map (moving k) := by
  have hmessage : EventProducer.message (n.moving k).config slot on data =
      EventProducer.message n.config slot on data := message_moving _ slot on data
  unfold produce
  rw [hmessage]
  dsimp only [moving]
  split
  · rfl
  · split <;> rfl

theorem takeConsumed?_moving :
    (n.moving k).takeConsumed? = n.takeConsumed?.map fun r => (r.1, r.2.moving k) := by
  unfold takeConsumed?
  rw [Option.map_map]
  rfl

/-- The application is answered the same over any store. -/
theorem Request.answer_moving (r : Request) : r.answer (n.moving k) = r.answer n := by
  cases r with
  | produce slot on data =>
    show Except.map _ ((n.moving k).produce slot on data) = _
    rw [produce_moving]
    rcases hproduce : n.produce slot on data with e | m <;> simp only [answer, hproduce] <;> rfl
  | takeConsumed =>
    show Option.map _ (n.moving k).takeConsumed? = _
    rw [takeConsumed?_moving, Option.map_map]
    rfl
  | _ => rfl

theorem serve_moving (r : Request) : (n.moving k).serve r = (n.serve r).moving k := by
  have hlong : (n.moving k).longMessage? = n.longMessage? := rfl
  cases r with
  | put a => rfl
  | takeActivity => rfl
  | produce slot on data =>
    simp only [serve, produce_moving]
    rcases n.produce slot on data with e | m <;> rfl
  | takeConsumed =>
    simp only [serve, takeConsumed?_moving]
    rcases n.takeConsumed? with _ | r <;> rfl
  | subscribe stream =>
    simp only [serve, hlong]
    rcases n.longMessage?.bind (·.subscribe? stream) with _ | s <;> rfl
  | send stream payload =>
    simp only [serve, hlong]
    rcases n.longMessage?.bind fun s => (s.send stream payload).toOption with _ | s <;> rfl
  | takeReceipt =>
    simp only [serve, hlong]
    rcases n.longMessage?.bind (·.takeReceipt?) with _ | r <;> rfl

/-! ## What there is to see of a node -/

/-- All of a node but the way in which its store moves several bytes. -/
structure View where
  contents : Configuration.Contents
  link : Link
  queue : Backlog Action queueCapacity
  parameters : Parameters
  timing : Timing
  entries : List Entry
  indication : Indication

def view (n : Node) : View where
  contents := n.config.contents
  link := n.link
  queue := n.queue
  parameters := n.parameters
  timing := n.timing
  entries := n.entries
  indication := n.indication

theorem view_moving : (n.moving k).view = n.view := rfl

end RailNode.Node
