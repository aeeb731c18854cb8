import RailNode.Node

/-
  What the application asks of a node between two cycles: to queue an action, to send an event, and
  to hand over what its services have kept for it. Of several services of one kind the first that
  can do it answers.
-/
namespace RailNode.Node

/-- Queues an action. -/
def put (a : Action) (n : Node) : Node := { n with queue := n.queue.put a }

/-- Whether there has been activity since the last time; shows none afterwards. -/
def takeActivity (n : Node) : Bool × Node :=
  (n.indication.activity, { n with indication := { n.indication with activity := false } })

/-- Why an event was not sent. -/
inductive RequestError where
  /-- The node has no service for this. -/
  | noService
  | produce (e : ProduceError)
deriving DecidableEq, Repr

/-- Replaces the first service for which `f` gives another. -/
def updateFirst {α : Type} (f : Service → Option (α × Service)) :
    List Entry → Option (α × List Entry)
  | [] => none
  | e :: rest =>
    match f e.service with
    | some (a, service) => some (a, { e with service } :: rest)
    | none => (updateFirst f rest).map fun (a, rest) => (a, e :: rest)

/-- Sends the event in a slot through the first producer. -/
def produce (slot : Nat) (on : Bool) (data : List UInt8) (n : Node) : Except RequestError Node :=
  let count : Service → Option (Unit × Service)
    | .producer s => some ((), .producer s.count)
    | _ => none
  match updateFirst count n.entries with
  | none => .error .noService
  | some (_, entries) =>
    match EventProducer.message n.config slot on data with
    | .error e => .error (.produce e)
    | .ok m => .ok ({ n with entries }.put (.transmit m))

/-- Takes the oldest event of the first consumer that has one. -/
def takeConsumed? (n : Node) : Option (RecognisedEvent × Node) :=
  let take : Service → Option (RecognisedEvent × Service)
    | .consumer s => s.take?.map fun (e, s) => (e, .consumer s)
    | _ => none
  (updateFirst take n.entries).map fun (e, entries) => (e, { n with entries })

/-- The first long message service. -/
def longMessage? (n : Node) : Option LongMessage :=
  n.entries.findSome? fun e =>
    match e.service with
    | .longMessage s => some s
    | _ => none

/-- Replaces the first long message service. -/
def setLongMessage (s : LongMessage) (n : Node) : Node :=
  let replace : Service → Option (Unit × Service)
    | .longMessage _ => some ((), .longMessage s)
    | _ => none
  { n with entries := (updateFirst replace n.entries).elim n.entries (·.2) }

end RailNode.Node
