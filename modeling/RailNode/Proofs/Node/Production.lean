import RailNode.Proofs.Device.LearnedEvents
import RailNode.Proofs.Device.EventIndex
import RailNode.Proofs.Recognition

/-
  Events that the application sends. A call that is accepted puts one message in the queue, which
  brings every node that has learned the event, the sender among them, back to the slot it learned
  it in (`recognised_of_produce`). A call that is refused leaves the node as it was.
-/
namespace RailNode

namespace Node

variable {n m : Node} {slot : Nat} {on : Bool} {data : List UInt8} {message : Message}

/-! ## Calls -/

/-- The first producer has counted one event more. -/
def CountsOne (es es' : List Entry) : Prop :=
  ∃ before s r after, es = before ++ ⟨.producer s, r⟩ :: after ∧
    (∀ x ∈ before, x.service.id ≠ .producer) ∧ es' = before ++ ⟨.producer s.count, r⟩ :: after

/-- A node has put a message in its queue and counted it, and changed nothing else. -/
structure Sends (n m : Node) (message : Message) : Prop where
  queue : m.queue = n.queue.put (.transmit message)
  entries : CountsOne n.entries m.entries
  rest : m = { n with entries := m.entries, queue := m.queue }

/-- A producer that has counted an event more. -/
def count? : Service → Option (Unit × Service)
  | .producer s => some ((), .producer s.count)
  | _ => none

theorem count?_eq_none {s : Service} (h : s.id ≠ .producer) : count? s = none := by
  cases s with
  | producer s => exact absurd rfl h
  | _ => rfl

/-- Among services with a producer there is a first one to count the event. -/
theorem exists_countsOne {es : List Entry} (h : ∃ e ∈ es, e.service.id = .producer) :
    ∃ es', updateFirst count? es = some ((), es') ∧ CountsOne es es' := by
  induction es with
  | nil =>
    obtain ⟨e, he, _⟩ := h
    exact absurd he List.not_mem_nil
  | cons e es ih =>
    obtain ⟨service, r⟩ := e
    by_cases hid : service.id = .producer
    · cases service with
      | producer s => exact ⟨⟨.producer s.count, r⟩ :: es, rfl, [], s, r, es, rfl, nofun, rfl⟩
      | _ => exact absurd hid (by simp only [Service.id]; decide)
    · have hrest : ∃ e ∈ es, e.service.id = .producer := by
        obtain ⟨e, he, hproducer⟩ := h
        rcases List.mem_cons.1 he with rfl | he
        · exact absurd hproducer hid
        · exact ⟨e, he, hproducer⟩
      obtain ⟨es', hupdate, before, s, r', after, rfl, hbefore, rfl⟩ := ih hrest
      refine ⟨⟨service, r⟩ :: (before ++ ⟨.producer s.count, r'⟩ :: after), ?_,
        ⟨service, r⟩ :: before, s, r', after, rfl, List.forall_mem_cons.2 ⟨hid, hbefore⟩, rfl⟩
      unfold updateFirst
      rw [count?_eq_none hid, hupdate]
      rfl

/-- What a call comes to is what comes of its message, if there is a producer. -/
theorem produce_eq (h : ∃ e ∈ n.entries, e.service.id = .producer) :
    ∃ entries, CountsOne n.entries entries ∧ ∀ slot on data, n.produce slot on data =
      match EventProducer.message n.config slot on data with
      | .error x => .error (.produce x)
      | .ok message => .ok ({ n with entries }.put (.transmit message)) := by
  obtain ⟨entries, hupdate, hcounts⟩ := exists_countsOne h
  refine ⟨entries, hcounts, fun slot on data => ?_⟩
  unfold produce
  dsimp only
  split
  · rename_i hnone
    have heq := hupdate.symm.trans hnone
    contradiction
  · rename_i entries' hsome
    obtain ⟨_, rfl⟩ := Prod.mk.inj (Option.some.inj (hupdate.symm.trans hsome))
    rfl

theorem exists_sends (hproducer : ∃ e ∈ n.entries, e.service.id = .producer)
    (h : EventProducer.message n.config slot on data = .ok message) :
    ∃ m, n.produce slot on data = .ok m ∧ n.Sends m message := by
  obtain ⟨entries, hcounts, hproduce⟩ := produce_eq hproducer
  refine ⟨{ n with entries }.put (.transmit message), ?_, rfl, hcounts, rfl⟩
  rw [hproduce, h]

theorem exists_refused (hproducer : ∃ e ∈ n.entries, e.service.id = .producer)
    (h : ¬ EventProducer.Accepts n.config slot data) :
    (∃ x, n.produce slot on data = .error (.produce x)) ∧
      n.serve (.produce slot on data) = n := by
  obtain ⟨entries, _, hproduce⟩ := produce_eq hproducer
  obtain ⟨x, hx⟩ := EventProducer.exists_error h on
  have hrefused : n.produce slot on data = .error (.produce x) := by rw [hproduce, hx]
  refine ⟨⟨x, hrefused⟩, ?_⟩
  rw [serve, hrefused]
  rfl

end Node

/-! ## Runs -/

namespace Device

open RailNode.Configuration

/-- In every state of every run of a device, from any store, sending an event and recognising it
    agree. The call is accepted from a node in normal mode for a slot with an event in it and at
    most three data bytes, and the message brings the sender back to that slot, and every other
    running node that holds the event in one slot only to this slot, with the polarity and the data
    of the call. Any other call leaves the node as it was. -/
theorem recognised_of_produce {store : Store} {link : Link} {inputs : List Input} {n : Node}
    (h : (idle store link).run inputs = some (running n))
    (hproducer : ∃ e ∈ n.entries, e.service.id = .producer) (hu : n.config.Unique)
    (slot : Nat) (on : Bool) (data : List UInt8) :
    (EventProducer.Accepts n.config slot data → ∃ e m message,
      n.config.Holds slot e ∧ n.produce slot on data = .ok m ∧ n.Sends m message ∧
      n.config.recognise? message =
        some ⟨slot, e.sentBy n.config.nodeNumber, e.node == 0, on, data⟩ ∧
      ∀ store' link' inputs' n' slot', (idle store' link').run inputs' = some (running n') →
        n'.config.HoldsOnlyIn slot' e → n'.config.recognise? message =
          some ⟨slot', e.sentBy n.config.nodeNumber, e.node == 0, on, data⟩) ∧
    (¬ EventProducer.Accepts n.config slot data →
      (∃ x, n.produce slot on data = .error (.produce x)) ∧
        n.serve (.produce slot on data) = n) := by
  refine ⟨fun haccepts => ?_, Node.exists_refused hproducer⟩
  have hindex := indexAgrees_of_run h
  obtain ⟨e, he⟩ := hindex.exists_holds haccepts.slot
  obtain ⟨message, hmessage, hrecognise⟩ := EventProducer.exists_message haccepts he.2 on
  obtain ⟨m, hm, hsends⟩ := Node.exists_sends hproducer hmessage
  refine ⟨e, m, message, he, hm, hsends, ?_, fun store' link' inputs' n' slot' h' honly => ?_⟩
  · have honly := hu.holdsOnlyIn (slot_lt_of_isFree haccepts.slot) he
    rw [hrecognise, hindex.find_of_holdsOnlyIn honly]
    rfl
  · rw [hrecognise, (indexAgrees_of_run h').find_of_holdsOnlyIn honly]
    rfl

/-- A small device with a producer. -/
def producerBuild : Build :=
  { smallBuild with services := [.minimumNode {}, .teaching {}, .producer {}] }

/-- A session in which a node gets the number 5 and learns a short and a long event. -/
def producerSession : List Input :=
  .boot producerBuild false :: (session
    [.advanceMode, .received (.addressed Opcode.snn.byte 5 []),
      .received (.addressed Opcode.nnlrn.byte 5 []),
      .received (.addressed Opcode.evlrn.byte 0 [0, 2, 1, 9]),
      .received (.addressed Opcode.evlrn.byte 1 [0, 2, 1, 9])]).tail

theorem exists_producerSession : ∃ n, smallDevice.run producerSession = some (running n) ∧
    (∃ e ∈ n.entries, e.service.id = .producer) ∧ n.config.nodeNumber = 5 ∧
    EventProducer.Accepts n.config 0 [] ∧ EventProducer.Accepts n.config 1 [9] ∧
    n.config.event 0 = .ok ⟨0, 2⟩ ∧ n.config.event 1 = .ok ⟨1, 2⟩ := by
  have hrun : ((smallDevice.run producerSession).bind node?).any (fun n =>
      (n.entries.any fun e => e.service.id == .producer) && n.config.nodeNumber == 5 &&
        n.config.mode == .normal && n.config.isFree 0 == false && n.config.isFree 1 == false &&
        (n.config.event 0).toOption == some ⟨0, 2⟩ &&
        (n.config.event 1).toOption == some ⟨1, 2⟩) = true := by
    decide +kernel
  obtain ⟨n, hn, hstate⟩ := exists_running hrun
  simp only [Bool.and_eq_true, List.any_eq_true, beq_iff_eq] at hstate
  obtain ⟨⟨⟨⟨⟨⟨hproducer, hnumber⟩, hmode⟩, hfirst⟩, hsecond⟩, hshort⟩, hlong⟩ := hstate
  exact ⟨n, hn, hproducer, hnumber, ⟨hmode, Nat.zero_le 3, hfirst⟩,
    ⟨hmode, by decide, hsecond⟩, toOption_eq_some_iff.1 hshort, toOption_eq_some_iff.1 hlong⟩

/-- The short event goes out under the number of the node and comes back to its slot. The long one
    comes back to its slot as well, and to another slot in the node of another device. -/
theorem recognised_of_producerSession : ∃ n other,
    smallDevice.run producerSession = some (running n) ∧
    smallDevice.run learningSession = some (running other) ∧
    (∃ m message, n.produce 0 false [] = .ok m ∧ n.Sends m message ∧
      n.config.recognise? message = some ⟨0, ⟨5, 2⟩, true, false, []⟩) ∧
    (∃ m message, n.produce 1 true [9] = .ok m ∧ n.Sends m message ∧
      n.config.recognise? message = some ⟨1, ⟨1, 2⟩, false, true, [9]⟩ ∧
      other.config.recognise? message = some ⟨0, ⟨1, 2⟩, false, true, [9]⟩) ∧
    n.serve (.produce 2 true []) = n := by
  obtain ⟨n, hn, hproducer, hnumber, hfirst, hsecond, hshort, hlong⟩ := exists_producerSession
  obtain ⟨other, hother, hfind⟩ := exists_learningSession
  have hunique : ∀ {d : Device} {inputs : List Input},
      smallDevice.run inputs = some d → (∀ i ∈ inputs, i.Starts (·.layout = smallBuild.layout)) →
      Holds smallBuild.layout Unique d := fun h hi =>
    holds_unique_of_run h hi (holds_idle smallConfiguration.factoryReset stored_unique
      smallConfiguration.layout_factoryReset
      (unique_of_forall_vacant smallConfiguration.vacant_factoryReset))
  have hsession : ∀ {actions : List Action},
      ∀ i ∈ session actions, i.Starts (·.layout = smallBuild.layout) := by
    intro actions
    exact starts_session (P := (·.layout = smallBuild.layout)) rfl actions
  have hheld := hunique hn (by
    intro i hi
    rcases List.mem_cons.1 hi with rfl | hi
    · rfl
    · exact hsession i (List.mem_of_mem_tail hi))
  have hheld' := hunique hother hsession
  have hu := hheld.store n.config (hheld.layout n rfl) rfl
  have hu' := hheld'.store other.config (hheld'.layout other rfl) rfl
  obtain ⟨hslot, hholds, _⟩ := (indexAgrees_of_run hother).find_eq_ok_iff.1 hfind
  refine ⟨n, other, hn, hother, ?_, ?_, ?_⟩
  · obtain ⟨e, m, message, he, hm, hsends, hown, _⟩ :=
      (recognised_of_produce hn hproducer hu 0 false []).1 hfirst
    obtain rfl : ⟨0, 2⟩ = e := Except.ok.inj (hshort.symm.trans he.2)
    rw [hnumber] at hown
    exact ⟨m, message, hm, hsends, hown⟩
  · obtain ⟨e, m, message, he, hm, hsends, hown, hothers⟩ :=
      (recognised_of_produce hn hproducer hu 1 true [9]).1 hsecond
    obtain rfl : ⟨1, 2⟩ = e := Except.ok.inj (hlong.symm.trans he.2)
    exact ⟨m, message, hm, hsends, hown,
      hothers _ _ _ other 0 hother (hu'.holdsOnlyIn hslot hholds)⟩
  · have hsize : n.config.layout.slots = 2 := congrArg Layout.slots (hheld.layout n rfl)
    refine ((recognised_of_produce hn hproducer hu 2 true []).2 fun h => ?_).2
    have hlt := slot_lt_of_isFree h.slot
    omega

end Device

end RailNode
