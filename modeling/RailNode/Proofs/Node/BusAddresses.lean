import RailNode.Proofs.Node.MessageOrder
import RailNode.Proofs.Service.AddressAnswers

/-
  The search for an address on a bus. One node searches (`Search`), and each of the others takes its
  request from the link in some round of its own (`Peer`). Whoever has an address answers with it
  once. If every answer comes in before the window is over, the address that is found is different
  from those of all others, unless empty frames have come in from every address there is; then it is
  the lowest of all (`addresses_of_search`).
-/
namespace RailNode

theorem BusAddress.isAssigned_of_isAssignable {a : BusAddress} (h : a.isAssignable = true) :
    a.isAssigned = true := by
  revert a
  decide

namespace Node

open RailNode.Configuration BusAccess

/-! ## Rounds -/

namespace Round

variable {r : Round}

/-- The frame that the round takes from the link. -/
def frame? (r : Round) : Option Frame := r.node.link.received.items.head?

/-- No search goes on when the round begins, and none begins in it. -/
structure Idle (r : Round) : Prop where
  search : r.node.busAccess.enumeration.search = none
  asked : r.node.busAccess.enumeration.asked? r.node.nextAction.1 = none

/-- Without a search a round offers the message that it takes from the queue, and its answer to the
    frame that it takes from the link. -/
theorem offered_of_idle (hone : r.node.HasOne .busAccess) (h : r.node.cycle r.now = .ok r.outcome)
    (hidle : r.Idle) :
    r.outcome.offered = (r.taken?.map (.message r.node.config.address)).toList ++
      r.frame?.elim [] (Frame.answers r.outcome.node.config.address) := by
  obtain ⟨t, hvisit⟩ := exists_busVisit hone h
  obtain ⟨found, hlink, hedits, hturn⟩ := hvisit.turn
  have hoffers := offers_turn_of_idle (c := r.node.facts r.now)
    (t := { self := r.node.busAccess, shared := found }) ⟨hidle.search, hidle.asked⟩
  rw [hturn] at hoffers
  have hwaiting : waiting? { self := r.node.busAccess, shared := found } = r.frame? := by
    rw [waiting?, frame?, hlink]
  have hfound : found.config.address = r.node.config.address :=
    hedits.changesOnly.address (by decide)
  have hframes := hoffers.frames
  rw [hwaiting] at hframes
  rw [hvisit.offered, hvisit.edits.changesOnly.address (by decide), ← hfound]
  exact hframes

/-- An answer tells whose address it is. -/
theorem heard_of_answer {own : BusAddress} (h : r.frame? = some (.addressAnswer own))
    (hown : own.isAssigned = true) : r.heard = [own] := by
  have hanswer : (Frame.addressAnswer own).answer? = some own := by
    show (if true && own.isAssigned then some own else none) = some own
    rw [hown]
    rfl
  unfold heard
  rw [show r.node.link.received.items.head? = _ from h, Option.bind_some, hanswer]
  rfl

end Round

/-! ## The node that searches -/

/-- A search in the life of a node, from the round in which it begins to the first in which its
    window is over. -/
structure Search where
  start : Node
  inputs : List Input
  last : Node
  events : List Event
  hasOne : start.HasOne .busAccess
  run : start.run inputs = some (last, events)
  forPeer : Bool
  earlier : List Round
  first : Round
  later : List Round
  rounds_eq : rounds events = earlier ++ first :: later
  begins : first.Begins forPeer
  before : List Round
  final : Round
  after : List Round
  split : first :: later = before ++ final :: after
  open_before : ∀ x ∈ before, ¬ x.IsOver start.timing.searchWindow first.now
  over_final : final.IsOver start.timing.searchWindow first.now

namespace Search

variable (s : Search)

/-- The rounds of the search. -/
def window : List Round := s.before ++ [s.final]

/-- The addresses from which empty frames have come in. -/
def heard : List BusAddress := s.window.flatMap Round.heard

/-- The address of the node when the search has ended. -/
def address : BusAddress := s.final.outcome.node.config.address

/-- In its first round the search asks the other nodes. -/
theorem exists_request : ∃ own, s.first.requests = [.addressRequest own] := by
  have hmem : s.first ∈ rounds s.events := by
    rw [s.rounds_eq]
    exact List.mem_append_right _ List.mem_cons_self
  obtain ⟨hone, hcycle⟩ := forall_rounds (R := fun n => n.HasOne .busAccess) s.run
    (fun hmoves hn => hmoves.hasOne hn) s.hasOne s.first hmem
  have hrequests := Round.requests_eq hone hcycle
  rw [s.begins.idle, s.begins.asked] at hrequests
  exact hrequests

theorem isLowestFree : IsLowestFree s.heard s.address := by
  obtain ⟨⟨hone, hwindow⟩, hcycle, _, answers, hopened, hanswers⟩ :=
    exists_opened s.hasOne s.run s.rounds_eq s.begins s.split s.open_before
  have hround := Round.search_of_opened hone hcycle hopened
  rw [hwindow, if_pos s.over_final] at hround
  refine hround.address.congr fun b => ?_
  rw [heard, window, List.flatMap_append, List.flatMap_singleton, List.mem_append,
    List.mem_append, hanswers, or_comm]

/-- The address is one that a node may claim. -/
theorem isAssignable_address : s.address.isAssignable = true := s.isLowestFree.isAssignable

/-- If there is an address of which nothing has been heard, the node takes such a one. -/
theorem address_notMem {b : BusAddress} (hb : b.isAssignable = true) (hfree : b ∉ s.heard) :
    s.address ∉ s.heard := by
  rcases s.isLowestFree with ⟨_, hnew, _⟩ | ⟨_, hall⟩
  · exact hnew
  · exact absurd (hall b hb) hfree

/-- If there is none, it takes the lowest of all. -/
theorem address_eq_first (hall : ∀ b : BusAddress, b.isAssignable = true → b ∈ s.heard) :
    s.address = .firstAssignable := by
  rcases s.isLowestFree with ⟨hassignable, hnew, _⟩ | ⟨hfirst, _⟩
  · exact absurd (hall _ hassignable) hnew
  · exact hfirst

end Search

/-! ## The others -/

/-- The life of another node, whose address stays the same. In one of its rounds, in which it does
    not search itself, it takes the request from the link. -/
structure Peer (request : Frame) where
  start : Node
  inputs : List Input
  last : Node
  events : List Event
  hasOne : start.HasOne .busAccess
  run : start.run inputs = some (last, events)
  keeps : ∀ r ∈ rounds events, r.outcome.node.config.address = r.node.config.address
  asked : Round
  mem_rounds : asked ∈ rounds events
  takes : asked.frame? = some request
  idle : asked.Idle

namespace Peer

variable {request : Frame} (p : Peer request)

def address : BusAddress := p.start.config.address

theorem address_rounds :
    p.last.config.address = p.address ∧ ∀ r ∈ rounds p.events, r.node.config.address = p.address :=
  have hhands := handsOn_of_run (g := fun n => n.config.address)
    (fun hcore => by rw [hcore.config]) p.run
  hhands.eq_of_keeps p.keeps

/-- What a node offers when it takes a request: the message that it sends, if any, and its answer if
    it has an address. -/
theorem offered_asked (hrequest : request.asks = true) : p.asked.outcome.offered =
    (p.asked.taken?.map (.message p.address)).toList ++
      if p.address.isAssigned then [.addressAnswer p.address] else [] := by
  obtain ⟨hone, hcycle⟩ := forall_rounds (R := fun n => n.HasOne .busAccess) p.run
    (fun hmoves hn => hmoves.hasOne hn) p.hasOne p.asked p.mem_rounds
  have hnode := p.address_rounds.2 p.asked p.mem_rounds
  rw [Round.offered_of_idle hone hcycle p.idle, p.keeps p.asked p.mem_rounds, hnode, p.takes,
    Option.elim_some, Frame.answers, hrequest, Bool.true_and]

end Peer

/-! ## All nodes -/

/-- Every empty frame that is no request and that a node offers when it takes the request is taken
    from the link in a round of the search. -/
def Delivered {request : Frame} (s : Search) (p : Peer request) : Prop :=
  ∀ f ∈ p.asked.outcome.offered, f.data.isEmpty = true → f.remote = false →
    ∃ x ∈ s.window, x.frame? = some f

variable {request : Frame} {s : Search} {p : Peer request}

/-- The search hears of an address that is in use. -/
theorem mem_heard_of_delivered (hrequest : request.asks = true) (h : Delivered s p)
    (hassigned : p.address.isAssigned = true) : p.address ∈ s.heard := by
  have hmem : .addressAnswer p.address ∈ p.asked.outcome.offered := by
    rw [p.offered_asked hrequest, hassigned]
    exact List.mem_append_right _ (List.mem_singleton.2 rfl)
  obtain ⟨x, hx, hframe⟩ := h _ hmem rfl rfl
  refine List.mem_flatMap.2 ⟨x, hx, ?_⟩
  rw [Round.heard_of_answer hframe hassigned]
  exact List.mem_singleton.2 rfl

/-- Some address that a node may claim has not been heard of. -/
def Search.HasFree (s : Search) : Prop := ∃ b : BusAddress, b.isAssignable = true ∧ b ∉ s.heard

/-- An address of which nothing has been heard is not in use. -/
theorem address_ne_of_hasFree (hrequest : request.asks = true) (h : Delivered s p)
    (hfree : s.HasFree) : p.address ≠ s.address := by
  obtain ⟨b, hb, hunheard⟩ := hfree
  intro heq
  have hassigned : s.address.isAssigned = true :=
    BusAddress.isAssigned_of_isAssignable s.isAssignable_address
  refine s.address_notMem hb hunheard ?_
  rw [← heq] at hassigned ⊢
  exact mem_heard_of_delivered hrequest h hassigned

/-- No two of these nodes have the same address; having none does not count. -/
def AddressesDiffer {κ : Type} (address : κ → BusAddress) : Prop :=
  ∀ i j, (address i).isAssigned = true → address i = address j → i = j

variable {ι : Type} {peers : ι → Peer request}

/-- The address of the node that has searched, and those that the others have in the end. -/
def addresses (s : Search) (peers : ι → Peer request) : Option ι → BusAddress
  | none => s.address
  | some i => (peers i).last.config.address

theorem addressesDiffer_iff (hdistinct : AddressesDiffer fun i => (peers i).address) :
    AddressesDiffer (addresses s peers) ↔ ∀ i, (peers i).address ≠ s.address := by
  have hsome : ∀ i, addresses s peers (some i) = (peers i).address :=
    fun i => (peers i).address_rounds.1
  constructor
  · intro h i heq
    have hassigned : (addresses s peers none).isAssigned = true :=
      BusAddress.isAssigned_of_isAssignable s.isAssignable_address
    have hnone := h none (some i) hassigned ((hsome i).trans heq).symm
    contradiction
  · intro h i j hassigned heq
    cases i with
    | none =>
      cases j with
      | none => rfl
      | some j => exact absurd ((hsome j).symm.trans heq.symm) (h j)
    | some i =>
      rw [hsome] at hassigned heq
      cases j with
      | none => exact absurd heq (h i)
      | some j =>
        rw [hsome] at heq
        exact congrArg some (hdistinct i j hassigned heq)

/-- One node searches for an address while the others have different addresses and keep them, each
    of the others takes the request, and every answer comes in before the window is over. Then the
    node has an address that it may claim. It is different from those of all others exactly if empty
    frames have not come in from every such address, or nobody else has the lowest of them. Whoever
    has an address has answered with it once, and the others not at all. -/
theorem addresses_of_search (hrequest : s.first.requests = [request])
    (hdistinct : AddressesDiffer fun i => (peers i).address)
    (hdelivered : ∀ i, Delivered s (peers i)) :
    s.address.isAssignable = true ∧
      (AddressesDiffer (addresses s peers) ↔
        s.HasFree ∨ ∀ i, (peers i).address ≠ .firstAssignable) ∧
      ∀ i, (peers i).asked.outcome.offered =
        ((peers i).asked.taken?.map (.message (peers i).address)).toList ++
          if (peers i).address.isAssigned then [.addressAnswer (peers i).address] else [] := by
  have hasks : request.asks = true := by
    obtain ⟨own, hown⟩ := s.exists_request
    rw [hrequest] at hown
    rw [(List.cons.inj hown).1]
    rfl
  refine ⟨s.isAssignable_address, ?_, fun i => (peers i).offered_asked hasks⟩
  rw [addressesDiffer_iff hdistinct]
  by_cases hfree : s.HasFree
  · refine iff_of_true (fun i => ?_) (Or.inl hfree)
    exact address_ne_of_hasFree hasks (hdelivered i) hfree
  · have hall : ∀ b : BusAddress, b.isAssignable = true → b ∈ s.heard := by
      intro b hb
      by_contra hunheard
      exact hfree ⟨b, hb, hunheard⟩
    rw [s.address_eq_first hall]
    exact ⟨Or.inr, fun h => h.resolve_left hfree⟩

/-! ## Two nodes -/

/-- The rounds are those of a search of a node without an address. -/
def isSearch (window : Time) : List Round → Bool
  | [] => false
  | first :: later =>
    first.node.busAccess.enumeration.search == none &&
      first.node.busAccess.enumeration.asked? first.node.nextAction.1 == some false &&
      (first :: later).dropLast.all (fun r => !decide (r.IsOver window first.now)) &&
      decide (((first :: later).getLast (List.cons_ne_nil _ _)).IsOver window first.now) &&
      first.requests == [.addressRequest .unassigned]

theorem exists_search {inputs : List Input} {q : List Round → Bool}
    (h : ((small.run inputs).any fun x =>
      isSearch small.timing.searchWindow (rounds x.2) && q (rounds x.2)) = true) :
    ∃ s : Search, s.first.requests = [.addressRequest .unassigned] ∧ q s.window = true := by
  obtain ⟨m, events, hrun, hp⟩ := exists_run h
  rcases hrounds : rounds events with _ | ⟨first, later⟩
  · rw [hrounds] at hp
    contradiction
  · rw [hrounds] at hp
    simp only [isSearch, Bool.and_eq_true, beq_iff_eq, List.all_eq_true, Bool.not_eq_true',
      decide_eq_false_iff_not, decide_eq_true_eq] at hp
    obtain ⟨⟨⟨⟨⟨hidle, hasked⟩, hopen⟩, hover⟩, hrequests⟩, hq⟩ := hp
    have hsplit := List.dropLast_append_getLast (List.cons_ne_nil first later)
    refine ⟨{
      start := small
      inputs := inputs
      last := m
      events := events
      hasOne := hasOne_small (by decide)
      run := hrun
      forPeer := false
      earlier := []
      first := first
      later := later
      rounds_eq := hrounds
      begins := ⟨hidle, hasked⟩
      before := (first :: later).dropLast
      final := (first :: later).getLast (List.cons_ne_nil _ _)
      after := []
      split := hsplit.symm
      open_before := hopen
      over_final := hover }, hrequests, ?_⟩
    rw [Search.window, hsplit]
    exact hq

/-- What comes of a start of a small device that has the lowest address. -/
def neighbourDevice : Device :=
  ((Device.idle (Device.smallConfiguration.factoryReset.setAddress .firstAssignable).store
    (.ofCapacities 2 2)).boot Device.smallBuild false).1

/-- Its node. -/
def neighbour : Node := neighbourDevice.node?.get (by decide +kernel)

/-- It takes a request and sends nothing but its answer. -/
theorem exists_neighbour : ∃ p : Peer (.addressRequest .unassigned),
    p.address = .firstAssignable ∧ p.asked.taken? = none := by
  have hboot : neighbourDevice = .running neighbour := by
    refine eq_running_of_node? ?_
    rw [neighbour, Option.some_get]
  have hrun : ((neighbour.run [.deliver (.addressRequest .unassigned), .cycle 0]).any fun x =>
      match rounds x.2 with
      | [r] =>
        r.frame? == some (.addressRequest .unassigned) && r.taken? == none &&
          r.node.busAccess.enumeration.search == none &&
          r.node.busAccess.enumeration.asked? r.node.nextAction.1 == none &&
          r.outcome.node.config.address == r.node.config.address
      | _ => false) = true := by
    decide +kernel
  obtain ⟨m, events, hm, hp⟩ := exists_run hrun
  split at hp
  · rename_i r hrounds
    simp only [Bool.and_eq_true, beq_iff_eq] at hp
    obtain ⟨⟨⟨⟨hframe, htaken⟩, hsearch⟩, hasked⟩, haddress⟩ := hp
    refine ⟨{
      start := neighbour
      inputs := _
      last := m
      events := events
      hasOne := (startsFrom_of_boot hboot).hasOne (Device.hasOne_smallBuild (by decide))
      run := hm
      keeps := by
        rw [show rounds events = [r] from hrounds, List.forall_mem_singleton]
        exact haddress
      asked := r
      mem_rounds := by
        rw [show rounds events = [r] from hrounds]
        exact List.mem_singleton.2 rfl
      takes := hframe
      idle := ⟨hsearch, hasked⟩ }, ?_, htaken⟩
    show neighbour.config.address = .firstAssignable
    decide +kernel
  · contradiction

/-- While a small node searches, empty frames come in from these addresses. -/
def overhearing (addresses : List BusAddress) : List Input :=
  [.ask (.put (.searchAddress false)), .cycle 0] ++
    addresses.flatMap (fun a => [.deliver (.addressAnswer a), .cycle 1]) ++ [.cycle 100000]

/-- The rounds take answers from these addresses. -/
def takesAnswers (addresses : List BusAddress) (rounds : List Round) : Bool :=
  addresses.all fun a => rounds.any (·.frame? == some (.addressAnswer a))

/-- The answer of the neighbour comes in. -/
theorem delivered_of_takesAnswers {addresses : List BusAddress} {s : Search}
    {p : Peer (.addressRequest .unassigned)} (h : takesAnswers addresses s.window = true)
    (hmem : p.address ∈ addresses) (htaken : p.asked.taken? = none) : Delivered s p := by
  intro f hf _ _
  rw [p.offered_asked rfl, htaken] at hf
  have hanswer : f = .addressAnswer p.address := by
    split_ifs at hf
    · exact List.mem_singleton.1 hf
    · exact absurd hf List.not_mem_nil
  obtain ⟨x, hx, hframe⟩ := List.any_eq_true.1 (List.all_eq_true.1 h _ hmem)
  exact ⟨x, hx, by rw [hanswer, beq_iff_eq.1 hframe]⟩

/-- A node that hears of the lowest address finds another. -/
theorem differ_of_overhearing : ∃ (s : Search) (p : Peer (.addressRequest .unassigned)),
    s.first.requests = [.addressRequest .unassigned] ∧ Delivered s p ∧ s.HasFree ∧
      p.address = .firstAssignable ∧ AddressesDiffer (addresses s fun _ : Unit => p) := by
  let q := fun rs => takesAnswers [1] rs && !(rs.flatMap Round.heard).contains 2
  have hrun : ((small.run (overhearing [1])).any fun x =>
      isSearch small.timing.searchWindow (rounds x.2) && q (rounds x.2)) = true := by
    decide +kernel
  obtain ⟨s, hrequest, hq⟩ := exists_search hrun
  obtain ⟨p, hp, htaken⟩ := exists_neighbour
  simp only [q, Bool.and_eq_true, Bool.not_eq_true', List.contains_eq_mem,
    decide_eq_false_iff_not] at hq
  have hdelivered := delivered_of_takesAnswers hq.1 (by rw [hp]; decide) htaken
  have hfree : s.HasFree := ⟨2, by decide, hq.2⟩
  have hiff : AddressesDiffer (addresses s fun _ : Unit => p) ↔ _ :=
    (addresses_of_search hrequest (fun _ _ _ _ => rfl) fun _ => hdelivered).2.1
  exact ⟨s, p, hrequest, hdelivered, hfree, hp, hiff.2 (Or.inl hfree)⟩

/-- A node that hears of every address takes the lowest, which another node has; all the other
    addresses are not in use. -/
theorem not_differ_of_overhearing : ∃ (s : Search) (p : Peer (.addressRequest .unassigned)),
    s.first.requests = [.addressRequest .unassigned] ∧ Delivered s p ∧
      p.address = .firstAssignable ∧
      (∀ b : BusAddress, b.isAssignable = true → b ≠ .firstAssignable → b ≠ p.address) ∧
      ¬ AddressesDiffer (addresses s fun _ : Unit => p) := by
  have hrun : ((small.run (overhearing Enumeration.assignable)).any fun x =>
      isSearch small.timing.searchWindow (rounds x.2) &&
        takesAnswers Enumeration.assignable (rounds x.2)) = true := by
    decide +kernel
  obtain ⟨s, hrequest, hq⟩ := exists_search hrun
  obtain ⟨p, hp, htaken⟩ := exists_neighbour
  have hall : ∀ b : BusAddress, b.isAssignable = true → b ∈ s.heard := by
    intro b hb
    have hb' := List.all_eq_true.1 hq b (Enumeration.mem_assignable.2 hb)
    obtain ⟨x, hx, hframe⟩ := List.any_eq_true.1 hb'
    refine List.mem_flatMap.2 ⟨x, hx, ?_⟩
    rw [Round.heard_of_answer (beq_iff_eq.1 hframe) (BusAddress.isAssigned_of_isAssignable hb)]
    exact List.mem_singleton.2 rfl
  refine ⟨s, p, hrequest, delivered_of_takesAnswers hq (by rw [hp]; decide) htaken, hp,
    fun b _ hb => by rw [hp]; exact hb, ?_⟩
  rw [addressesDiffer_iff fun _ _ _ _ => rfl]
  intro h
  exact h () (hp.trans (s.address_eq_first hall).symm)

end Node

end RailNode
