import RailNode.Proofs.Configuration.FactoryReset
import RailNode.Proofs.Node.AddressSearch
import RailNode.Proofs.Service.AddressAnswers

/-
  The bus address and the frames that carry it. The address in memory is the stored one
  (`Configuration.Addressed`). Bus access is the only service that changes it, and it takes none but
  those that a node may claim. What it offers to the link carries the address of that moment
  (`BusAccess.signs_turn`): the message that was to be sent, the request with which a search begins,
  or the answer to a request that has come in (`BusAccess.offers_of_turn`).
-/
namespace RailNode

open RailNode.Configuration

/-- The address is nobody's, or one that a node may claim. -/
def BusAddress.IsProper (a : BusAddress) : Prop := a = .unassigned ∨ a.isAssignable = true

/-- Every address that a node may claim is one of these. -/
def BusAddress.Covers (P : BusAddress → Prop) : Prop :=
  ∀ a : BusAddress, a.isAssignable = true → P a

theorem BusAddress.covers_isProper : Covers IsProper := fun _ ha => Or.inr ha

theorem BusAddress.covers_ne_unassigned : Covers (· ≠ .unassigned) := by
  rintro a ha rfl
  exact absurd ha (by decide)

/-- A search takes none but an address that a node may claim. -/
theorem Enumeration.isAssignable_of_finish? {e e' : Enumeration} {now window : Time}
    {claim : AddressClaim} (h : e.finish? now window = some (claim, e')) :
    claim.address.isAssignable = true := by
  unfold finish? at h
  split at h
  · contradiction
  · split_ifs at h
    rw [← congrArg (·.1.address) (Option.some.inj h)]
    exact (isLowestFree_lowestFree _).isAssignable

/-! ## Configurations -/

namespace Configuration

variable {P : BusAddress → Prop} {c d : Configuration}

/-- The address in memory is one of these, and the store holds the same. -/
structure Addressed (P : BusAddress → Prop) (c : Configuration) : Prop where
  address : P c.address
  stored : c.store.read busAddressAddress = c.address.byte

theorem Addressed.of_changesOnly {A : List Part} (hc : c.Addressed P) (h : ChangesOnly A c d)
    (hA : .address ∉ A) : d.Addressed P where
  address := by
    rw [h.address hA]
    exact hc.address
  stored := by
    have hread : d.store.read busAddressAddress = c.store.read busAddressAddress :=
      h.read_of_owns hA rfl
    rw [hread, h.address hA, hc.stored]

theorem addressed_setAddress (c : Configuration) {a : BusAddress} (ha : P a) :
    (c.setAddress a).Addressed P where
  address := ha
  stored := c.read_write_identity (by decide) a.byte

/-- A start takes the stored address as it is. -/
theorem addressed_load {a : BusAddress} (ha : P a)
    (h : c.store.read busAddressAddress = a.byte) : c.load.Addressed P := by
  have haddress : c.load.address = a := by rw [c.address_load, h, a.truncate_byte]
  refine ⟨?_, ?_⟩
  · rw [haddress]
    exact ha
  · rw [c.store_load, h, haddress]

end Configuration

/-! ## Turns -/

/-- The frame carries the address that the node had at that moment, one of these. -/
structure Emission.Signed (P : BusAddress → Prop) (x : Emission Frame) : Prop where
  addressed : x.config.Addressed P
  id : x.item.id = .standard (.ofSender x.config.address)

/-- The node has one of these addresses, and what was offered to the link carries the one that it
    had then. -/
structure Turn.Signs {σ : Type} (P : BusAddress → Prop) (t : Turn σ) : Prop where
  addressed : t.config.Addressed P
  offered : ∀ x ∈ t.trace.offered, x.Signed P

namespace Turn.Signs

variable {σ τ : Type} {P : BusAddress → Prop} {t : Turn σ}

theorem of_silent (ht : t.config.Addressed P) (hnone : t.trace.offered = []) : t.Signs P where
  addressed := ht
  offered := by
    rw [hnone]
    exact fun _ hx => absurd hx List.not_mem_nil

theorem congr (h : t.Signs P) {u : Turn τ} (hconfig : u.config = t.config)
    (hoffered : u.trace.offered = t.trace.offered) : u.Signs P where
  addressed := by
    rw [hconfig]
    exact h.addressed
  offered := by
    rw [hoffered]
    exact h.offered

theorem offer (h : t.Signs P) {f : Frame} (hf : f.id = .standard (.ofSender t.config.address)) :
    (t.offer f).Signs P where
  addressed := by
    rw [config_offer]
    exact h.addressed
  offered := by
    intro x hx
    rcases List.mem_append.1 hx with hx | hx
    · exact h.offered x hx
    · rw [List.mem_singleton.1 hx]
      exact ⟨h.addressed, hf⟩

end Turn.Signs

namespace BusAccess

open Turn

variable {c : Cycle} {t : Turn BusAccess}

section Signs

variable {P : BusAddress → Prop}

theorem signs_adopt {a : BusAddress} (ha : P a) (ht : t.Signs P) : (adopt a t).Signs P where
  addressed := by
    rw [config_adopt]
    exact t.config.addressed_setAddress ha
  offered := ht.offered

theorem signs_transmit (m : Message) (ht : t.Signs P) : (transmit m t).Signs P := by
  unfold transmit offerMessage
  refine Signs.offer ?_ rfl
  exact ht.congr rfl rfl

theorem signs_startSearch (now : Time) (forPeer : Bool) (ht : t.Signs P) :
    (startSearch now forPeer t).Signs P := by
  unfold startSearch
  split
  · exact ht
  · refine Signs.offer ?_ rfl
    exact ht.congr rfl rfl

theorem signs_startRequired (now : Time) (ht : t.Signs P) : (startRequired now t).Signs P := by
  unfold startRequired
  split_ifs
  · exact signs_startSearch now false (ht.congr rfl rfl)
  · exact ht

theorem signs_handleFrame (f : Frame) (ht : t.Signs P) : (handleFrame f t).Signs P := by
  unfold handleFrame handleEmpty
  split
  · exact ht
  · dsimp only
    split_ifs
    · refine Signs.offer ?_ rfl
      exact ht.congr rfl rfl
    · exact ht.congr rfl rfl
    · exact ht
    · exact ht.congr (config_handleData _ _ _) rfl

theorem signs_receive (ht : t.Signs P) : (receive t).Signs P := by
  unfold receive
  split
  · exact ht
  · exact signs_handleFrame _ (ht.congr rfl rfl)

variable (hP : BusAddress.Covers P)
include hP

theorem signs_handle (m : Message) (ht : t.Signs P) : (handle m t).Signs P := by
  unfold handle obeyAssignment
  split
  · split_ifs
    · exact ht.congr rfl rfl
    · exact ht
  · split_ifs
    · split
      · rename_i a ha
        have hassignable : a.isAssignable = true := (Option.filter_eq_some_iff.1 ha).2
        exact (signs_adopt (hP a hassignable) ht).congr rfl rfl
      · exact ht.congr rfl rfl
    · exact ht
  · exact ht

theorem signs_react (c : Cycle) (ht : t.Signs P) : (react c t).Signs P := by
  unfold react
  split
  · exact signs_transmit _ ht
  · exact signs_startSearch _ _ ht
  · exact signs_handle hP _ ht
  · exact ht

theorem signs_finishSearch (now window : Time) (ht : t.Signs P) :
    (finishSearch now window t).Signs P := by
  unfold finishSearch
  split
  · exact ht
  · rename_i claim e hfinish
    have hadopt : (adopt claim.address { t with self.enumeration := e }).Signs P :=
      signs_adopt (hP _ (Enumeration.isAssignable_of_finish? hfinish)) (ht.congr rfl rfl)
    dsimp only
    split_ifs
    · exact hadopt.congr rfl rfl
    · exact hadopt

/-- Whatever bus access has done, the node has one of the addresses that it may have, and the frames
    carry the one that it had at their moment. -/
theorem signs_turn (c : Cycle) (ht : t.Signs P) : (turn c t).Signs P :=
  signs_finishSearch hP _ _ (signs_receive (signs_startRequired _ (signs_react hP c ht)))

end Signs

/-! ## What is offered -/

/-- What a turn offers, in its order: the message that was to be sent, the request with which a
    search begins, and the answer to what waited. -/
theorem exists_offers_turn (c : Cycle) (t : Turn BusAccess) : ∃ own own',
    Offers ((messageFrame? c.action t.config.address).toList ++
      (if begins c t then [.addressRequest own] else []) ++
      (waiting? t).elim [] (Frame.answers own')) t (turn c t) := by
  have hopens := opens_react c t
  unfold turn
  generalize BusAccess.startRequired c.now (react c t) = u at hopens ⊢
  have hends := ends_finishSearch c (receive u)
  have hwaiting : waiting? u = waiting? t := by
    unfold waiting?
    rw [hopens.received]
  obtain ⟨own, hsent⟩ := hopens.offers
  have hquiet := Offers.same hends.offered (congrArg Link.outgoing hends.link)
  have hall := (hsent.trans (offers_receive u)).trans hquiet
  rw [List.append_nil, hwaiting] at hall
  exact ⟨own, u.config.address, hall⟩

/-- How bus access comes to offer a frame in the turn that it begins with `t`. -/
inductive Gives (c : Cycle) (t : Turn BusAccess) (x : Emission Frame) : Prop
  /-- The cycle has taken a message to be sent from the queue. -/
  | message (m : Message) : c.action = some (.transmit m) →
      x.item = .message x.config.address m → Gives c t x
  | request : begins c t = true → x.item = .addressRequest x.config.address → Gives c t x
  /-- A request for addresses waited, and the node has an address. -/
  | answer (f : Frame) : waiting? t = some f → f.asks = true →
      x.config.address.isAssigned = true → x.item = .addressAnswer x.config.address →
      Gives c t x

theorem gives_of_mem {x : Emission Frame} {own own' : BusAddress}
    (hid : x.item.id = .standard (.ofSender x.config.address))
    (hx : x.item ∈ (messageFrame? c.action t.config.address).toList ++
      (if begins c t then [.addressRequest own] else []) ++
      (waiting? t).elim [] (Frame.answers own')) : Gives c t x := by
  -- The sender in the frame is the address of its moment, whatever has been said of it before.
  have hown : ∀ a : BusAddress, x.item.id = .standard (.ofSender a) → a = x.config.address := by
    intro a ha
    exact (Header.mk.inj (FrameId.standard.inj (ha.symm.trans hid))).2
  rcases List.mem_append.1 hx with hx | hx
  · rcases List.mem_append.1 hx with hx | hx
    · obtain ⟨m, hm, hitem⟩ := Option.map_eq_some_iff.1 (Option.mem_toList.1 hx)
      obtain ⟨action, haction, hsends⟩ := Option.bind_eq_some_iff.1 hm
      obtain rfl : action = .transmit m := by
        cases action with
        | transmit m' => rw [Option.some.inj hsends]
        | _ => contradiction
      refine .message m haction ?_
      rw [← hown t.config.address (by rw [← hitem]; rfl), hitem]
    · split_ifs at hx with hbegins
      · have hitem := List.mem_singleton.1 hx
        refine .request hbegins ?_
        rw [← hown own (by rw [hitem]; rfl), hitem]
      · exact absurd hx List.not_mem_nil
  · rcases hwaiting : waiting? t with _ | f
    · rw [hwaiting] at hx
      exact absurd hx List.not_mem_nil
    · rw [hwaiting] at hx
      have hx : x.item ∈ f.answers own' := hx
      unfold Frame.answers at hx
      split_ifs at hx with hasks
      · have hitem := List.mem_singleton.1 hx
        obtain rfl := hown own' (by rw [hitem]; rfl)
        rw [Bool.and_eq_true] at hasks
        exact .answer f hwaiting hasks.1 hasks.2 hitem
      · exact absurd hx List.not_mem_nil

/-- A turn offers only frames that carry the address of their moment, each for one of these
    reasons. -/
theorem offers_of_turn {P : BusAddress → Prop}
    (hP : BusAddress.Covers P) (ht : t.config.Addressed P)
    (hnew : t.trace.offered = []) {x : Emission Frame} (hx : x ∈ (turn c t).trace.offered) :
    x.Signed P ∧ Gives c t x := by
  have hsigned := (signs_turn hP c (.of_silent ht hnew)).offered x hx
  obtain ⟨own, own', hoffers⟩ := exists_offers_turn c t
  have hitem : x.item ∈ (turn c t).trace.frames := List.mem_map_of_mem hx
  rw [hoffers.frames, Trace.frames, hnew, List.map_nil, List.nil_append] at hitem
  exact ⟨hsigned, gives_of_mem hsigned.id hitem⟩

end BusAccess

end RailNode
