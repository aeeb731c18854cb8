import RailNode.Proofs.Service.BusAccess

/-
  The answers to requests for addresses. A node that has an address answers a request with one empty
  frame of its own, and a node without one stays silent (`offers_receive`). A turn in which no
  search goes on offers nothing else but the message that was to be sent (`offers_turn_of_idle`).
-/
namespace RailNode

namespace Frame

/-- The frame asks every node for its address. -/
def asks (f : Frame) : Bool := f.header?.isSome && f.data.isEmpty && f.remote

/-- What a node with this address answers when the frame comes in. -/
def answers (own : BusAddress) (f : Frame) : List Frame :=
  if f.asks && own.isAssigned then [.addressAnswer own] else []

end Frame

namespace BusAccess

open Turn

variable {c : Cycle} {t : Turn BusAccess}

/-! ## Frames -/

theorem offers_handleEmpty (remote : Bool) (sender : BusAddress) (t : Turn BusAccess) :
    Offers (if remote && t.config.address.isAssigned then [.addressAnswer t.config.address] else [])
      t (handleEmpty remote sender t) := by
  have heq : handleEmpty remote sender t =
      if remote && t.config.address.isAssigned then
        { t with self.enumeration := t.self.enumeration.note sender }.offer
          (.addressAnswer t.config.address)
      else { t with self.enumeration := t.self.enumeration.note sender } := rfl
  rw [heq]
  split_ifs
  · have hoffers := offers_offer (.addressAnswer t.config.address) t
    exact ⟨hoffers.frames, hoffers.outgoing⟩
  · exact .same rfl rfl

theorem offers_handleFrame (f : Frame) (t : Turn BusAccess) :
    Offers (f.answers t.config.address) t (handleFrame f t) := by
  unfold handleFrame Frame.answers Frame.asks
  rcases f.header? with _ | h
  · exact .same rfl rfl
  · rcases f.data.isEmpty with _ | _
    · have hsame : Offers [] t (if f.remote then t else handleData h.sender f.data t) := by
        split_ifs
        · exact .same rfl rfl
        · exact .same rfl rfl
      exact hsame
    · exact offers_handleEmpty f.remote h.sender t

/-- What waits is answered with the address that the node has by then. -/
theorem offers_receive (t : Turn BusAccess) :
    Offers ((waiting? t).elim [] (Frame.answers t.config.address)) t (receive t) := by
  rcases hitems : t.shared.link.received.items with _ | ⟨f, rest⟩
  · rw [receive_of_nil hitems, waiting?, hitems]
    exact .same rfl rfl
  · obtain ⟨link, hreceive, _, houtgoing⟩ := receive_of_cons hitems
    have hoffers := offers_handleFrame f { t with shared.link := link }
    rw [hreceive, waiting?, hitems]
    refine ⟨hoffers.frames, ?_⟩
    rw [hoffers.outgoing, ← houtgoing]
    rfl

/-! ## Turns without a search -/

/-- No search goes on when the turn begins, and none begins in it. -/
structure Idle (c : Cycle) (t : Turn BusAccess) : Prop where
  search : t.self.enumeration.search = none
  asked : t.self.enumeration.asked? c.action = none

theorem finishSearch_of_none {now window : Time} (h : t.self.enumeration.search = none) :
    finishSearch now window t = t := by
  unfold finishSearch Enumeration.finish?
  rw [h]

theorem Idle.search_opened (h : Idle c t) :
    (t.self.enumeration.opened c.now c.action).search = none := by
  rw [Enumeration.opened, h.search, h.asked]
  rfl

theorem Idle.begins (h : Idle c t) : begins c t = false := by
  rw [BusAccess.begins, h.asked, Option.isSome_none, Bool.and_false]

/-- A turn in which no search goes on offers the message that was to be sent and the answer to what
    has come in, with the address that the node has at the end of the turn. -/
theorem offers_turn_of_idle (h : Idle c t) :
    Offers ((messageFrame? c.action t.config.address).toList ++
      (waiting? t).elim [] (Frame.answers (turn c t).config.address)) t (turn c t) := by
  have hopens := opens_react c t
  unfold turn
  generalize BusAccess.startRequired c.now (react c t) = u at hopens ⊢
  have hnone : (receive u).self.enumeration.search = none := by
    rw [(takes_receive u).enumeration, hopens.enumeration]
    rcases waiting? u with _ | f
    · exact h.search_opened
    · show ((t.self.enumeration.opened c.now c.action).afterFrame _ f).search = none
      rw [Enumeration.afterFrame, h.search_opened]
      rfl
  have hwaiting : waiting? u = waiting? t := by
    unfold waiting?
    rw [hopens.received]
  obtain ⟨own, hsent⟩ := hopens.offers
  rw [h.begins, if_neg Bool.false_ne_true, List.append_nil] at hsent
  rw [finishSearch_of_none hnone, config_receive, ← hwaiting]
  exact hsent.trans (offers_receive u)

end BusAccess

end RailNode
