import RailNode.Proofs.Node.Stops
import RailNode.Proofs.Service.Addressing

/-
  The frames of a node and its bus address, from one turn of a cycle to the next. Every stop finds
  the address in memory to be the stored one, and the frames that it offers to the link carry that
  address (`Stop.signed_of_offered`). Nothing else comes into the link (`mem_outgoing_cycle`).
-/
namespace RailNode

open RailNode.Configuration

/-- No service takes an address that a node may not claim. -/
theorem Service.addressed_turn {P : BusAddress → Prop} {c : Cycle} {s : Service} {shared : Shared}
    {t : Turn Service} (hP : BusAddress.Covers P)
    (hs : shared.config.Addressed P) (h : turn c { self := s, shared } = .ok t) :
    t.config.Addressed P := by
  by_cases hid : s.id = .busAccess
  · obtain ⟨b, rfl⟩ := BusAccess.exists_busAccess hid
    rw [← Except.ok.inj h]
    exact (BusAccess.signs_turn hP c (t := { self := b, shared }) (.of_silent hs rfl)).addressed
  · have hch := ((edits_turn h).mono (Node.parts_subset_partsBesideBus hid)).changesOnly
    exact hs.of_changesOnly hch (by decide)

/-- Whatever a service offers to the link in a turn that comes to its end goes into the link, as
    far as there is room. -/
theorem Service.outgoing_turn {c : Cycle} {s : Service} {shared : Shared} {t : Turn Service}
    (h : turn c { self := s, shared } = .ok t) :
    t.shared.link.outgoing = shared.link.outgoing.sendAll t.trace.frames := by
  by_cases hid : s.id = .busAccess
  · obtain ⟨b, rfl⟩ := BusAccess.exists_busAccess hid
    rw [← Except.ok.inj h]
    obtain ⟨own, own', hoffers⟩ :=
      BusAccess.exists_offers_turn c ({ self := b, shared } : Turn BusAccess)
    have hframes := hoffers.frames
    rw [show ({ self := b, shared } : Turn BusAccess).trace.frames = [] from rfl,
      List.nil_append] at hframes
    show (BusAccess.turn c { self := b, shared }).shared.link.outgoing =
      shared.link.outgoing.sendAll (BusAccess.turn c { self := b, shared }).trace.frames
    rw [hframes]
    exact hoffers.outgoing
  · have hspeaks := speaks_turn h hid
    rw [hspeaks.link, Trace.frames, hspeaks.offered]
    rfl

namespace Node

variable {P : BusAddress → Prop} {n : Node} {now : Time} {c : Cycle} {position : Nat}
  {shared : Shared} {es : List Entry} {r : List (Entry × EntryTrace) × Shared} {s : Stop}

/-! ## Turns -/

theorem addressed_turns (hP : BusAddress.Covers P)
    (hs : shared.config.Addressed P) (h : turns c position shared es = .ok r) :
    r.2.config.Addressed P := by
  induction es generalizing position shared r with
  | nil =>
    rw [← Except.ok.inj h]
    exact hs
  | cons e es ih =>
    obtain ⟨e', trace, between, rest, last, he, hrest, rfl⟩ := turns_cons_eq_ok h
    obtain ⟨t, ht, _, _, hconfig⟩ := entryTurn_eq_ok he
    have hbetween := Service.addressed_turn hP hs ht
    rw [← hconfig] at hbetween
    have hlater := ih hbetween hrest
    exact hlater

theorem Reaches.addressed (hP : BusAddress.Covers P)
    (hn : n.config.Addressed P) (h : n.Reaches now s) : s.found.config.Addressed P := by
  obtain ⟨first, after, r, _, _, hfirst⟩ := h
  have hfound := addressed_turns hP (show n.opening.config.Addressed P from hn) hfirst
  exact hfound

theorem outgoing_turns (h : turns c position shared es = .ok r) :
    r.2.link.outgoing =
      shared.link.outgoing.sendAll ((r.1.map (·.2)).flatMap EntryTrace.frames) := by
  induction es generalizing position shared r with
  | nil =>
    rw [← Except.ok.inj h]
    rfl
  | cons e es ih =>
    obtain ⟨e', trace, between, rest, last, he, hrest, rfl⟩ := turns_cons_eq_ok h
    obtain ⟨t, ht, u, hu, -, rfl, rfl⟩ := entryTurn_eq_ok_iff.1 he
    have hreporter := Reporter.speaks_turn c t.self position
      { self := e.reporter, shared := t.shared }
    rw [hu] at hreporter
    have hfirst : u.shared.link.outgoing =
        shared.link.outgoing.sendAll (EntryTrace.frames ⟨t.trace, u.trace⟩) := by
      have hquiet : u.trace.frames = [] := by
        rw [Trace.frames, hreporter.offered]
        rfl
      rw [EntryTrace.frames, hquiet, List.append_nil, hreporter.link]
      exact Service.outgoing_turn ht
    have hlater := ih hrest
    rw [hlater, hfirst, ← Channel.sendAll_append, List.map_cons, List.flatMap_cons]

/-! ## Stops -/

/-- The frames that an entry has offered, with the configurations at these moments. -/
def EntryTrace.offered (t : EntryTrace) : List (Emission Frame) :=
  t.service.offered ++ t.reporter.offered

theorem EntryTrace.frames_eq (t : EntryTrace) : t.frames = t.offered.map (·.item) := by
  rw [offered, List.map_append]
  rfl

/-- How a stop comes to offer a frame: bus access has a reason to, or the node is reset and gives
    its number up. -/
inductive Stop.Gives (c : Cycle) (s : Stop) (x : Emission Frame) : Prop
  | busAccess (b : BusAccess) : s.entry.service = .busAccess b →
      BusAccess.Gives c { self := b, shared := s.found } x → Gives c s x
  | release : s.Resets c → x = ⟨s.found.config.release, s.found.config⟩ → Gives c s x

/-- Whatever a stop offers to the link carries the address of its moment. -/
theorem Stop.signed_of_offered (hP : BusAddress.Covers P)
    (hs : s.found.config.Addressed P) {x : Emission Frame} (hx : x ∈ (s.trace c).offered) :
    x.Signed P ∧ s.Gives c x := by
  rw [EntryTrace.offered, offered_reporter, List.append_nil] at hx
  by_cases hid : s.entry.service.id = .busAccess
  · obtain ⟨b, hb⟩ := BusAccess.exists_busAccess hid
    have hturn : s.turn c =
        .ok ((BusAccess.turn c { self := b, shared := s.found }).map Service.busAccess) := by
      unfold turn Service.turn
      rw [hb]
      rfl
    have hx : x ∈ (told (s.turn c)).offered := hx
    rw [hturn] at hx
    obtain ⟨hsigned, hgives⟩ := BusAccess.offers_of_turn
      (t := { self := b, shared := s.found }) hP hs rfl hx
    exact ⟨hsigned, .busAccess b hb hgives⟩
  · obtain ⟨hresets, rfl⟩ := (offered_service hid x).1 hx
    exact ⟨⟨hs, rfl⟩, .release hresets rfl⟩

/-! ## The link -/

/-- The next cycle offers the frame to the link in one of its stops. -/
def Offers (now : Time) (n : Node) (f : Frame) : Prop :=
  ∃ s x, n.Reaches now s ∧ x ∈ (s.trace (n.facts now)).offered ∧ x.item = f

/-- What the first entries have left in the link was there before or has been offered. -/
theorem mem_outgoing_turns {first after : List Entry} (hsplit : n.entries = first ++ after)
    (h : turns (n.facts now) 1 n.opening first = .ok r) {f : Frame}
    (hf : f ∈ r.2.link.outgoing.items) : f ∈ n.link.outgoing.items ∨ n.Offers now f := by
  obtain ⟨kept, hkept, hitems⟩ := Channel.items_sendAll n.link.outgoing
    ((r.1.map (·.2)).flatMap EntryTrace.frames)
  rw [outgoing_turns h, show n.opening.link = n.link from rfl, hitems] at hf
  rcases List.mem_append.1 hf with hf | hf
  · exact Or.inl hf
  · obtain ⟨trace, htrace, hf⟩ := List.mem_flatMap.1 (hkept.subset hf)
    obtain ⟨s, hs, rfl⟩ := exists_reaches_of_turns hsplit h htrace
    rw [EntryTrace.frames_eq] at hf
    obtain ⟨x, hx, rfl⟩ := List.mem_map.1 hf
    exact Or.inr ⟨s, x, hs, hx, rfl⟩

/-- What a cycle that comes to its end has left in the link was there before or has been offered. -/
theorem mem_outgoing_cycle {o : Outcome} (h : n.cycle now = .ok o) {f : Frame}
    (hf : f ∈ o.node.link.outgoing.items) : f ∈ n.link.outgoing.items ∨ n.Offers now f := by
  obtain ⟨r, hr, rfl⟩ := cycle_eq_ok h
  exact mem_outgoing_turns (List.append_nil _).symm hr hf

/-- The same goes for a cycle that ends in a restart. -/
theorem mem_outgoing_restart {left : Shared} {trace : Trace}
    (h : n.cycle now = .error (.restart left trace)) {f : Frame}
    (hf : f ∈ left.link.outgoing.items) : f ∈ n.link.outgoing.items ∨ n.Offers now f := by
  obtain ⟨s, hs, hturn⟩ := exists_reaches_of_restart h
  have hfound : ∀ {f}, f ∈ s.found.link.outgoing.items →
      f ∈ n.link.outgoing.items ∨ n.Offers now f := by
    obtain ⟨first, after, r, hsplit, _, hfirst⟩ := hs
    intro f hf
    exact mem_outgoing_turns hsplit hfirst hf
  rcases s.restart_cases hturn with ⟨_, rfl, _⟩ | ⟨_, rfl, rfl⟩
  · exact hfound hf
  · have hsent : s.found.released.link.outgoing =
        s.found.link.outgoing.sendAll [s.found.config.release] :=
      (BusAccess.offers_offer s.found.config.release { self := {}, shared := s.found }).outgoing
    obtain ⟨kept, hkept, hitems⟩ := Channel.items_sendAll s.found.link.outgoing
      [s.found.config.release]
    rw [hsent, hitems] at hf
    rcases List.mem_append.1 hf with hf | hf
    · exact hfound hf
    · refine Or.inr ⟨s, ⟨s.found.config.release, s.found.config⟩, hs, ?_, ?_⟩
      · have htold : (s.trace (n.facts now)).service = s.found.lastWord := congrArg told hturn
        rw [EntryTrace.offered, htold]
        exact List.mem_append_left _ (List.mem_singleton_self _)
      · exact (List.mem_singleton.1 (hkept.subset hf)).symm

end Node

end RailNode
