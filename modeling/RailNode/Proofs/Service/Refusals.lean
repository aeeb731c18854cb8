import RailNode.Proofs.Service.BusAccess
import RailNode.Proofs.Service.LongAnswers
import RailNode.Proofs.Service.Refusals.Services

/-
  A service that refuses a message, or leaves that to another, ends its turn with the configuration
  and the link that it would have left without an action (`Service.alike_turn`). Most services leave
  both alone then. A negotiation may run out of time all the same (`MinimumNode.config_poll`), and
  bus access goes on with its search and with the frames that come in (`BusAccess.alike_turn`).
-/
namespace RailNode

open Turn

variable {c : Cycle} {m : Message}

/-- Two states of what the services share that differ in their queues at most. -/
structure Shared.Alike (x y : Shared) : Prop where
  config : y.config = x.config
  link : y.link = x.link

/-- Two turns of a service that differ at most in the queue and in what has been given out. -/
structure Turn.Alike {σ : Type} (t t' : Turn σ) : Prop where
  self : t'.self = t.self
  shared : t.shared.Alike t'.shared

/-! ## The minimum node -/

namespace MinimumNode

variable {t t' : Turn MinimumNode}

theorem config_pollNegotiation {now limit : Time} (h : Unmoved t t') :
    (pollNegotiation now limit t').config = (pollNegotiation now limit t).config := by
  unfold pollNegotiation cancelNegotiation
  rw [h.negotiation]
  split
  · exact h.config
  · split_ifs
    · dsimp only
      split_ifs <;> simp [h.config]
    · exact h.config

theorem pollNegotiation_of_lt {now limit : Time}
    (h : ∀ g, t.self.negotiation = some g → Time.elapsed now g.started < limit) :
    pollNegotiation now limit t = t := by
  unfold pollNegotiation
  split
  · rfl
  · exact if_neg (Nat.not_le.2 (h _ ‹_›))

end MinimumNode

/-! ## Bus access -/

namespace Turn.Alike

variable {σ : Type} {t t' : Turn σ}

theorem config (h : t.Alike t') : t'.config = t.config := h.shared.config

theorem put (h : t.Alike t') (a : Action) : (t.put a).Alike (t'.put a) :=
  ⟨h.self, h.config, h.shared.link⟩

theorem reply (h : t.Alike t') (o : Opcode) (args : List UInt8) (hargs : args.length ≤ 5) :
    (t.reply o args hargs).Alike (t'.reply o args hargs) :=
  ⟨h.self, h.config, h.shared.link⟩

theorem offer (h : t.Alike t') (f : Frame) : (t.offer f).Alike (t'.offer f) where
  self := h.self
  shared.config := h.config
  shared.link := by
    show (t'.shared.link.send? f).getD t'.shared.link = _
    rw [h.shared.link]
    rfl

theorem setSelf (h : t.Alike t') (s : σ) : ({ t with self := s } : Turn σ).Alike
    { t' with self := s } :=
  ⟨rfl, h.shared⟩

end Turn.Alike

namespace BusAccess

variable {t t' : Turn BusAccess}

theorem alike_of_refuses {o : Opcode} (h : Refuses o t t') : t.Alike t' :=
  ⟨h.self, h.config, h.link⟩

theorem heeds_handle (m : Message) (t : Turn BusAccess) :
    Heeds .busAccess m Alike t (handle m t) := by
  have hsame : t.Alike t := ⟨rfl, rfl, rfl⟩
  unfold handle
  split
  · split_ifs
    · refine .kept ((Accepts.refl t).put (Action.refuses_of_transmitted?_eq_none rfl)) ?_
      exact ⟨rfl, rfl, rfl⟩
    · exact .kept (.refl t) hsame
  · rename_i ho
    have hr : m.refuser? = some .busAccess := by rw [Message.refuser?, ho]
    split_ifs
    · unfold obeyAssignment
      split
      · refine .own hr (by decide) (.confirm ?_ _ _)
        exact .same rfl
      · exact .refused ho hr (.error _ _ (by decide))
    · exact .kept (.refl t) hsame
  · exact .kept (.refl t) hsame

theorem refrains_startSearch (now : Time) (forPeer : Bool) (t : Turn BusAccess) :
    Refrains t (startSearch now forPeer t) := by
  unfold startSearch
  split
  · exact .refl t
  · exact .same rfl

theorem refrains_startRequired (now : Time) (t : Turn BusAccess) :
    Refrains t (startRequired now t) := by
  unfold startRequired
  split_ifs
  · refine .trans ?_ (refrains_startSearch _ _ _)
    exact .same rfl
  · exact .refl t

theorem refrains_receive (t : Turn BusAccess) : Refrains t (receive t) := by
  unfold receive handleFrame
  split
  · exact .refl t
  · split
    · exact .same rfl
    · split_ifs
      · unfold handleEmpty
        dsimp only
        split_ifs <;> exact .same rfl
      · exact .same rfl
      · refine .put_other ?_ rfl
        exact .same rfl

theorem refrains_finishSearch (now window : Time) (t : Turn BusAccess) :
    Refrains t (finishSearch now window t) := by
  unfold finishSearch
  split
  · exact .refl t
  · dsimp only
    split_ifs
    · refine .reply ?_ _ _ _ (by decide)
      exact .same rfl
    · exact .same rfl

/-- The turn of the service once it has dealt with the action. -/
def poll (c : Cycle) (t : Turn BusAccess) : Turn BusAccess :=
  startRequired c.now t |> receive |> finishSearch c.now c.timing.searchWindow

theorem refrains_poll (c : Cycle) (t : Turn BusAccess) : Refrains t (poll c t) :=
  ((refrains_startRequired _ t).trans (refrains_receive _)).trans (refrains_finishSearch _ _ _)

theorem poll_of_rests (hrequired : t.self.enumeration.required = false)
    (hfinish : t.self.enumeration.finish? c.now c.timing.searchWindow = none)
    (hreceived : t.shared.link.received.items = []) : poll c t = t := by
  rw [poll, startRequired_of_not_required c.now hrequired, receive_of_nil hreceived,
    finishSearch, hfinish]

theorem alike_startSearch (now : Time) (forPeer : Bool) (h : t.Alike t') :
    (startSearch now forPeer t).Alike (startSearch now forPeer t') := by
  unfold startSearch
  rw [h.self, h.config]
  split
  · exact h
  · exact (h.setSelf _).offer _

theorem alike_startRequired (now : Time) (h : t.Alike t') :
    (startRequired now t).Alike (startRequired now t') := by
  unfold startRequired
  rw [h.self]
  split_ifs
  · exact alike_startSearch _ _ (h.setSelf _)
  · exact h

theorem alike_handleFrame (f : Frame) (h : t.Alike t') :
    (handleFrame f t).Alike (handleFrame f t') := by
  unfold handleFrame
  split
  · exact h
  · split_ifs
    · unfold handleEmpty
      dsimp only
      rw [h.self]
      have hconfig := (h.setSelf { t.self with
        enumeration := t.self.enumeration.note ‹Header›.sender }).config
      rw [hconfig]
      split_ifs
      · exact (h.setSelf _).offer _
      · exact h.setSelf _
    · exact h
    · unfold handleData
      dsimp only
      rw [h.self, h.config]
      exact (h.setSelf _).put _

theorem alike_receive (h : t.Alike t') : (receive t).Alike (receive t') := by
  unfold receive
  rw [h.shared.link]
  split
  · exact h
  · exact alike_handleFrame _ ⟨h.self, h.config, rfl⟩

theorem alike_finishSearch (now window : Time) (h : t.Alike t') :
    (finishSearch now window t).Alike (finishSearch now window t') := by
  have hadopt : ∀ (a : BusAddress) {u u' : Turn BusAccess}, u.Alike u' →
      (adopt a u).Alike (adopt a u') := by
    intro a u u' hu
    unfold adopt
    rw [hu.self, hu.config]
    refine ⟨rfl, ?_, hu.shared.link⟩
    exact congrArg (Configuration.setAddress a) hu.config
  unfold finishSearch
  rw [h.self]
  split
  · exact h
  · dsimp only
    split_ifs
    · exact (hadopt _ (h.setSelf _)).reply _ _ _
    · exact hadopt _ (h.setSelf _)

theorem alike_poll (c : Cycle) (h : t.Alike t') : (poll c t).Alike (poll c t') :=
  alike_finishSearch _ _ (alike_receive (alike_startRequired _ h))

end BusAccess

/-! ## All services -/

section Turns

variable (hm : c.action = some (.received m))

include hm

theorem MinimumNode.heeds_turn {t t' : Turn MinimumNode} (h : turn c t = .ok t') :
    ∃ u, Heeds .minimumNode m Unmoved (noteStart c t) u ∧ poll c u = .ok t' := by
  rw [turn_eq] at h
  obtain ⟨u, hu, hpoll⟩ := bind_eq_ok_iff.1 h
  rw [react, hm] at hu
  exact ⟨u, heeds_handle hu, hpoll⟩

/-- Only the end of a negotiation reaches the configuration when the service yields, as it does
    without an action. -/
theorem MinimumNode.config_of_yields {s : MinimumNode} {x y : Shared} {t u : Turn MinimumNode}
    (h : turn c { self := s, shared := x } = .ok t)
    (hquiet : turn c.quiet { self := s, shared := y } = .ok u) (hxy : x.Alike y)
    (hy : Yields .minimumNode m t.given) : u.config = t.config := by
  obtain ⟨w, hw, hpoll⟩ := heeds_turn hm h
  have hsame : Unmoved (noteStart c { self := s, shared := x }) w :=
    hw.of_yields rfl (refrains_poll hpoll).accepts hy fun hr => ⟨hr.config, by rw [hr.self]⟩
  have hfound : Unmoved (noteStart c { self := s, shared := x })
      (noteStart c { self := s, shared := y }) :=
    ⟨hxy.config, rfl⟩
  rw [config_poll hpoll, config_pollNegotiation hsame, ← config_pollNegotiation hfound]
  exact config_poll (c := c.quiet) hquiet

theorem BusAccess.heeds_turn (t : Turn BusAccess) :
    ∃ u, Heeds .busAccess m Alike t u ∧ poll c u = turn c t := by
  refine ⟨handle m t, heeds_handle m t, ?_⟩
  rw [turn, react, hm]
  rfl

theorem VariableAccess.heeds_turn {t t' : Turn VariableAccess} (h : turn c t = .ok t') :
    ∃ u, Heeds .nodeVariables m Keeps t u ∧ pollListing c u = .ok t' := by
  obtain ⟨u, hu, hpoll⟩ := turn_eq_ok_iff.1 h
  rw [prepare, Cycle.received?_eq hm] at hu
  exact ⟨u, heeds_handle hu, hpoll⟩

theorem Teaching.heeds_turn {t t' : Turn Teaching} (h : turn c t = .ok t') :
    ∃ u, Heeds .teaching m Keeps t u ∧ pollListing c u = t' := by
  obtain ⟨u, hu, hpoll⟩ := turn_eq_ok_iff.1 h
  rw [prepare, Cycle.received?_eq hm] at hu
  exact ⟨u, heeds_handle hu, hpoll⟩

namespace Service

variable {s : Service} {x y : Shared} {t u : Turn Service}

/-- What a service refuses it explains, and no other service refuses it. -/
theorem answers_turn (hs : s.HasFragments) (h : turn c { self := s, shared := x } = .ok t) :
    Answers s.id m t.given := by
  cases s with
  | minimumNode s =>
    obtain ⟨v, hv, rfl⟩ := map_eq_ok_iff.1 h
    obtain ⟨w, hw, hpoll⟩ := MinimumNode.heeds_turn hm hv
    exact hw.answers rfl (MinimumNode.refrains_poll hpoll).accepts
  | busAccess s =>
    rw [← Except.ok.inj h]
    obtain ⟨w, hw, hpoll⟩ := BusAccess.heeds_turn hm { self := s, shared := x }
    exact hw.answers rfl (hpoll ▸ (BusAccess.refrains_poll c w).accepts)
  | nodeVariables s =>
    obtain ⟨v, hv, rfl⟩ := map_eq_ok_iff.1 h
    obtain ⟨w, hw, hpoll⟩ := VariableAccess.heeds_turn hm hv
    exact hw.answers rfl (VariableAccess.refrains_pollListing hpoll).accepts
  | teaching s =>
    obtain ⟨v, hv, rfl⟩ := map_eq_ok_iff.1 h
    obtain ⟨w, hw, rfl⟩ := Teaching.heeds_turn hm hv
    exact hw.answers rfl (Teaching.refrains_pollListing c w).accepts
  | consumer s =>
    rw [← Except.ok.inj h]
    have hrefrains := EventConsumer.refrains_turn c { self := s, shared := x }
    exact (hrefrains.map consumer).accepts.answers rfl
  | producer s =>
    rw [← Except.ok.inj h]
    exact (Accepts.refl _).answers rfl
  | acknowledge s =>
    rw [← Except.ok.inj h]
    exact (EventAcknowledge.heeds_turn hm _).answers rfl (.refl _)
  | longMessage s =>
    rw [← Except.ok.inj h]
    have hrefrains := LongMessage.refrains_turn (t := { self := s, shared := x }) c hs
    exact (hrefrains.map longMessage).accepts.answers rfl

/-- A service that leaves the configuration without an action, leaves it when it yields. -/
theorem config_of_yields (hminimum : s.id ≠ .minimumNode) (hbus : s.id ≠ .busAccess)
    (h : turn c { self := s, shared := x } = .ok t) (hy : Yields s.id m t.given) :
    t.config = x.config := by
  cases s with
  | minimumNode s => exact absurd rfl hminimum
  | busAccess s => exact absurd rfl hbus
  | nodeVariables s =>
    obtain ⟨v, hv, rfl⟩ := map_eq_ok_iff.1 h
    obtain ⟨w, hw, hpoll⟩ := VariableAccess.heeds_turn hm hv
    exact hw.keeps rfl (VariableAccess.refrains_pollListing hpoll).accepts
      (VariableAccess.config_pollListing hpoll) hy
  | teaching s =>
    obtain ⟨v, hv, rfl⟩ := map_eq_ok_iff.1 h
    obtain ⟨w, hw, rfl⟩ := Teaching.heeds_turn hm hv
    exact hw.keeps rfl (Teaching.refrains_pollListing c w).accepts
      (Teaching.config_pollListing c w) hy
  | consumer s =>
    rw [← Except.ok.inj h]
    exact EventConsumer.config_turn c _
  | producer s =>
    rw [← Except.ok.inj h]
    rfl
  | acknowledge s =>
    rw [← Except.ok.inj h] at hy ⊢
    exact (EventAcknowledge.heeds_turn hm _).keeps rfl (.refl _) rfl hy
  | longMessage s =>
    rw [← Except.ok.inj h]
    exact LongMessage.config_turn c _

omit hm in
/-- Without an action the negotiations and the search for an address are all that reaches the
    configuration. -/
theorem config_turn_quiet (hminimum : s.id ≠ .minimumNode) (hbus : s.id ≠ .busAccess)
    (h : turn c.quiet { self := s, shared := x } = .ok t) : t.config = x.config := by
  cases s with
  | minimumNode s => exact absurd rfl hminimum
  | busAccess s => exact absurd rfl hbus
  | nodeVariables s =>
    obtain ⟨v, hv, rfl⟩ := map_eq_ok_iff.1 h
    exact VariableAccess.config_pollListing hv
  | teaching s =>
    rw [← Except.ok.inj h]
    exact Teaching.config_pollListing c.quiet { self := s, shared := x }
  | consumer s =>
    rw [← Except.ok.inj h]
    exact EventConsumer.config_turn _ _
  | producer s =>
    rw [← Except.ok.inj h]
    rfl
  | acknowledge s =>
    rw [← Except.ok.inj h]
    rfl
  | longMessage s =>
    rw [← Except.ok.inj h]
    exact LongMessage.config_turn _ _

/-- A service that has refused the message, or leaves that to another, leaves what it would have
    left without an action. -/
theorem alike_turn (h : turn c { self := s, shared := x } = .ok t)
    (hquiet : turn c.quiet { self := s, shared := y } = .ok u) (hxy : x.Alike y)
    (hy : Yields s.id m t.given) : t.shared.Alike u.shared := by
  by_cases hbus : s.id = .busAccess
  · obtain ⟨s, rfl⟩ := BusAccess.exists_busAccess hbus
    rw [← Except.ok.inj h] at hy ⊢
    rw [← Except.ok.inj hquiet]
    obtain ⟨w, hw, hpoll⟩ := BusAccess.heeds_turn hm { self := s, shared := x }
    have hsame := hw.of_yields rfl (hpoll ▸ (BusAccess.refrains_poll c w).accepts) hy
      BusAccess.alike_of_refuses
    have hfound : w.Alike { self := s, shared := y } :=
      ⟨hsame.self.symm, hxy.config.trans hsame.config.symm, hxy.link.trans hsame.shared.link.symm⟩
    have hleft := BusAccess.alike_poll c hfound
    rw [hpoll] at hleft
    exact hleft.shared
  · refine ⟨?_, ?_⟩
    · cases s with
      | minimumNode s =>
        obtain ⟨v, hv, rfl⟩ := map_eq_ok_iff.1 h
        obtain ⟨w, hw, rfl⟩ := map_eq_ok_iff.1 hquiet
        exact MinimumNode.config_of_yields hm hv hw hxy hy
      | _ =>
        show u.config = t.config
        rw [config_turn_quiet (by simp only [id]; decide) hbus hquiet,
          config_of_yields hm (by simp only [id]; decide) hbus h hy]
        exact hxy.config
    · rw [(speaks_turn h hbus).link, (speaks_turn hquiet hbus).link]
      exact hxy.link

/-- Nothing of the service is due in this cycle: a negotiation has time left, and no search for an
    address begins or ends. -/
def Rests (c : Cycle) : Service → Prop
  | minimumNode s => ∀ g, s.negotiation = some g →
      Time.elapsed c.now g.started < c.timing.negotiationLimit
  | busAccess s => s.enumeration.required = false ∧
      s.enumeration.finish? c.now c.timing.searchWindow = none
  | _ => True

omit hm in
/-- A service of which nothing is due leaves all without an action, unless a frame comes in. -/
theorem alike_of_rests (hs : s.Rests c) (hx : x.link.received.items = [])
    (h : turn c.quiet { self := s, shared := x } = .ok t) : x.Alike t.shared := by
  by_cases hbus : s.id = .busAccess
  · obtain ⟨s, rfl⟩ := BusAccess.exists_busAccess hbus
    rw [← Except.ok.inj h]
    show x.Alike (BusAccess.poll c { self := s, shared := x }).shared
    rw [BusAccess.poll_of_rests hs.1 hs.2 hx]
    exact ⟨rfl, rfl⟩
  · refine ⟨?_, (speaks_turn h hbus).link⟩
    cases s with
    | minimumNode s =>
      obtain ⟨v, hv, rfl⟩ := map_eq_ok_iff.1 h
      have hkept := MinimumNode.pollNegotiation_of_lt
        (t := MinimumNode.noteStart c { self := s, shared := x }) hs
      exact (MinimumNode.config_poll (c := c.quiet) hv).trans (congrArg Turn.config hkept)
    | _ => exact config_turn_quiet (by simp only [id]; decide) hbus h

end Service

end Turns

end RailNode
