import RailNode.Proofs.Pacing
import RailNode.Proofs.Service.Listings.Reporter
import RailNode.Proofs.Service.Refusals

/-
  What a complete request for a diagnostic value makes a service and its reporter queue. The only
  service that answers such a request is the one that every node has, and only if there is no
  service with the index (`Service.filter_turn`). A reporter answers if the index is 0 or its
  position (`Reporter.answers`), and goes on with a long answer that an earlier request has started
  (`Reporter.filter_turn`). Nobody else responds to a command in such a cycle.
-/
namespace RailNode

open Turn

/-- The message asks the node with this number for one diagnostic value of the service with an
    index, or of all services. -/
structure Message.AsksFor (number : UInt16) (index code : UInt8) (m : Message) : Prop where
  opcode : m.opcode? = some .rdgn
  nodeNumber : m.nodeNumber? = some number
  index_eq : m.byte? 3 = some index
  code_eq : m.byte? 4 = some code
  code_ne : code ≠ 0

/-- Whether a message is to be sent that reports a diagnostic value or responds to a command. -/
def Action.diagnoses (a : Action) : Bool := a.sends .dgn || a.sends .grsp

/-- The report of a diagnostic value. -/
def diagnosis (number : UInt16) (position code : Nat) (value : UInt16) : Action :=
  .transmit (.about .dgn number
    [UInt8.ofNat position, UInt8.ofNat code, Word.high value, Word.low value])

/-- The response to a request for a diagnostic value that there is not. -/
def rejection (number : UInt16) (service : ServiceId) (result : ResponseCode) : Action :=
  .transmit (.about .grsp number [Opcode.rdgn.byte, service.byte, result.byte])

theorem diagnoses_diagnosis (number : UInt16) (position code : Nat) (value : UInt16) :
    (diagnosis number position code value).diagnoses = true :=
  Bool.or_eq_true_iff.2 (Or.inl (Action.sends_about .dgn number _))

theorem diagnoses_rejection (number : UInt16) (service : ServiceId) (result : ResponseCode) :
    (rejection number service result).diagnoses = true :=
  Bool.or_eq_true_iff.2 (Or.inr (Action.sends_about .grsp number _))

/-- Who does not report diagnostic values and responds to no command queues no diagnosis. -/
theorem Turn.Refrains.filter_diagnoses {σ τ : Type} {t : Turn σ} {u : Turn τ} (h : Refrains t u)
    (hdgn : ∀ a ∈ u.given, a.sends .dgn = false) :
    u.given.filter Action.diagnoses = t.given.filter Action.diagnoses := by
  obtain ⟨as, has, hall⟩ := h
  rw [has] at hdgn ⊢
  have hnone : as.filter Action.diagnoses = [] := by
    refine List.filter_eq_nil_iff.2 fun a ha => ?_
    rw [Action.diagnoses, hdgn a (List.mem_append_right _ ha), hall a ha .grsp (by decide)]
    decide
  rw [List.filter_append, hnone, List.append_nil]

variable {c : Cycle} {m : Message} {index code : UInt8} {position : Nat} {x : Shared}

/-! ## Services -/

theorem EventAcknowledge.refrains_turn (c : Cycle) (t : Turn EventAcknowledge) :
    Refrains t (turn c t) := by
  unfold turn
  split
  · exact .refl t
  · split_ifs
    · unfold obeyMode
      split
      · exact .same rfl
      · exact .same rfl
      · exact .refl t
    · unfold acknowledge
      split_ifs
      · split
        · exact .refl t
        · refine .reply ?_ _ _ _ (by decide)
          exact .same rfl
      · exact .refl t

namespace Service

variable {s : Service} {t : Turn Service}

/-- A request for diagnostics is no concern of the other services. -/
theorem refrains_turn (hm : c.action = some (.received m)) (ho : m.opcode? = some .rdgn)
    (hid : s.id ≠ .minimumNode) (hs : s.HasFragments)
    (h : turn c { self := s, shared := x } = .ok t) : Refrains { self := s, shared := x } t := by
  cases s with
  | minimumNode s => exact absurd rfl hid
  | busAccess s =>
    rw [← Except.ok.inj h]
    have hreact : ∀ u : Turn BusAccess, BusAccess.react c u = u := fun u => by
      simp [BusAccess.react, hm, BusAccess.handle, ho]
    have hturn : BusAccess.turn c { self := s, shared := x } =
        BusAccess.poll c { self := s, shared := x } := by
      rw [BusAccess.turn, hreact]
      rfl
    have hpoll := BusAccess.refrains_poll c { self := s, shared := x }
    rw [← hturn] at hpoll
    exact hpoll.map busAccess
  | nodeVariables s =>
    obtain ⟨v, hv, rfl⟩ := map_eq_ok_iff.1 h
    obtain ⟨u, hu, hpoll⟩ := VariableAccess.turn_eq_ok_iff.1 hv
    simp [VariableAccess.prepare, Cycle.received?_eq hm, VariableAccess.handle, ho] at hu
    subst hu
    exact (VariableAccess.refrains_pollListing hpoll).map nodeVariables
  | teaching s =>
    obtain ⟨v, hv, rfl⟩ := map_eq_ok_iff.1 h
    obtain ⟨u, hu, rfl⟩ := Teaching.turn_eq_ok_iff.1 hv
    simp [Teaching.prepare, Cycle.received?_eq hm, Teaching.handle, Teaching.handleNamed, ho] at hu
    subst hu
    exact (Teaching.refrains_pollListing c _).map teaching
  | consumer s =>
    rw [← Except.ok.inj h]
    exact (EventConsumer.refrains_turn c _).map consumer
  | producer s =>
    rw [← Except.ok.inj h]
    exact .refl _
  | acknowledge s =>
    rw [← Except.ok.inj h]
    exact (EventAcknowledge.refrains_turn c _).map acknowledge
  | longMessage s =>
    rw [← Except.ok.inj h]
    exact (LongMessage.refrains_turn (t := { self := s, shared := x }) c hs).map longMessage

theorem sends_dgn_turn (hs : s.HasFragments) (h : turn c { self := s, shared := x } = .ok t) :
    ∀ a ∈ t.given, a.sends .dgn = false := by
  obtain ⟨as, has, hwithin⟩ := queues_turn h
  have hgiven : t.given = as := has.given
  have hreply : Opcode.dgn ∉ s.vocabulary ++ Opcode.responses :=
    reply_notMem (a := .diagnostics s.id) nofun nofun hs
  rw [hgiven]
  exact fun a ha => Bool.eq_false_iff.2 fun hsends => hreply (hwithin a ha _ hsends)

end Service

namespace MinimumNode

variable {t t' : Turn MinimumNode}

theorem given_answerDiagnostics (hindex : m.byte? 3 = some index) :
    (answerDiagnostics c m t).given = t.given ++
      if c.services.length < index.toNat then
        [rejection t.config.nodeNumber .minimumNode .invalidService]
      else [] := by
  unfold answerDiagnostics
  rw [hindex]
  dsimp only
  split_ifs
  · exact given_reply _ _ t _
  · exact (List.append_nil _).symm

/-- The service answers first, and does not respond to anything in the rest of its turn. -/
theorem exists_refrains_turn (hm : c.action = some (.received m))
    (hx : m.AsksFor t.config.nodeNumber index code) (h : turn c t = .ok t') :
    ∃ u : Turn MinimumNode, Refrains u t' ∧ u.given = t.given ++
      if c.services.length < index.toNat then
        [rejection t.config.nodeNumber .minimumNode .invalidService]
      else [] := by
  rw [turn_eq] at h
  obtain ⟨u, hu, hpoll⟩ := bind_eq_ok_iff.1 h
  have hnamed : (noteStart c t).isNamedBy m = true := beq_iff_eq.2 hx.nodeNumber
  have hreact : react c (noteStart c t) = .ok (answerDiagnostics c m (noteStart c t)) := by
    unfold react handle
    rw [hm]
    dsimp only
    rw [hx.opcode]
    dsimp only
    rw [if_pos hnamed]
    rfl
  obtain rfl := Except.ok.inj (hreact.symm.trans hu)
  exact ⟨_, refrains_poll hpoll, given_answerDiagnostics hx.index_eq⟩

end MinimumNode

/-- Only the service that every node has answers itself, if there is no service with the index. -/
theorem Service.filter_turn {s : Service} {t : Turn Service}
    (hm : c.action = some (.received m)) (hx : m.AsksFor x.config.nodeNumber index code)
    (hs : s.HasFragments) (h : turn c { self := s, shared := x } = .ok t) :
    t.given.filter Action.diagnoses =
      if s.id = .minimumNode ∧ c.services.length < index.toNat then
        [rejection x.config.nodeNumber .minimumNode .invalidService]
      else [] := by
  have hdgn := sends_dgn_turn hs h
  by_cases hid : s.id = .minimumNode
  · obtain ⟨s, rfl⟩ := MinimumNode.exists_minimumNode hid
    obtain ⟨v, hv, rfl⟩ := map_eq_ok_iff.1 h
    obtain ⟨u, hrefrains, hgiven⟩ := MinimumNode.exists_refrains_turn
      (t := { self := s, shared := x }) hm hx hv
    have hfilter := (hrefrains.map minimumNode).filter_diagnoses hdgn
    rw [hfilter, hgiven]
    split_ifs with hless hall hall
    · exact List.filter_cons_of_pos (diagnoses_rejection _ _ _)
    · exact absurd ⟨hid, hless⟩ hall
    · exact absurd hall.2 hless
    · rfl
  · rw [if_neg fun hall => hid hall.1]
    exact (refrains_turn hm hx.opcode hid hs h).filter_diagnoses hdgn

/-! ## Reporters -/

namespace Reporter

variable {service : Service} {t : Turn Reporter}

/-- What the reporter of a service at a position answers, if the service has this value. -/
def answers (number : UInt16) (service : Service) (position index code : Nat) (value : UInt16) :
    List Action :=
  if index = 0 ∨ index = position then
    if code ≤ service.diagnosticCount then [diagnosis number position code value]
    else if index = 0 then []
    else [rejection number service.id .invalidDiagnostic]
  else []

theorem diagnoses_of_mem_answers {number : UInt16} {index code : Nat} {value : UInt16}
    {a : Action} (h : a ∈ answers number service position index code value) :
    a.diagnoses = true := by
  unfold answers at h
  split_ifs at h
  · exact List.mem_singleton.1 h ▸ diagnoses_diagnosis _ _ _ _
  · contradiction
  · exact List.mem_singleton.1 h ▸ diagnoses_rejection _ _ _
  · contradiction

theorem given_answer {index code : Nat} (hcode : code ≠ 0) :
    (answer c service position index code t).given = t.given ++
      answers t.config.nodeNumber service position index code
        ((service.diagnostic? c t.shared code).getD 0) := by
  unfold answer answers
  by_cases hindex : index = 0 ∨ index = position
  · rw [if_neg (by omega), if_neg hcode, if_pos hindex]
    split_ifs
    · exact given_reply _ _ t _
    · exact (List.append_nil _).symm
    · exact given_reply _ _ t _
  · rw [if_pos (by omega), if_neg hindex, List.append_nil]

theorem listing_answer {index code : Nat} (hcode : code ≠ 0) :
    (answer c service position index code t).self.listing = t.self.listing := by
  rw [self_answer c t fun h => hcode h.2.1]

/-- What is queued of a long answer that is going on. -/
theorem given_pollListing (c : Cycle) (service : Service) (position : Nat) (t : Turn Reporter) :
    ∃ value, (pollListing c service position t).given = t.given ++
      (Series.pollLeft c.now c.timing.replyGap t.self.listing).1.toList.map fun k =>
        diagnosis t.config.nodeNumber position k value := by
  unfold pollListing
  rcases t.self.listing with _ | left
  · exact ⟨0, (List.append_nil _).symm⟩
  · rw [Series.pollLeft]
    dsimp only
    rcases left.poll c.now c.timing.replyGap with ⟨_ | k, rest⟩
    · exact ⟨0, (List.append_nil _).symm⟩
    · exact ⟨_, given_reply _ _ _ _⟩

/-- The reporter answers, and then goes on with the long answer that it has been giving. -/
theorem given_turn (service : Service) (position : Nat) (hm : c.action = some (.received m))
    (hx : m.AsksFor t.config.nodeNumber index code) :
    ∃ value, (turn c service position t).given = t.given ++
      (answers t.config.nodeNumber service position index.toNat code.toNat
          ((service.diagnostic? c t.shared code.toNat).getD 0) ++
        (Series.pollLeft c.now c.timing.replyGap t.self.listing).1.toList.map fun k =>
          diagnosis t.config.nodeNumber position k value) := by
  have hcode : code.toNat ≠ 0 := fun hzero => hx.code_ne (UInt8.toNat_inj.1 hzero)
  have hprepare : prepare c service position t =
      answer c service position index.toNat code.toNat t := by
    have hnamed : t.isNamedBy m = true := beq_iff_eq.2 hx.nodeNumber
    rw [prepare, Cycle.received?_eq hm, Option.elim_some, handle, if_pos ⟨hx.opcode, hnamed⟩,
      hx.index_eq, hx.code_eq]
  have hconfig : (answer c service position index.toNat code.toNat t).config = t.config :=
    config_answer _ _ _ _ _ t
  rw [turn_eq, hprepare]
  obtain ⟨value, hgiven⟩ := given_pollListing c service position
    (answer c service position index.toNat code.toNat t)
  refine ⟨value, ?_⟩
  rw [hgiven, given_answer hcode, listing_answer hcode, hconfig, List.append_assoc]

/-- All that the reporter queues are reports and the refusal of one. -/
theorem filter_turn (service : Service) (position : Nat) (hm : c.action = some (.received m))
    (hx : m.AsksFor t.config.nodeNumber index code) (ht : t.given = []) :
    ∃ value, (turn c service position t).given.filter Action.diagnoses =
      answers t.config.nodeNumber service position index.toNat code.toNat
          ((service.diagnostic? c t.shared code.toNat).getD 0) ++
        (Series.pollLeft c.now c.timing.replyGap t.self.listing).1.toList.map fun k =>
          diagnosis t.config.nodeNumber position k value := by
  obtain ⟨value, hgiven⟩ := given_turn service position hm hx
  refine ⟨value, ?_⟩
  rw [hgiven, ht, List.nil_append, List.filter_eq_self]
  intro a ha
  rcases List.mem_append.1 ha with ha | ha
  · exact diagnoses_of_mem_answers ha
  · obtain ⟨k, _, rfl⟩ := List.mem_map.1 ha
    exact diagnoses_diagnosis _ _ _ _

end Reporter

end RailNode
