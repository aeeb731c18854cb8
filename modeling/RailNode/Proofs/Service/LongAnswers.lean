import RailNode.Proofs.Service.Listings.MinimumNode
import RailNode.Proofs.Service.Listings.Reporter
import RailNode.Proofs.Service.Listings.Teaching
import RailNode.Proofs.Service.Listings.VariableAccess

/-
  The long answers of a node under one head. Whoever gives one, a service or the reporter of its
  diagnostics, conducts it in the same way (`Conducts`): a request starts it and has it announced,
  and at the end of every turn it is polled once.
-/
namespace RailNode

open Series Turn

/-- Who gives long answers: a service, or the reporter of its diagnostics. -/
inductive Speaker where
  | service (id : ServiceId)
  | reporter (id : ServiceId)
deriving DecidableEq, Repr

/-- The service that a speaker is or reports on. -/
def Speaker.id : Speaker → ServiceId
  | service id => id
  | reporter id => id

/-- The long answers of a node. -/
inductive LongAnswer where
  | parameters
  | services
  | nodeVariables
  | events
  | eventVariables (slot : Nat)
  | slotVariables (slot : Nat)
  | diagnostics (id : ServiceId)
deriving DecidableEq, Repr

def Listing.longAnswer : Listing → LongAnswer
  | parameters => .parameters
  | services => .services

def EventListing.longAnswer : EventListing → LongAnswer
  | events => .events
  | eventVariables slot => .eventVariables slot
  | slotVariables slot => .slotVariables slot

/-- What is left of the long answer of a service. -/
def Service.left? : Service → Option (Series LongAnswer)
  | minimumNode s => s.listing.map (relabel Listing.longAnswer)
  | nodeVariables s => s.listing.map (relabel fun _ => .nodeVariables)
  | teaching s => s.listing.map (relabel EventListing.longAnswer)
  | _ => none

/-- What is left of the long answer of the reporter of a service. -/
def Reporter.left? (id : ServiceId) (r : Reporter) : Option (Series LongAnswer) :=
  r.listing.map (relabel fun _ => .diagnostics id)

/-- What a speaker has before it in a turn when it comes to its long answer. -/
structure Stage where
  cycle : Cycle
  /-- Where the speaker stands among the services, from 1 on. -/
  position : Nat
  /-- The configuration at the beginning of the turn. -/
  opening : Configuration
  service : Service
  left : Option (Series LongAnswer)
  shared : Shared
  /-- What the speaker has queued so far in its turn. -/
  said : List Action

/-- What a speaker has queued so far to be sent with this opcode. -/
def Stage.sent (o : Opcode) (st : Stage) : List Action := st.said.filter (·.sends o)

/-! ## Long answers -/

namespace LongAnswer

def speaker : LongAnswer → Speaker
  | parameters => .service .minimumNode
  | services => .service .minimumNode
  | nodeVariables => .service .nodeVariables
  | events => .service .teaching
  | eventVariables _ => .service .teaching
  | slotVariables _ => .service .teaching
  | diagnostics id => .reporter id

/-- The opcode of the request. -/
def request : LongAnswer → Opcode
  | parameters => .rqnpn
  | services => .rqsd
  | nodeVariables => .nvrd
  | events => .nerd
  | eventVariables _ => .reqev
  | slotVariables _ => .reval
  | diagnostics _ => .rdgn

/-- The opcode of the replies. -/
def reply : LongAnswer → Opcode
  | parameters => .paran
  | services => .sd
  | nodeVariables => .nvans
  | events => .enrsp
  | eventVariables _ => .evans
  | slotVariables _ => .neval
  | diagnostics _ => .dgn

/-- The opcodes of long answers with which who gives this one answers a message at once. -/
def repliesTo (d : Configuration) (m : Message) : LongAnswer → List Opcode
  | parameters => MinimumNode.repliesTo d m
  | services => MinimumNode.repliesTo d m
  | nodeVariables => VariableAccess.repliesTo d m
  | events => Teaching.repliesTo d m
  | eventVariables _ => Teaching.repliesTo d m
  | slotVariables _ => Teaching.repliesTo d m
  | diagnostics _ => Reporter.repliesTo d m

/-- The number of replies. The list of the events runs over all slots, and passes over free ones. -/
def count (st : Stage) : LongAnswer → Nat
  | parameters => Parameters.count
  | services => st.cycle.services.length
  | nodeVariables => st.opening.layout.nodeVariables
  | events => st.opening.layout.slots
  | eventVariables _ => st.opening.layout.eventVariables
  | slotVariables _ => st.opening.layout.eventVariables
  | diagnostics _ => st.service.diagnosticCount

/-- The announcement, if there is one. -/
def announcement? (st : Stage) : LongAnswer → Option Message
  | parameters => some (MinimumNode.announcement st.cycle st.opening .parameters)
  | services => some (MinimumNode.announcement st.cycle st.opening .services)
  | nodeVariables => some (VariableAccess.announcement st.opening)
  | events => none
  | eventVariables slot => Teaching.announcement? st.opening (.eventVariables slot)
  | slotVariables slot => Teaching.announcement? st.opening (.slotVariables slot)
  | diagnostics _ => none

/-- The reply with a number, if there is one. -/
def item? (st : Stage) (i : Nat) : LongAnswer → Option Message
  | parameters => MinimumNode.item? st.cycle st.shared.config .parameters i
  | services => MinimumNode.item? st.cycle st.shared.config .services i
  | nodeVariables => VariableAccess.item? st.shared.config i
  | events => Teaching.item? st.shared.config .events i
  | eventVariables slot => Teaching.item? st.shared.config (.eventVariables slot) i
  | slotVariables slot => Teaching.item? st.shared.config (.slotVariables slot) i
  | diagnostics _ => Reporter.item? st.cycle st.service st.position st.shared i

/-- Whether an action looks like a part of a long answer: it sends a message with the opcode of the
    replies, and a report on the service at this position. -/
def owns (position : Nat) (x : Action) : LongAnswer → Bool
  | diagnostics _ => x.reportsOn position
  | a => x.sends a.reply

variable {a : LongAnswer} {st : Stage} {position : Nat} {x : Action}

theorem sends_of_owns (h : a.owns position x = true) : x.sends a.reply = true := by
  cases a with
  | diagnostics id => exact (Bool.and_eq_true_iff.1 h).1
  | _ => exact h

theorem owns_item {i : Nat} {m : Message} (h : a.item? st i = some m) :
    a.owns st.position (.transmit m) = true := by
  cases a with
  | parameters =>
    obtain ⟨value, _, rfl⟩ := Option.map_eq_some_iff.1 h
    exact Action.sends_about _ _ _
  | services =>
    obtain ⟨info, _, rfl⟩ := Option.map_eq_some_iff.1 h
    exact Action.sends_about _ _ _
  | nodeVariables =>
    obtain ⟨value, _, rfl⟩ := Option.map_eq_some_iff.1 h
    exact Action.sends_about _ _ _
  | events =>
    obtain ⟨e, _, rfl⟩ := Option.map_eq_some_iff.1 h
    exact Action.sends_about _ _ _
  | eventVariables slot =>
    obtain ⟨value, _, h⟩ := Option.bind_eq_some_iff.1 h
    obtain ⟨e, _, rfl⟩ := Option.map_eq_some_iff.1 h
    exact Action.sends_about _ _ _
  | slotVariables slot =>
    obtain ⟨value, _, rfl⟩ := Option.map_eq_some_iff.1 h
    exact Action.sends_about _ _ _
  | diagnostics id =>
    obtain ⟨value, _, rfl⟩ := Option.map_eq_some_iff.1 h
    exact Reporter.reportsOn_addressed _ _ _ _

theorem filter_owns_of_sent_nil (h : st.sent a.reply = []) :
    st.said.filter (a.owns position) = [] := by
  refine List.filter_eq_nil_iff.2 fun x hx howns => ?_
  have hmem : x ∈ st.sent a.reply := List.mem_filter.2 ⟨hx, sends_of_owns howns⟩
  rw [h] at hmem
  exact List.not_mem_nil hmem

/-- The announcement looks like a part of the long answer. -/
theorem filter_owns_of_sent
    (h : st.sent a.reply = ((a.announcement? st).map Action.transmit).toList) :
    st.said.filter (a.owns position) = ((a.announcement? st).map Action.transmit).toList := by
  cases a with
  | diagnostics id => exact filter_owns_of_sent_nil h
  | _ => exact h

/-- After the reply that is due, what looks like a part of the long answer is what did before, and
    the reply. -/
theorem filter_owns_of_replies {number : Option Nat} {said : List Action}
    (h : Replies (a.item? st ·) st.said number said) :
    said.filter (a.owns st.position) =
      st.said.filter (a.owns st.position) ++ said.drop st.said.length := by
  cases h with
  | silent => rw [List.drop_length, List.append_nil]
  | one i m hitem =>
    rw [List.drop_left, List.filter_append]
    exact congrArg _ (List.filter_cons_of_pos (owns_item hitem))

/-- The long answers of the service that every node has. -/
theorem exists_listing {a : LongAnswer} (h : a.speaker = .service .minimumNode) :
    ∃ k : Listing, k.longAnswer = a := by
  cases a with
  | parameters => exact ⟨.parameters, rfl⟩
  | services => exact ⟨.services, rfl⟩
  | _ => simp [speaker, ServiceId.minimumNode, ServiceId.nodeVariables, ServiceId.teaching] at h

theorem eq_nodeVariables {a : LongAnswer} (h : a.speaker = .service .nodeVariables) :
    a = .nodeVariables := by
  cases a with
  | nodeVariables => rfl
  | _ => simp [speaker, ServiceId.minimumNode, ServiceId.nodeVariables, ServiceId.teaching] at h

theorem exists_eventListing {a : LongAnswer} (h : a.speaker = .service .teaching) :
    ∃ k : EventListing, k.longAnswer = a := by
  cases a with
  | events => exact ⟨.events, rfl⟩
  | eventVariables slot => exact ⟨.eventVariables slot, rfl⟩
  | slotVariables slot => exact ⟨.slotVariables slot, rfl⟩
  | _ => simp [speaker, ServiceId.minimumNode, ServiceId.nodeVariables, ServiceId.teaching] at h

theorem eq_diagnostics {a : LongAnswer} {id : ServiceId} (h : a.speaker = .reporter id) :
    a = .diagnostics id := by
  cases a with
  | diagnostics id' => rw [Speaker.reporter.inj h]
  | _ => contradiction

/-- The slot of a long answer about one event is there. -/
def IsWithin (l : Layout) : LongAnswer → Prop
  | eventVariables slot => slot < l.slots
  | slotVariables slot => slot < l.slots
  | _ => True

end LongAnswer

/-- What a long message service still has to send are parts of long messages. -/
def Service.HasFragments : Service → Prop
  | longMessage s => ∀ m ∈ s.transmission.pending, m.opcode? = some .dtxc
  | _ => True

/-- The opcodes of the services beside the one that every node has. -/
def Service.otherOpcodes : List Opcode :=
  BusAccess.vocabulary ++ VariableAccess.vocabulary ++ Teaching.vocabulary ++ [.dtxc] ++
    Opcode.responses

theorem Service.vocabulary_subset {s : Service} (hid : s.id ≠ .minimumNode)
    (hs : s.HasFragments) : s.vocabulary ++ Opcode.responses ⊆ otherOpcodes := by
  cases s with
  | minimumNode s => exact absurd rfl hid
  | longMessage s =>
    refine List.append_subset.2 ⟨fun o ho => ?_, by decide⟩
    obtain ⟨m, hm, hopcode⟩ := List.mem_filterMap.1 ho
    rw [hs m hm] at hopcode
    rw [← Option.some.inj hopcode]
    decide
  | _ => simp only [vocabulary]; decide

/-- Only the service that gives a long answer speaks with the opcode of its replies. -/
theorem Service.reply_notMem {s : Service} {a : LongAnswer} (hne : a.speaker ≠ .service s.id)
    (hevents : a ≠ .events) (hs : s.HasFragments) :
    a.reply ∉ s.vocabulary ++ Opcode.responses := by
  cases s with
  | minimumNode s =>
    cases a with
    | parameters => exact absurd rfl hne
    | services => exact absurd rfl hne
    | _ => simp only [LongAnswer.reply, vocabulary]; decide
  | busAccess s => cases a <;> simp only [LongAnswer.reply, vocabulary] <;> decide
  | nodeVariables s =>
    cases a with
    | nodeVariables => exact absurd rfl hne
    | _ => simp only [LongAnswer.reply, vocabulary]; decide
  | teaching s =>
    cases a with
    | events => exact absurd rfl hevents
    | eventVariables slot => exact absurd rfl hne
    | slotVariables slot => exact absurd rfl hne
    | _ => simp only [LongAnswer.reply, vocabulary]; decide
  | consumer s => cases a <;> simp only [LongAnswer.reply, vocabulary] <;> decide
  | producer s => cases a <;> simp only [LongAnswer.reply, vocabulary] <;> decide
  | acknowledge s =>
    cases a with
    | events => exact absurd rfl hevents
    | _ => simp only [LongAnswer.reply, vocabulary]; decide
  | longMessage s =>
    have hparts : a.reply ∉ [Opcode.dtxc] ++ Opcode.responses := by
      cases a <;> simp only [LongAnswer.reply] <;> decide
    intro hmem
    refine hparts ?_
    rcases List.mem_append.1 hmem with hmem | hmem
    · obtain ⟨m, hm, ho⟩ := List.mem_filterMap.1 hmem
      rw [hs m hm] at ho
      exact List.mem_append_left _ (List.mem_singleton.2 (Option.some.inj ho).symm)
    · exact List.mem_append_right _ hmem

/-! ## Turns -/

/-- The long answer that a message asks a service for. -/
def Service.asked? (d : Configuration) (m : Message) : Service → Option LongAnswer
  | minimumNode _ => (MinimumNode.asked? d m).map Listing.longAnswer
  | nodeVariables _ => (VariableAccess.asked? d m).map fun _ => .nodeVariables
  | teaching _ => (Teaching.asked? d m).map EventListing.longAnswer
  | _ => none

/-- The long answer that a speaker has just been asked for. -/
def Stage.asked? (σ : Speaker) (st : Stage) : Option LongAnswer :=
  st.cycle.received?.bind fun m =>
    match σ with
    | .service _ => st.service.asked? st.opening m
    | .reporter id =>
      (Reporter.asked? st.service st.position st.opening m).map fun _ => .diagnostics id

/-- A message asks for a long answer by its opcode. -/
theorem Stage.request_of_asked {σ : Speaker} {st : Stage} {a : LongAnswer}
    (h : st.asked? σ = some a) :
    ∃ m, st.cycle.received? = some m ∧ m.opcode? = some a.request := by
  obtain ⟨m, hm, h⟩ := Option.bind_eq_some_iff.1 h
  refine ⟨m, hm, ?_⟩
  cases σ with
  | service id =>
    change st.service.asked? st.opening m = some a at h
    unfold Service.asked? at h
    split at h
    · obtain ⟨k, hk, rfl⟩ := Option.map_eq_some_iff.1 h
      rw [MinimumNode.opcode_of_asked hk]
      cases k <;> rfl
    · obtain ⟨k, hk, rfl⟩ := Option.map_eq_some_iff.1 h
      exact VariableAccess.opcode_of_asked hk
    · obtain ⟨k, hk, rfl⟩ := Option.map_eq_some_iff.1 h
      rw [Teaching.opcode_of_asked hk]
      cases k <;> rfl
    · contradiction
  | reporter id =>
    obtain ⟨k, hk, rfl⟩ := Option.map_eq_some_iff.1 h
    exact Reporter.opcode_of_asked hk

/-- Of different speakers only reporters answer the same request. -/
theorem LongAnswer.exists_eq_diagnostics {a b : LongAnswer} (hne : a.speaker ≠ b.speaker)
    (h : a.request = b.request) :
    ∃ id id', a = .diagnostics id ∧ b = .diagnostics id' := by
  cases a <;> cases b <;> first
    | exact ⟨_, _, rfl, rfl⟩
    | exact absurd rfl hne
    | simp [request] at h

/-- What stands before a service, one of those that give long answers, when it comes to it. -/
def Service.stage? (c : Cycle) (position : Nat) (found : Shared) (service : Service) :
    Option Stage :=
  let stage {σ : Type} (service : Service) (t : Turn σ) : Stage :=
    { cycle := c, position, opening := found.config, service, left := service.left?
      shared := t.shared, said := t.given }
  match service with
  | minimumNode s =>
    (MinimumNode.prepare c { self := s, shared := found }).toOption.map fun t =>
      stage (minimumNode t.self) t
  | nodeVariables s =>
    (VariableAccess.prepare c { self := s, shared := found }).toOption.map fun t =>
      stage (nodeVariables t.self) t
  | teaching s =>
    (Teaching.prepare c { self := s, shared := found }).toOption.map fun t =>
      stage (teaching t.self) t
  | _ => none

/-- What stands before a reporter when it comes to its long answer. -/
def Reporter.stage (c : Cycle) (service : Service) (position : Nat) (found : Shared)
    (r : Reporter) : Stage :=
  let t := prepare c service position { self := r, shared := found }
  { cycle := c, position, opening := found.config, service, left := t.self.left? service.id
    shared := t.shared, said := t.given }

/-- How a speaker conducts its long answer in a turn: `before` and `after` are what is left of it
    before and after the turn, and `said` is all that it has queued in the turn. -/
structure Conducts (σ : Speaker) (before : Option (Series LongAnswer)) (st : Stage)
    (after : Option (Series LongAnswer)) (said : List Action) : Prop where
  kept : st.asked? σ = none → st.left = before
  opened : ∀ a : LongAnswer, st.asked? σ = some a → a ≠ .events →
    st.left = some (.start st.cycle.now a 1 (a.count st + 1))
  fits : ∀ a : LongAnswer, st.asked? σ = some a → a.speaker = σ ∧ a.IsWithin st.opening.layout
  announced : ∀ a : LongAnswer, st.asked? σ = some a →
    st.sent a.reply = ((a.announcement? st).map Action.transmit).toList
  quiet : ∀ a : LongAnswer, a.speaker = σ →
    (∀ m, st.cycle.received? = some m → a.reply ∉ a.repliesTo st.opening m) → st.sent a.reply = []
  polled : ∀ a : LongAnswer, a.speaker = σ → a ≠ .events → a.IsWithin st.opening.layout →
    (∀ s, st.left = some s → s.kind = a ∧ s.Within (a.count st)) →
    after = (pollLeft st.cycle.now st.cycle.timing.replyGap st.left).2 ∧
      Replies (a.item? st ·) st.said
        (pollLeft st.cycle.now st.cycle.timing.replyGap st.left).1 said

/-- The laws of a speaker in terms of its own kinds of long answers. -/
theorem Conducts.of_label {κ : Type} {label : κ → LongAnswer} {σ : Speaker} (asked : Option κ)
    {opened : κ → Series κ} {before left after : Option (Series κ)} {st : Stage}
    {said : List Action} (hasked : st.asked? σ = asked.map label)
    (hleft : st.left = left.map (relabel label)) (hinj : Function.Injective label)
    (hlabel : ∀ {a : LongAnswer}, a.speaker = σ → ∃ k, label k = a)
    (kept : left = (asked.map opened).or before)
    (opens : ∀ k, asked = some k → (label k).speaker = σ ∧ (label k).IsWithin st.opening.layout ∧
      st.sent (label k).reply = (((label k).announcement? st).map Action.transmit).toList ∧
      (label k ≠ .events → opened k = .start st.cycle.now k 1 ((label k).count st + 1)))
    (quiet : ∀ k, (∀ m, st.cycle.received? = some m →
      (label k).reply ∉ (label k).repliesTo st.opening m) → st.sent (label k).reply = [])
    (polled : ∀ k, label k ≠ .events → (label k).IsWithin st.opening.layout →
      (∀ s, left = some s → s.kind = k ∧ s.Within ((label k).count st)) →
      after = (pollLeft st.cycle.now st.cycle.timing.replyGap left).2 ∧
        Replies ((label k).item? st ·) st.said
          (pollLeft st.cycle.now st.cycle.timing.replyGap left).1 said) :
    Conducts σ (before.map (relabel label)) st (after.map (relabel label)) said where
  kept := by
    intro hnone
    have hasked : asked = none := Option.map_eq_none_iff.1 (hasked ▸ hnone)
    rw [hleft, kept, hasked]
    rfl
  opened := by
    intro a ha hevents
    obtain ⟨k, hk, rfl⟩ := Option.map_eq_some_iff.1 (hasked ▸ ha)
    rw [hleft, kept, hk, Option.map_some, Option.some_or, (opens k hk).2.2.2 hevents]
    rfl
  fits := by
    intro a ha
    obtain ⟨k, hk, rfl⟩ := Option.map_eq_some_iff.1 (hasked ▸ ha)
    exact ⟨(opens k hk).1, (opens k hk).2.1⟩
  announced := by
    intro a ha
    obtain ⟨k, hk, rfl⟩ := Option.map_eq_some_iff.1 (hasked ▸ ha)
    exact (opens k hk).2.2.1
  quiet := by
    intro a ha hnone
    obtain ⟨k, rfl⟩ := hlabel ha
    exact quiet k hnone
  polled := by
    intro a ha hevents hwithin hs
    obtain ⟨k, rfl⟩ := hlabel ha
    have hnative : ∀ s, left = some s → s.kind = k ∧ s.Within ((label k).count st) := by
      intro s hs'
      obtain ⟨hkind, hcount⟩ := hs (s.relabel label) (by rw [hleft, hs']; rfl)
      exact ⟨hinj hkind, hcount⟩
    obtain ⟨hafter, hreplies⟩ := polled k hevents hwithin hnative
    rw [hleft, pollLeft_relabel, hafter]
    exact ⟨rfl, hreplies⟩

variable {c : Cycle} {position : Nat} {found : Shared}

theorem MinimumNode.conducts {s : MinimumNode} {t : Turn MinimumNode}
    (h : turn c { self := s, shared := found } = .ok t) :
    ∃ st, (Service.minimumNode s).stage? c position found = some st ∧
      Conducts (.service .minimumNode) (Service.minimumNode s).left? st
        (Service.minimumNode t.self).left? t.given := by
  obtain ⟨u, hu, hpoll⟩ := turn_eq_ok_iff.1 h
  refine ⟨_, by rw [Service.stage?, hu]; rfl, ?_⟩
  refine .of_label (c.received?.bind (asked? found.config)) ?_ rfl ?_ LongAnswer.exists_listing
    (listing_prepare hu) ?_ ?_ ?_
  · exact (Option.map_bind ..).symm
  · intro k k' h
    cases k <;> cases k' <;> first | rfl | contradiction
  · intro k hk
    obtain ⟨m, hm, hk⟩ := Option.bind_eq_some_iff.1 hk
    have hsent := sent_prepare_of_asked hu hm hk
    cases k <;> exact ⟨rfl, trivial, hsent, fun _ => rfl⟩
  · intro k hnone
    have hsent := sent_prepare (k := k) hu fun m hm => by cases k <;> exact hnone m hm
    cases k <;> exact hsent
  · intro k _ _ hs
    have hpolled := replies_pollListing (k := k) rfl (by cases k <;> exact hs) hpoll
    cases k <;> exact hpolled

theorem VariableAccess.conducts {s : VariableAccess} {t : Turn VariableAccess}
    (h : turn c { self := s, shared := found } = .ok t) :
    ∃ st, (Service.nodeVariables s).stage? c position found = some st ∧
      Conducts (.service .nodeVariables) (Service.nodeVariables s).left? st
        (Service.nodeVariables t.self).left? t.given := by
  obtain ⟨u, hu, hpoll⟩ := turn_eq_ok_iff.1 h
  refine ⟨_, by rw [Service.stage?, hu]; rfl, ?_⟩
  refine .of_label (c.received?.bind (asked? found.config)) ?_ rfl (fun _ _ _ => rfl)
    (fun ha => ⟨(), (LongAnswer.eq_nodeVariables ha).symm⟩) (listing_prepare hu) ?_ ?_ ?_
  · exact (Option.map_bind ..).symm
  · intro k hk
    obtain ⟨m, hm, hk⟩ := Option.bind_eq_some_iff.1 hk
    exact ⟨rfl, trivial, sent_prepare_of_asked hu hm hk, fun _ => rfl⟩
  · intro k hnone
    exact sent_prepare hu hnone
  · intro k _ _ _
    exact replies_pollListing rfl hpoll

theorem Teaching.conducts {s : Teaching} {t : Turn Teaching}
    (h : turn c { self := s, shared := found } = .ok t) :
    ∃ st, (Service.teaching s).stage? c position found = some st ∧
      Conducts (.service .teaching) (Service.teaching s).left? st
        (Service.teaching t.self).left? t.given := by
  obtain ⟨u, hu, rfl⟩ := turn_eq_ok_iff.1 h
  have hlayout : u.config.layout = found.config.layout := layout_prepare hu
  refine ⟨_, by rw [Service.stage?, hu]; rfl, ?_⟩
  refine .of_label (c.received?.bind (asked? found.config)) ?_ rfl ?_
    LongAnswer.exists_eventListing (listing_prepare hu) ?_ ?_ ?_
  · exact (Option.map_bind ..).symm
  · intro k k' h
    cases k <;> cases k' <;> simp_all [EventListing.longAnswer]
  · intro k hk
    obtain ⟨m, hm, hk⟩ := Option.bind_eq_some_iff.1 hk
    have hsent := sent_prepare_of_asked hu hm hk
    have hslot := slot_lt_of_asked hk
    cases k with
    | events => exact ⟨rfl, trivial, hsent, fun h => absurd rfl h⟩
    | eventVariables slot => exact ⟨rfl, hslot slot (Or.inl rfl), hsent, fun _ => rfl⟩
    | slotVariables slot => exact ⟨rfl, hslot slot (Or.inr rfl), hsent, fun _ => rfl⟩
  · intro k hnone
    have hsent := sent_prepare (k := k) hu fun m hm => by cases k <;> exact hnone m hm
    cases k <;> exact hsent
  · intro k hevents hwithin hs
    have hitem : ∀ x i, u.self.listing = some x →
        (x.poll c.now c.timing.replyGap).1 = some i → ∃ m, item? u.config k i = some m := by
      intro x i hx hi
      obtain ⟨h1, h2⟩ := within_of_poll_fst (hs x hx).2 hi
      cases k with
      | events => exact absurd rfl hevents
      | eventVariables slot =>
        exact exists_item? (hlayout ▸ hwithin) h1 (hlayout ▸ h2) (Or.inl rfl)
      | slotVariables slot =>
        exact exists_item? (hlayout ▸ hwithin) h1 (hlayout ▸ h2) (Or.inr rfl)
    have hpolled := replies_pollListing (k := k) rfl (fun x hx => (hs x hx).1)
      (fun h => hevents (congrArg _ h)) hitem
    cases k <;> exact hpolled

theorem Reporter.conducts (c : Cycle) (service : Service) (position : Nat) (found : Shared)
    (r : Reporter) :
    Conducts (.reporter service.id) (r.left? service.id) (r.stage c service position found)
      ((turn c service position { self := r, shared := found }).self.left? service.id)
      (turn c service position { self := r, shared := found }).given := by
  rw [turn_eq]
  refine .of_label (c.received?.bind (asked? service position found.config)) ?_ rfl
    (fun _ _ _ => rfl) (fun ha => ⟨(), (LongAnswer.eq_diagnostics ha).symm⟩)
    (listing_prepare c service position _) ?_ ?_ ?_
  · exact (Option.map_bind ..).symm
  · intro k hk
    obtain ⟨m, hm, hk⟩ := Option.bind_eq_some_iff.1 hk
    exact ⟨rfl, trivial, sent_prepare_of_asked hm hk, fun _ => rfl⟩
  · intro k hnone
    exact sent_prepare hnone
  · intro k _ _ hs
    refine replies_pollListing rfl fun x i hx hi => ?_
    obtain ⟨h1, h2⟩ := within_of_poll_fst (hs x hx).2 hi
    obtain ⟨value, hvalue⟩ := service.exists_diagnostic? c _ h1 h2
    exact ⟨_, Option.map_eq_some_iff.2 ⟨value, hvalue, rfl⟩⟩

/-- A service that gives long answers conducts them in every turn. -/
theorem Service.conducts {service : Service} {t : Turn Service}
    (h : turn c { self := service, shared := found } = .ok t) {a : LongAnswer}
    (ha : a.speaker = .service service.id) :
    ∃ st, service.stage? c position found = some st ∧
      Conducts (.service service.id) service.left? st t.self.left? t.given := by
  have hsilent : ∀ {id : ServiceId}, id ≠ .minimumNode → id ≠ .nodeVariables → id ≠ .teaching →
      a.speaker ≠ .service id := by
    intro id h1 h2 h3 hid
    cases a with
    | parameters => exact h1 (Speaker.service.inj hid).symm
    | services => exact h1 (Speaker.service.inj hid).symm
    | nodeVariables => exact h2 (Speaker.service.inj hid).symm
    | diagnostics id' => contradiction
    | _ => exact h3 (Speaker.service.inj hid).symm
  cases service with
  | minimumNode s =>
    obtain ⟨u, hu, rfl⟩ := map_eq_ok_iff.1 h
    exact MinimumNode.conducts hu
  | nodeVariables s =>
    obtain ⟨u, hu, rfl⟩ := map_eq_ok_iff.1 h
    exact VariableAccess.conducts hu
  | teaching s =>
    obtain ⟨u, hu, rfl⟩ := map_eq_ok_iff.1 h
    exact Teaching.conducts hu
  | _ => exact absurd ha (hsilent (by simp only [id]; decide) (by simp only [id]; decide)
      (by simp only [id]; decide))

theorem Service.stage?_eq_some {service : Service} {st : Stage}
    (h : service.stage? c position found = some st) :
    st.cycle = c ∧ st.position = position ∧ st.opening = found.config ∧
      st.service.id = service.id := by
  cases service with
  | minimumNode s =>
    obtain ⟨u, _, rfl⟩ := Option.map_eq_some_iff.1 h
    exact ⟨rfl, rfl, rfl, rfl⟩
  | nodeVariables s =>
    obtain ⟨u, _, rfl⟩ := Option.map_eq_some_iff.1 h
    exact ⟨rfl, rfl, rfl, rfl⟩
  | teaching s =>
    obtain ⟨u, _, rfl⟩ := Option.map_eq_some_iff.1 h
    exact ⟨rfl, rfl, rfl, rfl⟩
  | _ => contradiction

end RailNode
