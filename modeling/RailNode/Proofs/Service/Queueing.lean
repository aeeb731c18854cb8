import Mathlib.Tactic.SplitIfs
import RailNode.Proofs.Backlog
import RailNode.Proofs.Service.Edits

/-
  What a turn does to the queue and to the link. Every turn puts in the queue just the actions that
  its trace tells, and the messages among them have opcodes of the service (`Service.queues_turn`).
  Only bus access reaches the link in a turn that comes to its end; the other services and the
  reporters speak through the queue (`Service.speaks_turn`).
-/
namespace RailNode

/-- The opcodes with which every service responds to commands. -/
def Opcode.responses : List Opcode := [.wrack, .cmderr, .grsp]

/-- Whether a message names the node with this configuration. -/
def Message.names (d : Configuration) (m : Message) : Bool :=
  m.nodeNumber? == some d.nodeNumber

theorem Message.opcode?_ofOpcode (o : Opcode) (args : List UInt8) (h : args.length ≤ 7) :
    (Message.ofOpcode o args h).opcode? = some o := Opcode.ofByte?_byte o

namespace Action

/-- The message that has come in, if that is the action. -/
def received? : Action → Option Message
  | received m => some m
  | _ => none

/-- The message that is to be sent, if that is the action. -/
def transmitted? : Action → Option Message
  | transmit m => some m
  | _ => none

/-- Whether a message with this opcode is to be sent. -/
def sends (o : Opcode) (a : Action) : Bool := a.transmitted?.bind Message.opcode? == some o

/-- A message that is to be sent responds to a command or has one of these opcodes. -/
def IsWithin (os : List Opcode) (a : Action) : Prop :=
  ∀ o, a.sends o = true → o ∈ os ++ Opcode.responses

variable {os os' : List Opcode} {a : Action}

theorem IsWithin.mono (h : a.IsWithin os) (hos : os ⊆ os') : a.IsWithin os' := by
  intro o ho
  rcases List.mem_append.1 (h o ho) with hmem | hmem
  · exact List.mem_append_left _ (hos hmem)
  · exact List.mem_append_right _ hmem

theorem isWithin_of_transmitted?_eq_none (h : a.transmitted? = none) : a.IsWithin os := by
  intro o ho
  rw [sends, h] at ho
  contradiction

theorem isWithin_transmit {m : Message} {o : Opcode} (hm : m.opcode? = some o)
    (ho : o ∈ os ++ Opcode.responses) : (transmit m).IsWithin os := by
  intro o' ho'
  have hsame : m.opcode? = some o' := beq_iff_eq.1 ho'
  rw [hm] at hsame
  exact Option.some.inj hsame ▸ ho

theorem isWithin_addressed {o : Opcode} {node : UInt16} {args : List UInt8}
    {hargs : args.length ≤ 5} (ho : o ∈ os ++ Opcode.responses) :
    (transmit (.addressed o.byte node args hargs)).IsWithin os :=
  isWithin_transmit (Message.opcode?_addressed o node args hargs) ho

end Action

/-! ## Turns -/

/-- The actions that a trace tells of. -/
def Trace.actions (t : Trace) : List Action := t.queued.map (·.item)

/-- The frames that a trace tells of. -/
def Trace.frames (t : Trace) : List Frame := t.offered.map (·.item)

namespace Turn

variable {σ τ υ : Type} {t : Turn σ} {t' : Turn τ} {t'' : Turn υ}

theorem isNamedBy_eq (t : Turn σ) (m : Message) : t.isNamedBy m = m.names t.config := rfl

/-- From `t` to `t'` these actions have been put in the queue, as the trace tells. -/
structure Adds (as : List Action) (t : Turn σ) (t' : Turn τ) : Prop where
  given : t'.given = t.given ++ as
  queue : t'.shared.queue = t.shared.queue.putAll as

/-- From `t` to `t'` the queue has got what the trace tells, with these opcodes. -/
def Queues (os : List Opcode) (t : Turn σ) (t' : Turn τ) : Prop :=
  ∃ as, Adds as t t' ∧ ∀ a ∈ as, a.IsWithin os

/-- From `t` to `t'` the queue has got what the trace tells, with these opcodes and no message from
    the bus among it, and the link is as it was. -/
structure Speaks (os : List Opcode) (t : Turn σ) (t' : Turn τ) : Prop where
  adds : ∃ as, Adds as t t' ∧ ∀ a ∈ as, a.received? = none ∧ a.IsWithin os
  link : t'.shared.link = t.shared.link
  offered : t'.trace.offered = t.trace.offered

theorem Adds.trans {as bs : List Action} (h : Adds as t t') (h' : Adds bs t' t'') :
    Adds (as ++ bs) t t'' where
  given := by rw [h'.given, h.given, List.append_assoc]
  queue := by rw [h'.queue, h.queue, Backlog.putAll_append]

theorem adds_put (a : Action) (t : Turn σ) : Adds [a] t (t.put a) where
  given := given_put a t
  queue := rfl

variable {os os' : List Opcode}

namespace Queues

/-- Without a change of queue and trace nothing has been added. -/
theorem same (hqueue : t'.shared.queue = t.shared.queue)
    (hqueued : t'.trace.queued = t.trace.queued) : Queues os t t' :=
  ⟨[], ⟨by rw [List.append_nil, given, given, hqueued], hqueue⟩, nofun⟩

theorem trans (h : Queues os t t') (h' : Queues os t' t'') : Queues os t t'' := by
  obtain ⟨as, has, hos⟩ := h
  obtain ⟨bs, hbs, hos'⟩ := h'
  refine ⟨as ++ bs, has.trans hbs, fun a ha => ?_⟩
  rcases List.mem_append.1 ha with ha | ha
  · exact hos a ha
  · exact hos' a ha

theorem map {s : τ} {u : Turn τ} (h : Queues os (t.withSelf s) u) (f : τ → υ) :
    Queues os t (u.map f) :=
  (same rfl rfl : Queues os t (t.withSelf s)).trans
    (h.trans (same rfl rfl : Queues os u (u.map f)))

theorem put (h : Queues os t t') {a : Action} (ha : a.IsWithin os) : Queues os t (t'.put a) :=
  h.trans ⟨[a], adds_put a t', fun _ hb => List.mem_singleton.1 hb ▸ ha⟩

theorem offer (h : Queues os t t') (f : Frame) : Queues os t (t'.offer f) := h.trans (.same rfl rfl)

theorem reply (h : Queues os t t') (o : Opcode) (args : List UInt8) (hargs : args.length ≤ 5)
    (ho : o ∈ os ++ Opcode.responses) : Queues os t (t'.reply o args hargs) :=
  h.put (Action.isWithin_addressed ho)

/-- Who does not speak with an opcode puts nothing with it in the queue. -/
theorem filter_sends (h : Queues os t t') {o : Opcode} (ho : o ∉ os ++ Opcode.responses) :
    t'.given.filter (·.sends o) = t.given.filter (·.sends o) := by
  obtain ⟨as, has, hwithin⟩ := h
  have hnone : as.filter (·.sends o) = [] :=
    List.filter_eq_nil_iff.2 fun a ha hsends => ho (hwithin a ha o hsends)
  rw [has.given, List.filter_append, hnone]
  exact List.append_nil _

end Queues

namespace Speaks

theorem queues (h : Speaks os t t') : Queues os t t' := by
  obtain ⟨as, has, hall⟩ := h.adds
  exact ⟨as, has, fun a ha => (hall a ha).2⟩

theorem same (hqueue : t'.shared.queue = t.shared.queue) (hlink : t'.shared.link = t.shared.link)
    (htrace : t'.trace = t.trace) : Speaks os t t' where
  adds := ⟨[], ⟨by rw [List.append_nil, given, given, htrace], hqueue⟩, nofun⟩
  link := hlink
  offered := by rw [htrace]

theorem refl (t : Turn σ) : Speaks os t t := .same rfl rfl rfl

theorem mono (h : Speaks os t t') (hos : os ⊆ os') : Speaks os' t t' where
  adds := by
    obtain ⟨as, has, hall⟩ := h.adds
    exact ⟨as, has, fun a ha => ⟨(hall a ha).1, (hall a ha).2.mono hos⟩⟩
  link := h.link
  offered := h.offered

theorem trans (h : Speaks os t t') (h' : Speaks os t' t'') : Speaks os t t'' where
  adds := by
    obtain ⟨as, has, hall⟩ := h.adds
    obtain ⟨bs, hbs, hall'⟩ := h'.adds
    refine ⟨as ++ bs, has.trans hbs, fun a ha => ?_⟩
    rcases List.mem_append.1 ha with ha | ha
    · exact hall a ha
    · exact hall' a ha
  link := h'.link.trans h.link
  offered := h'.offered.trans h.offered

theorem map {s : τ} {u : Turn τ} (h : Speaks os (t.withSelf s) u) (f : τ → υ) :
    Speaks os t (u.map f) :=
  (same rfl rfl rfl : Speaks os t (t.withSelf s)).trans
    (h.trans (same rfl rfl rfl : Speaks os u (u.map f)))

theorem put (h : Speaks os t t') {a : Action} (ha : a.received? = none ∧ a.IsWithin os) :
    Speaks os t (t'.put a) :=
  h.trans
    { adds := ⟨[a], adds_put a t', fun _ hb => List.mem_singleton.1 hb ▸ ha⟩
      link := rfl
      offered := rfl }

/-- An action that is no message can be put in the queue. -/
theorem put_other (h : Speaks os t t') (a : Action) (hreceived : a.received? = none)
    (htransmitted : a.transmitted? = none) : Speaks os t (t'.put a) :=
  h.put ⟨hreceived, Action.isWithin_of_transmitted?_eq_none htransmitted⟩

theorem configure (h : Speaks os t t') (f : Configuration → Configuration) :
    Speaks os t (t'.configure f) :=
  h.trans (.same rfl rfl rfl)

theorem send (h : Speaks os t t') {m : Message} {o : Opcode} (hm : m.opcode? = some o)
    (ho : o ∈ os ++ Opcode.responses) : Speaks os t (t'.send m) :=
  h.put ⟨rfl, Action.isWithin_transmit hm ho⟩

theorem reply (h : Speaks os t t') (o : Opcode) (args : List UInt8) (hargs : args.length ≤ 5)
    (ho : o ∈ os ++ Opcode.responses) : Speaks os t (t'.reply o args hargs) :=
  h.put ⟨rfl, Action.isWithin_addressed ho⟩

theorem respond (h : Speaks os t t') (o : Opcode) (service : ServiceId) (r : ResponseCode) :
    Speaks os t (t'.respond o service r) :=
  h.reply _ _ _ (List.mem_append_right _ (by decide))

theorem refuse (h : Speaks os t t') (o : Opcode) (service : ServiceId) (e : CommandError) :
    Speaks os t (t'.refuse o service e) :=
  (h.reply _ _ _ (List.mem_append_right _ (by decide))).respond _ _ _

theorem confirm (h : Speaks os t t') (o : Opcode) (service : ServiceId) :
    Speaks os t (t'.confirm o service) :=
  (h.reply _ _ _ (List.mem_append_right _ (by decide))).respond _ _ _

end Speaks

end Turn

open Turn

/-! ## The minimum node -/

namespace MinimumNode

/-- The opcodes of the service, those of its long answers apart. -/
def signals : List Opcode := [.rqnn, .nnrel, .nnack, .heartb, .pnn, .name, .params, .esd]

/-- The opcodes of its answers to messages, those of its long answers apart. -/
def answers : List Opcode := [.rqnn, .pnn, .name, .params, .esd]

/-- The opcodes of what it says about the action of a cycle, those of its long answers apart. -/
def reactions : List Opcode := [.nnrel, .nnack] ++ answers

/-- The opcodes of the service. -/
def vocabulary : List Opcode := [.paran, .sd] ++ signals

/-- The opcodes of long answers with which a message is answered. -/
def repliesTo (d : Configuration) (m : Message) : List Opcode :=
  if m.names d then
    match m.opcode? with
    | some .rqnpn => [.paran]
    | some .rqsd => [.sd]
    | _ => []
  else []

variable {c : Cycle} {m : Message} {t t' : Turn MinimumNode}

theorem repliesTo_subset (d : Configuration) (m : Message) : repliesTo d m ⊆ [.paran, .sd] := by
  unfold repliesTo
  split_ifs
  · split <;> simp
  · exact List.nil_subset _

theorem elim_repliesTo_subset (c : Cycle) (d : Configuration) :
    c.received?.elim [] (repliesTo d) ⊆ [.paran, .sd] := by
  rcases c.received? with _ | m
  · exact List.nil_subset _
  · exact repliesTo_subset d m

theorem speaks_switchMode {os : List Opcode} (mode : Mode) (t : Turn MinimumNode) :
    Speaks os t (switchMode mode t) := by
  refine .put_other ?_ _ rfl rfl
  exact .same rfl rfl rfl

theorem speaks_beginNegotiation {os : List Opcode} (now : Time) (t : Turn MinimumNode) :
    Speaks os t (beginNegotiation now t) := by
  refine Speaks.trans ?_ (speaks_switchMode _ _)
  exact .same rfl rfl rfl

theorem speaks_cancelNegotiation (t : Turn MinimumNode) :
    Speaks [.nnack] t (cancelNegotiation t) := by
  unfold cancelNegotiation
  split
  · exact .refl t
  · dsimp only
    split_ifs
    · refine .reply (.trans ?_ (speaks_switchMode _ _)) _ _ _ (by decide)
      exact .same rfl rfl rfl
    · refine .trans ?_ (speaks_switchMode _ _)
      exact .same rfl rfl rfl

theorem speaks_acceptNumber (number : UInt16) (t : Turn MinimumNode) :
    Speaks [.nnack] t (acceptNumber number t) := by
  refine .put_other (.reply (.trans ?_ (speaks_switchMode _ _)) _ _ _ (by decide)) _ rfl rfl
  exact .same rfl rfl rfl

theorem speaks_obeyAssignment (m : Message) (t : Turn MinimumNode) :
    Speaks [.nnack] t (obeyAssignment m t) := by
  unfold obeyAssignment
  split_ifs
  · split
    · exact .refl t
    · split_ifs
      · exact .refl t
      · exact speaks_acceptNumber _ t
  · exact .refl t

theorem speaks_renegotiate (now : Time) (t : Turn MinimumNode) :
    Speaks [.rqnn] t (renegotiate now t) := by
  unfold renegotiate
  split_ifs
  · exact (speaks_beginNegotiation now t).reply _ _ _ (by decide)
  · exact .refl t

theorem speaks_advanceMode (now : Time) (t : Turn MinimumNode) :
    Speaks [.rqnn, .nnrel, .nnack] t (advanceMode now t) := by
  unfold advanceMode
  split
  · exact ((speaks_beginNegotiation now t).put_other _ rfl rfl).reply _ _ _ (by decide)
  · exact (((Speaks.refl t).reply _ _ _ (by decide)).trans (speaks_beginNegotiation now _)).reply
      _ _ _ (by decide)
  · exact (speaks_cancelNegotiation t).mono (by decide)

theorem speaks_obeyMode (now : Time) (command : UInt8) (t : Turn MinimumNode) :
    Speaks [.rqnn] t (obeyMode now command t) := by
  unfold obeyMode resume
  split
  · exact speaks_renegotiate now t
  · split_ifs
    · refine .trans ?_ (speaks_switchMode _ _)
      exact .same rfl rfl rfl
    · exact .refl t
  · exact (Speaks.refl t).configure _
  · exact (Speaks.refl t).configure _
  · exact .refl t
  · exact (Speaks.refl t).respond _ _ _

theorem speaks_pollNegotiation (now limit : Time) (t : Turn MinimumNode) :
    Speaks [.nnack] t (pollNegotiation now limit t) := by
  unfold pollNegotiation
  split
  · exact .refl t
  · split_ifs
    · exact speaks_cancelNegotiation t
    · exact .refl t

theorem speaks_pollHeartbeat (now interval : Time) (t : Turn MinimumNode) :
    Speaks [.heartb] t (pollHeartbeat now interval t) := by
  unfold pollHeartbeat
  split_ifs
  · dsimp only
    split_ifs
    · exact .same rfl rfl rfl
    · refine .reply ?_ _ _ _ (by decide)
      exact .same rfl rfl rfl
  · exact .same rfl rfl rfl

theorem speaks_introduce (c : Cycle) (t : Turn MinimumNode) : Speaks [.pnn] t (introduce c t) :=
  (Speaks.refl t).reply _ _ _ (by decide)

theorem speaks_answerParameter (c : Cycle) (m : Message) (t : Turn MinimumNode) :
    Speaks [.paran] t (answerParameter c m t) := by
  unfold answerParameter sendParameter
  split
  · exact (Speaks.refl t).refuse _ _ _
  · split_ifs
    · refine .reply ?_ _ _ _ (by decide)
      exact .same rfl rfl rfl
    · exact (Speaks.refl t).reply _ _ _ (by decide)
    · exact (Speaks.refl t).refuse _ _ _

theorem speaks_answerServices (c : Cycle) (m : Message) (t : Turn MinimumNode) :
    Speaks [.sd, .esd] t (answerServices c m t) := by
  unfold answerServices
  split
  · exact .refl t
  · split_ifs
    · refine .reply ?_ _ _ _ (by decide)
      exact .same rfl rfl rfl
    · split
      · exact (Speaks.refl t).reply _ _ _ (by decide)
      · exact (Speaks.refl t).respond _ _ _

theorem speaks_answerDiagnostics {os : List Opcode} (c : Cycle) (m : Message)
    (t : Turn MinimumNode) : Speaks os t (answerDiagnostics c m t) := by
  unfold answerDiagnostics
  split
  · exact .refl t
  · split_ifs
    · exact (Speaks.refl t).respond _ _ _
    · exact .refl t

/-- Without an assignment of a number no message makes the service confirm or release one. -/
theorem speaks_handle_of_ne (h : handle c m t = .ok t') (hassign : m.opcode? ≠ some .snn) :
    Speaks (repliesTo t.config m ++ answers) t t' := by
  have hanswers : answers ⊆ repliesTo t.config m ++ answers := List.subset_append_right _ _
  unfold handle at h
  split at h
  · exact Except.ok.inj h ▸ .refl t
  · rw [← Except.ok.inj h]
    split_ifs
    · exact .refl t
    · refine .mono (.mono (speaks_introduce c t) ?_) hanswers
      decide
  · rw [← Except.ok.inj h]
    split_ifs
    · refine .mono ?_ hanswers
      exact (Speaks.refl t).send (Message.opcode?_ofOpcode .params _ _) (by decide)
    · exact .refl t
  · rw [← Except.ok.inj h]
    split_ifs
    · refine .mono ?_ hanswers
      exact (Speaks.refl t).send (Message.opcode?_ofOpcode .name _ _) (by decide)
    · exact .refl t
  · rename_i ho
    exact absurd ho hassign
  · rename_i ho
    split_ifs at h with hnamed
    · have hreplies : repliesTo t.config m =
          match m.opcode? with
          | some .rqnpn => [.paran]
          | some .rqsd => [.sd]
          | _ => [] := if_pos hnamed
      unfold handleNamed at h
      split at h
      · rw [hreplies, ho]
        exact Except.ok.inj h ▸ (speaks_answerParameter c m t).mono (List.subset_append_left _ _)
      · contradiction
      · contradiction
      · split at h
        · exact Except.ok.inj h ▸ .refl t
        · refine Except.ok.inj h ▸ .mono (.mono (speaks_obeyMode _ _ t) ?_) hanswers
          decide
      · rw [hreplies, ho]
        exact Except.ok.inj h ▸ (speaks_answerServices c m t).mono (by decide)
      · exact Except.ok.inj h ▸ speaks_answerDiagnostics c m t
      · exact Except.ok.inj h ▸ .refl t
    · exact Except.ok.inj h ▸ .refl t

theorem speaks_handle (h : handle c m t = .ok t') :
    Speaks (repliesTo t.config m ++ reactions) t t' := by
  by_cases ho : m.opcode? = some .snn
  · rw [handle, ho] at h
    refine Except.ok.inj h ▸ (speaks_obeyAssignment m t).mono ?_
    exact List.subset_append_of_subset_right _ (by decide)
  · refine (speaks_handle_of_ne h ho).mono (List.append_subset.2 ⟨?_, ?_⟩)
    · exact List.subset_append_left _ _
    · exact List.subset_append_of_subset_right _ (by decide)

theorem speaks_react (h : react c t = .ok t') :
    Speaks (c.received?.elim [] (repliesTo t.config) ++ reactions) t t' := by
  have hreactions : reactions ⊆ c.received?.elim [] (repliesTo t.config) ++ reactions :=
    List.subset_append_right _ _
  unfold react at h
  split at h
  · refine Except.ok.inj h ▸ .mono (.mono (speaks_advanceMode _ t) ?_) hreactions
    decide
  · refine Except.ok.inj h ▸ .mono (.mono (speaks_renegotiate _ t) ?_) hreactions
    decide
  · rename_i m haction
    rw [show c.received? = some m by rw [Cycle.received?, haction]]
    exact speaks_handle h
  · exact Except.ok.inj h ▸ .refl t

theorem speaks_report {kind : Listing} {number : Nat} (h : report c kind number t = .ok t') :
    Speaks [.paran, .sd] t t' := by
  cases kind with
  | parameters => exact Except.ok.inj h ▸ (Speaks.refl t).reply _ _ _ (by decide)
  | services =>
    obtain ⟨info, _, rfl⟩ := map_eq_ok_iff.1 h
    exact (Speaks.refl t).reply _ _ _ (by decide)

theorem speaks_pollListing (h : pollListing c t = .ok t') : Speaks [.paran, .sd] t t' := by
  unfold pollListing at h
  split at h
  · exact Except.ok.inj h ▸ .refl t
  · dsimp only at h
    split at h
    · exact Except.ok.inj h ▸ .same rfl rfl rfl
    · refine Speaks.trans ?_ (speaks_report h)
      exact .same rfl rfl rfl

/-- What the service says when its time has come, its long answer apart. -/
theorem speaks_times (c : Cycle) (t : Turn MinimumNode) :
    Speaks [.nnack, .heartb] t (pollHeartbeat c.now c.timing.heartbeatInterval
      (pollNegotiation c.now c.timing.negotiationLimit t)) :=
  ((speaks_pollNegotiation _ _ t).mono (by decide)).trans
    ((speaks_pollHeartbeat _ _ _).mono (by decide))

/-- The turn of the service until it comes to its long answer. -/
def prepare (c : Cycle) (t : Turn MinimumNode) : Except Halt (Turn MinimumNode) :=
  (react c (noteStart c t)).map fun t =>
    pollHeartbeat c.now c.timing.heartbeatInterval
      (pollNegotiation c.now c.timing.negotiationLimit t)

theorem turn_eq_ok_iff :
    turn c t = .ok t' ↔ ∃ u, prepare c t = .ok u ∧ pollListing c u = .ok t' := by
  rw [turn_eq, bind_eq_ok_iff]
  constructor
  · rintro ⟨u, hu, h⟩
    exact ⟨_, map_eq_ok_iff.2 ⟨u, hu, rfl⟩, h⟩
  · rintro ⟨_, hprepare, h⟩
    obtain ⟨u, hu, rfl⟩ := map_eq_ok_iff.1 hprepare
    exact ⟨u, hu, h⟩

theorem speaks_prepare (h : prepare c t = .ok t') :
    Speaks (c.received?.elim [] (repliesTo t.config) ++ signals) t t' := by
  obtain ⟨u, hu, rfl⟩ := map_eq_ok_iff.1 h
  have hreact : Speaks (c.received?.elim [] (repliesTo t.config) ++ signals) t u := by
    refine .mono (.trans ?_ (speaks_react (t := noteStart c t) hu)) ?_
    · exact .same rfl rfl rfl
    · exact List.append_subset.2 ⟨List.subset_append_left _ _,
        List.subset_append_of_subset_right _ (by decide)⟩
  refine hreact.trans (.mono ?_ (List.subset_append_right _ _))
  exact (speaks_times c u).mono (by decide)

theorem speaks_turn (h : turn c t = .ok t') : Speaks vocabulary t t' := by
  obtain ⟨u, hu, h⟩ := turn_eq_ok_iff.1 h
  refine (Speaks.mono (speaks_prepare hu) ?_).trans
    ((speaks_pollListing h).mono (List.subset_append_left _ _))
  exact List.append_subset.2
    ⟨List.subset_append_of_subset_left _ (elim_repliesTo_subset c t.config),
      List.subset_append_right _ _⟩

end MinimumNode

/-! ## Variable access -/

namespace VariableAccess

/-- The opcodes of the service. -/
def vocabulary : List Opcode := [.nvans]

/-- The opcodes of long answers with which a message is answered. -/
def repliesTo (d : Configuration) (m : Message) : List Opcode :=
  if m.names d then
    match m.opcode? with
    | some .nvrd => [.nvans]
    | some .nvsetrd => [.nvans]
    | _ => []
  else []

variable {c : Cycle} {m : Message} {t t' : Turn VariableAccess}

theorem repliesTo_subset (d : Configuration) (m : Message) : repliesTo d m ⊆ vocabulary := by
  unfold repliesTo
  split_ifs
  · split
    · exact List.Subset.refl _
    · exact List.Subset.refl _
    · exact List.nil_subset _
  · exact List.nil_subset _

theorem speaks_sendVariable {index : Nat} (h : sendVariable index t = .ok t') :
    Speaks vocabulary t t' := by
  obtain ⟨value, _, rfl⟩ := map_eq_ok_iff.1 h
  exact (Speaks.refl t).reply _ _ _ (by decide)

theorem speaks_answerRead (c : Cycle) (m : Message) (t : Turn VariableAccess) :
    Speaks vocabulary t (answerRead c m t) := by
  unfold answerRead sendValue
  split
  · exact (Speaks.refl t).refuse _ _ _
  · split_ifs
    · refine .reply ?_ _ _ _ (by decide)
      exact .same rfl rfl rfl
    · split
      · exact (Speaks.refl t).reply _ _ _ (by decide)
      · exact (Speaks.refl t).refuse _ _ _

theorem speaks_obeyWrite {os : List Opcode} {command : Opcode}
    {andThen : Nat → Turn VariableAccess → Except Halt (Turn VariableAccess)}
    (hthen : ∀ {index : Nat} {u u' : Turn VariableAccess}, andThen index u = .ok u' →
      Speaks os u u')
    (h : obeyWrite command m andThen t = .ok t') : Speaks os t t' := by
  unfold obeyWrite at h
  split at h
  · split at h
    · refine Speaks.trans ?_ (hthen h)
      exact .same rfl rfl rfl
    · exact Except.ok.inj h ▸ (Speaks.refl t).refuse _ _ _
  · exact Except.ok.inj h ▸ (Speaks.refl t).refuse _ _ _

theorem speaks_handle (h : handle c m t = .ok t') : Speaks (repliesTo t.config m) t t' := by
  unfold handle at h
  rw [isNamedBy_eq] at h
  split_ifs at h with hnamed
  · rw [repliesTo, if_pos hnamed]
    split at h
    · rename_i ho
      rw [ho]
      exact Except.ok.inj h ▸ speaks_answerRead c m t
    · exact speaks_obeyWrite (fun h => Except.ok.inj h ▸
        (Speaks.refl _).reply _ _ _ (List.mem_append_right _ (by decide))) h
    · rename_i ho
      rw [ho]
      exact speaks_obeyWrite speaks_sendVariable h
    · exact Except.ok.inj h ▸ .refl t
  · exact Except.ok.inj h ▸ .refl t

theorem speaks_pollListing (h : pollListing c t = .ok t') : Speaks vocabulary t t' := by
  unfold pollListing at h
  split at h
  · exact Except.ok.inj h ▸ .refl t
  · dsimp only at h
    split at h
    · exact Except.ok.inj h ▸ .same rfl rfl rfl
    · refine Speaks.trans ?_ (speaks_sendVariable h)
      exact .same rfl rfl rfl

/-- The turn of the service until it comes to its long answer. -/
def prepare (c : Cycle) (t : Turn VariableAccess) : Except Halt (Turn VariableAccess) :=
  c.received?.elim (.ok t) (handle c · t)

theorem turn_eq_ok_iff :
    turn c t = .ok t' ↔ ∃ u, prepare c t = .ok u ∧ pollListing c u = .ok t' := by
  unfold turn prepare
  rcases c.received? with _ | m
  · constructor
    · intro h
      exact ⟨t, rfl, h⟩
    · rintro ⟨u, hu, h⟩
      rwa [Except.ok.inj hu]
  · exact bind_eq_ok_iff

theorem speaks_prepare (h : prepare c t = .ok t') :
    Speaks (c.received?.elim [] (repliesTo t.config)) t t' := by
  unfold prepare at h
  rcases hm : c.received? with _ | m
  · rw [hm] at h
    exact Except.ok.inj h ▸ .refl t
  · rw [hm] at h
    exact speaks_handle h

theorem speaks_turn (h : turn c t = .ok t') : Speaks vocabulary t t' := by
  obtain ⟨u, hu, h⟩ := turn_eq_ok_iff.1 h
  refine (Speaks.mono (speaks_prepare hu) ?_).trans (speaks_pollListing h)
  rcases c.received? with _ | m
  · exact List.nil_subset _
  · exact repliesTo_subset t.config m

end VariableAccess

/-! ## Teaching -/

namespace Teaching

/-- The opcodes of the service, those of its long answers apart. -/
def signals : List Opcode := [.evnlf, .numev]

/-- The opcodes of the service. -/
def vocabulary : List Opcode := [.enrsp, .evans, .neval] ++ signals

/-- The opcodes of long answers with which a message is answered. -/
def repliesTo (d : Configuration) (m : Message) : List Opcode :=
  match m.opcode? with
  | some .reqev => if d.learning then [.evans] else []
  | some .nenrd => if m.names d then [.enrsp] else []
  | some .reval => if m.names d then [.neval] else []
  | _ => []

variable {c : Cycle} {m : Message} {t t' : Turn Teaching}

theorem repliesTo_subset (d : Configuration) (m : Message) :
    repliesTo d m ⊆ [.enrsp, .evans, .neval] := by
  unfold repliesTo
  split
  · split_ifs <;> simp
  · split_ifs <;> simp
  · split_ifs <;> simp
  · exact List.nil_subset _

theorem speaks_sendEvent (slot : Nat) (t : Turn Teaching) :
    Speaks [.enrsp] t (sendEvent slot t) := by
  unfold sendEvent
  split
  · exact (Speaks.refl t).reply _ _ _ (by decide)
  · exact .refl t

theorem speaks_sendVariable (slot : Nat) (index value : UInt8) (t : Turn Teaching) :
    Speaks [.evans] t (sendVariable slot index value t) := by
  unfold sendVariable
  split
  · exact (Speaks.refl t).send (Message.opcode?_addressed .evans _ _ _) (by decide)
  · exact .refl t

theorem speaks_sendSlotVariable (slot : Nat) (index value : UInt8) (t : Turn Teaching) :
    Speaks [.neval] t (sendSlotVariable slot index value t) :=
  (Speaks.refl t).reply _ _ _ (by decide)

theorem speaks_startListing {os : List Opcode} (now : Time) (kind : EventListing)
    (first stop : Nat) (t : Turn Teaching) : Speaks os t (startListing now kind first stop t) :=
  .same rfl rfl rfl

theorem speaks_teachVariable {os : List Opcode} {slot index : Nat} {value : UInt8}
    (h : teachVariable slot index value t = .ok t') : Speaks os t t' := by
  obtain ⟨d, _, h⟩ := bind_eq_ok_iff.1 h
  rw [← Except.ok.inj h]
  refine .put_other (.confirm ?_ _ _) _ rfl rfl
  exact .same rfl rfl rfl

theorem speaks_learnEvent {os : List Opcode} {slot : Nat} {e : EventId}
    (h : learnEvent slot e t = .ok t') : Speaks os t t' := by
  obtain ⟨d, _, h⟩ := bind_eq_ok_iff.1 h
  exact Except.ok.inj h ▸ .same rfl rfl rfl

theorem speaks_learn {os : List Opcode} (h : learn m t = .ok t') : Speaks os t t' := by
  unfold learn at h
  split at h
  · split_ifs at h
    · exact Except.ok.inj h ▸ (Speaks.refl t).refuse _ _ _
    · split at h
      · exact speaks_teachVariable h
      · split at h
        · obtain ⟨u, hu, h⟩ := bind_eq_ok_iff.1 h
          exact (speaks_learnEvent hu).trans (speaks_teachVariable h)
        · exact Except.ok.inj h ▸ (Speaks.refl t).refuse _ _ _
  · exact Except.ok.inj h ▸ (Speaks.refl t).refuse _ _ _

theorem speaks_unlearn {os : List Opcode} (h : unlearn m t = .ok t') : Speaks os t t' := by
  unfold unlearn at h
  split at h
  · split at h
    · obtain ⟨d, _, h⟩ := bind_eq_ok_iff.1 h
      rw [← Except.ok.inj h]
      refine .put_other (.confirm ?_ _ _) _ rfl rfl
      exact .same rfl rfl rfl
    · exact Except.ok.inj h ▸ (Speaks.refl t).refuse _ _ _
  · exact Except.ok.inj h ▸ (Speaks.refl t).refuse _ _ _

theorem speaks_answerVariable (c : Cycle) (m : Message) (t : Turn Teaching) :
    Speaks [.evans] t (answerVariable c m t) := by
  unfold answerVariable
  split
  · split
    · exact (Speaks.refl t).refuse _ _ _
    · split_ifs
      · exact (speaks_sendVariable _ _ _ t).trans (speaks_startListing _ _ _ _ _)
      · split
        · exact speaks_sendVariable _ _ _ t
        · exact (Speaks.refl t).refuse _ _ _
  · exact (Speaks.refl t).refuse _ _ _

theorem speaks_answerEvent (m : Message) (t : Turn Teaching) :
    Speaks [.enrsp] t (answerEvent m t) := by
  unfold answerEvent
  split
  · exact (Speaks.refl t).refuse _ _ _
  · split_ifs
    · exact (Speaks.refl t).refuse _ _ _
    · exact speaks_sendEvent _ t

theorem speaks_answerSlotVariable (c : Cycle) (m : Message) (t : Turn Teaching) :
    Speaks [.neval] t (answerSlotVariable c m t) := by
  unfold answerSlotVariable
  split
  · split_ifs
    · exact (Speaks.refl t).refuse _ _ _
    · exact (speaks_sendSlotVariable _ _ _ t).trans (speaks_startListing _ _ _ _ _)
    · split
      · exact speaks_sendSlotVariable _ _ _ t
      · exact (Speaks.refl t).refuse _ _ _
      · exact (Speaks.refl t).refuse _ _ _
  · exact (Speaks.refl t).refuse _ _ _

theorem speaks_handleNamed (c : Cycle) {o : Opcode} (ho : m.opcode? = some o) (t : Turn Teaching)
    (hnamed : t.isNamedBy m = true) :
    Speaks (repliesTo t.config m ++ signals) t (handleNamed c m o t) := by
  have hnamed : m.names t.config = true := hnamed
  unfold handleNamed
  split
  · exact (Speaks.refl t).configure _
  · unfold obeyMode
    split
    · exact (Speaks.refl t).configure _
    · exact (Speaks.refl t).configure _
    · exact .refl t
  · unfold clear
    split_ifs
    · exact ((Speaks.refl t).configure _).confirm _ _
    · exact (Speaks.refl t).refuse _ _ _
  · refine .mono (?_ : Speaks signals t _) (List.subset_append_right _ _)
    exact (Speaks.refl t).reply _ _ _ (by decide)
  · refine .mono (?_ : Speaks signals t _) (List.subset_append_right _ _)
    exact (Speaks.refl t).reply _ _ _ (by decide)
  · exact speaks_startListing _ _ _ _ t
  · refine (speaks_answerEvent m t).mono ?_
    rw [repliesTo, ho]
    dsimp only
    rw [if_pos hnamed]
    exact List.subset_append_left _ _
  · refine (speaks_answerSlotVariable c m t).mono ?_
    rw [repliesTo, ho]
    dsimp only
    rw [if_pos hnamed]
    exact List.subset_append_left _ _
  · exact .refl t

theorem speaks_handle (h : handle c m t = .ok t') :
    Speaks (repliesTo t.config m ++ signals) t t' := by
  unfold handle at h
  split at h
  · exact Except.ok.inj h ▸ .refl t
  · rw [← Except.ok.inj h]
    unfold yieldLearning
    split_ifs
    · exact (Speaks.refl t).configure _
    · exact (Speaks.refl t).configure _
    · exact .refl t
  · split_ifs at h
    · exact speaks_learn h
    · exact Except.ok.inj h ▸ .refl t
  · split_ifs at h
    · exact speaks_unlearn h
    · exact Except.ok.inj h ▸ .refl t
  · rename_i ho
    rw [← Except.ok.inj h]
    split_ifs with hlearning
    · refine (speaks_answerVariable c m t).mono ?_
      rw [repliesTo, ho]
      dsimp only
      rw [if_pos hlearning]
      exact List.subset_append_left _ _
    · exact .refl t
  · rename_i ho
    rw [← Except.ok.inj h]
    split_ifs with hnamed
    · exact speaks_handleNamed c ho t hnamed
    · exact .refl t

theorem speaks_report (kind : EventListing) (number : Nat) (t : Turn Teaching) :
    Speaks [.enrsp, .evans, .neval] t (report kind number t) := by
  cases kind with
  | events => exact (speaks_sendEvent _ t).mono (by simp)
  | eventVariables slot => exact (speaks_sendVariable _ _ _ t).mono (by simp)
  | slotVariables slot => exact (speaks_sendSlotVariable _ _ _ t).mono (by simp)

theorem speaks_pollListing (c : Cycle) (t : Turn Teaching) :
    Speaks [.enrsp, .evans, .neval] t (pollListing c t) := by
  unfold pollListing
  split
  · exact .refl t
  · dsimp only
    split
    · exact .same rfl rfl rfl
    · refine Speaks.trans ?_ (speaks_report _ _ _)
      exact .same rfl rfl rfl

/-- The turn of the service until it comes to its long answer. -/
def prepare (c : Cycle) (t : Turn Teaching) : Except Halt (Turn Teaching) :=
  c.received?.elim (.ok t) (handle c · t)

theorem turn_eq_ok_iff : turn c t = .ok t' ↔ ∃ u, prepare c t = .ok u ∧ pollListing c u = t' := by
  unfold turn prepare
  rcases c.received? with _ | m
  · constructor
    · intro h
      exact ⟨t, rfl, Except.ok.inj h⟩
    · rintro ⟨u, hu, rfl⟩
      rw [Except.ok.inj hu]
  · exact map_eq_ok_iff

theorem speaks_prepare (h : prepare c t = .ok t') :
    Speaks (c.received?.elim [] (repliesTo t.config) ++ signals) t t' := by
  unfold prepare at h
  rcases hm : c.received? with _ | m
  · rw [hm] at h
    exact Except.ok.inj h ▸ .refl t
  · rw [hm] at h
    exact speaks_handle h

theorem speaks_turn (h : turn c t = .ok t') : Speaks vocabulary t t' := by
  obtain ⟨u, hu, rfl⟩ := turn_eq_ok_iff.1 h
  refine (Speaks.mono (speaks_prepare hu) ?_).trans
    ((speaks_pollListing c u).mono (List.subset_append_left _ _))
  refine List.append_subset.2 ⟨?_, List.subset_append_right _ _⟩
  rcases c.received? with _ | m
  · exact List.nil_subset _
  · exact List.Subset.trans (repliesTo_subset t.config m) (List.subset_append_left _ _)

end Teaching

/-! ## The services about events and long messages -/

theorem EventConsumer.speaks_turn (c : Cycle) (t : Turn EventConsumer) :
    Speaks [] t (turn c t) := by
  unfold turn
  split_ifs
  · split
    · exact .refl t
    · exact .same rfl rfl rfl
  · exact .refl t

theorem EventAcknowledge.speaks_turn (c : Cycle) (t : Turn EventAcknowledge) :
    Speaks [.enrsp] t (turn c t) := by
  unfold turn
  split
  · exact .refl t
  · split_ifs
    · unfold obeyMode
      split
      · exact (Speaks.refl t).configure _
      · exact (Speaks.refl t).configure _
      · exact .refl t
    · unfold acknowledge
      split_ifs
      · split
        · exact .refl t
        · refine .reply ?_ _ _ _ (by decide)
          exact .same rfl rfl rfl
      · exact .refl t

/-- The opcodes of the messages that are still to be sent. -/
def LongMessage.vocabulary (s : LongMessage) : List Opcode :=
  s.transmission.pending.filterMap Message.opcode?

theorem LongMessage.speaks_turn (c : Cycle) (t : Turn LongMessage) :
    Speaks t.self.vocabulary t (turn c t) := by
  unfold turn Transmission.poll
  rcases hpending : t.self.transmission.pending with _ | ⟨m, rest⟩
  · exact .same rfl rfl rfl
  · dsimp only
    split_ifs
    · exact .same rfl rfl rfl
    · refine .put ?_ ⟨rfl, fun o ho => ?_⟩
      · exact .same rfl rfl rfl
      · refine List.mem_append_left _ (List.mem_filterMap.2 ⟨m, ?_, beq_iff_eq.1 ho⟩)
        rw [hpending]
        exact List.mem_cons_self

/-! ## Reporters -/

namespace Reporter

/-- The opcodes of a reporter. -/
def vocabulary : List Opcode := [.dgn]

/-- The opcodes of long answers with which a message is answered. -/
def repliesTo (d : Configuration) (m : Message) : List Opcode :=
  if m.opcode? = some .rdgn ∧ m.names d then [.dgn] else []

theorem speaks_sendValue (c : Cycle) (service : Service) (position code : Nat)
    (t : Turn Reporter) : Speaks vocabulary t (sendValue c service position code t) :=
  (Speaks.refl t).reply _ _ _ (by decide)

theorem speaks_answer (c : Cycle) (service : Service) (position index code : Nat)
    (t : Turn Reporter) : Speaks vocabulary t (answer c service position index code t) := by
  unfold answer
  split_ifs
  · exact .refl t
  · exact .refl t
  · exact .same rfl rfl rfl
  · exact speaks_sendValue _ _ _ _ t
  · exact .refl t
  · exact (Speaks.refl t).respond _ _ _

theorem speaks_handle (c : Cycle) (service : Service) (position : Nat) (m : Message)
    (t : Turn Reporter) : Speaks (repliesTo t.config m) t (handle c service position m t) := by
  unfold handle repliesTo
  rw [isNamedBy_eq]
  split_ifs
  · split
    · exact speaks_answer _ _ _ _ _ t
    · exact .refl t
  · exact .refl t

theorem speaks_pollListing (c : Cycle) (service : Service) (position : Nat) (t : Turn Reporter) :
    Speaks vocabulary t (pollListing c service position t) := by
  unfold pollListing
  split
  · exact .refl t
  · dsimp only
    split
    · exact .same rfl rfl rfl
    · refine Speaks.trans ?_ (speaks_sendValue _ _ _ _ _)
      exact .same rfl rfl rfl

/-- The turn of the reporter until it comes to its long answer. -/
def prepare (c : Cycle) (service : Service) (position : Nat) (t : Turn Reporter) :
    Turn Reporter :=
  c.received?.elim t (handle c service position · t)

theorem turn_eq (c : Cycle) (service : Service) (position : Nat) (t : Turn Reporter) :
    turn c service position t =
      pollListing c service position (prepare c service position t) := by
  unfold turn prepare
  rcases c.received? with _ | m <;> rfl

theorem speaks_prepare (c : Cycle) (service : Service) (position : Nat) (t : Turn Reporter) :
    Speaks (c.received?.elim [] (repliesTo t.config)) t (prepare c service position t) := by
  unfold prepare
  rcases c.received? with _ | m
  · exact .refl t
  · exact speaks_handle c service position m t

theorem speaks_turn (c : Cycle) (service : Service) (position : Nat) (t : Turn Reporter) :
    Speaks vocabulary t (turn c service position t) := by
  rw [turn_eq]
  refine (Speaks.mono (speaks_prepare c service position t) ?_).trans
    (speaks_pollListing c service position _)
  rcases c.received? with _ | m
  · exact List.nil_subset _
  · show repliesTo t.config m ⊆ vocabulary
    unfold repliesTo
    split_ifs
    · exact List.Subset.refl _
    · exact List.nil_subset _

end Reporter

/-! ## Bus access -/

namespace BusAccess

/-- The opcodes of the service. -/
def vocabulary : List Opcode := [.nnack]

theorem exists_busAccess {s : Service} (h : s.id = .busAccess) : ∃ x, s = .busAccess x := by
  cases s with
  | busAccess x => exact ⟨x, rfl⟩
  | _ => exact absurd h (by simp only [Service.id]; decide)

theorem queues_adopt {os : List Opcode} (a : BusAddress) (t : Turn BusAccess) :
    Queues os t (adopt a t) :=
  .same rfl rfl

theorem queues_handle (m : Message) (t : Turn BusAccess) : Queues vocabulary t (handle m t) := by
  unfold handle obeyAssignment
  split
  · split_ifs
    · exact .put (.same rfl rfl) (Action.isWithin_of_transmitted?_eq_none rfl)
    · exact .same rfl rfl
  · split_ifs
    · split
      · exact ((queues_adopt _ t).reply _ _ _ (by decide)).reply _ _ _ (by decide)
      · exact .reply (.reply (.same rfl rfl) _ _ _ (by decide)) _ _ _ (by decide)
    · exact .same rfl rfl
  · exact .same rfl rfl

theorem queues_startSearch {os : List Opcode} (now : Time) (forPeer : Bool) (t : Turn BusAccess) :
    Queues os t (startSearch now forPeer t) := by
  unfold startSearch
  split
  · exact .same rfl rfl
  · refine .offer ?_ _
    exact .same rfl rfl

theorem queues_startRequired {os : List Opcode} (now : Time) (t : Turn BusAccess) :
    Queues os t (startRequired now t) := by
  unfold startRequired
  split_ifs
  · refine Queues.trans ?_ (queues_startSearch _ _ _)
    exact .same rfl rfl
  · exact .same rfl rfl

theorem queues_handleEmpty {os : List Opcode} (remote : Bool) (sender : BusAddress)
    (t : Turn BusAccess) : Queues os t (handleEmpty remote sender t) := by
  unfold handleEmpty
  dsimp only
  split_ifs
  · refine .offer ?_ _
    exact .same rfl rfl
  · exact .same rfl rfl

theorem queues_handleData {os : List Opcode} (sender : BusAddress) (m : Message)
    (t : Turn BusAccess) : Queues os t (handleData sender m t) := by
  refine .put ?_ (Action.isWithin_of_transmitted?_eq_none rfl)
  exact .same rfl rfl

theorem queues_handleFrame {os : List Opcode} (f : Frame) (t : Turn BusAccess) :
    Queues os t (handleFrame f t) := by
  unfold handleFrame
  split
  · exact .same rfl rfl
  · split_ifs
    · exact queues_handleEmpty _ _ t
    · exact .same rfl rfl
    · exact queues_handleData _ _ t

theorem queues_receive {os : List Opcode} (t : Turn BusAccess) : Queues os t (receive t) := by
  unfold receive
  split
  · exact .same rfl rfl
  · refine Queues.trans ?_ (queues_handleFrame _ _)
    exact .same rfl rfl

theorem queues_finishSearch (now window : Time) (t : Turn BusAccess) :
    Queues vocabulary t (finishSearch now window t) := by
  unfold finishSearch
  split
  · exact .same rfl rfl
  · dsimp only
    split_ifs
    · refine .reply (Queues.trans ?_ (queues_adopt _ _)) _ _ _ (by decide)
      exact .same rfl rfl
    · refine Queues.trans ?_ (queues_adopt _ _)
      exact .same rfl rfl

theorem queues_react (c : Cycle) (t : Turn BusAccess) : Queues vocabulary t (react c t) := by
  unfold react
  split
  · exact .same rfl rfl
  · exact queues_startSearch _ _ t
  · exact queues_handle _ t
  · exact .same rfl rfl

theorem queues_turn (c : Cycle) (t : Turn BusAccess) : Queues vocabulary t (turn c t) :=
  ((queues_react c t).trans (queues_startRequired _ _)).trans
    ((queues_receive _).trans (queues_finishSearch _ _ _))

end BusAccess

/-! ## All services -/

namespace Service

/-- The opcodes of a service. -/
def vocabulary : Service → List Opcode
  | minimumNode _ => MinimumNode.vocabulary
  | busAccess _ => BusAccess.vocabulary
  | nodeVariables _ => VariableAccess.vocabulary
  | teaching _ => Teaching.vocabulary
  | consumer _ => []
  | producer _ => []
  | acknowledge _ => [.enrsp]
  | longMessage s => s.vocabulary

variable {c : Cycle} {t t' : Turn Service}

/-- A service other than bus access speaks through the queue. -/
theorem speaks_turn (h : turn c t = .ok t') (hid : t.self.id ≠ .busAccess) :
    Speaks t.self.vocabulary t t' := by
  unfold turn at h
  split at h
  all_goals rename_i s hs; rw [hs]
  · obtain ⟨u, hu, rfl⟩ := map_eq_ok_iff.1 h
    exact (MinimumNode.speaks_turn hu).map _
  · rw [hs] at hid
    exact absurd rfl hid
  · obtain ⟨u, hu, rfl⟩ := map_eq_ok_iff.1 h
    exact (VariableAccess.speaks_turn hu).map _
  · obtain ⟨u, hu, rfl⟩ := map_eq_ok_iff.1 h
    exact (Teaching.speaks_turn hu).map _
  · exact Except.ok.inj h ▸ (EventConsumer.speaks_turn c _).map _
  · exact Except.ok.inj h ▸ .refl t
  · exact Except.ok.inj h ▸ (EventAcknowledge.speaks_turn c _).map _
  · exact Except.ok.inj h ▸ (LongMessage.speaks_turn c _).map _

/-- Every turn puts in the queue what its trace tells. -/
theorem queues_turn (h : turn c t = .ok t') : Queues t.self.vocabulary t t' := by
  by_cases hid : t.self.id = .busAccess
  · obtain ⟨s, hs⟩ := BusAccess.exists_busAccess hid
    unfold turn at h
    rw [hs] at h ⊢
    exact Except.ok.inj h ▸ (BusAccess.queues_turn c _).map _
  · exact (speaks_turn h hid).queues

end Service

end RailNode
