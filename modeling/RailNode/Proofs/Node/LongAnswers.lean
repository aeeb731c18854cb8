import Mathlib.Data.List.Nodup
import RailNode.Proofs.Node.MessageOrder
import RailNode.Proofs.Node.Silence

/-
  Long answers over the life of a node. Once a request has been heard, every round polls the long
  answer once, so its replies come one by one, in order and with a gap between them, each with the
  value of its moment, and nothing else is queued that looks like them. The queue needs room for two
  of them, or for the diagnostics of all services, whatever the clock does (`conducted_of_run`).
-/
namespace RailNode.Node

open Series

/-! ## What rounds tell -/

namespace Round

/-- What a speaker has before it in a round when it comes to its long answer. -/
def stage? (σ : Speaker) (r : Round) : Option Stage := r.node.stage? σ r.now

/-- The long answer that a speaker is asked for in a round. -/
def asked? (σ : Speaker) (r : Round) : Option LongAnswer := (r.stage? σ).bind (·.asked? σ)

/-- What a speaker queues in a round. -/
def said (σ : Speaker) (r : Round) : List Action := r.node.saidBy σ r.outcome

/-- The announcement of a long answer in the round in which it is asked for. -/
def announcement (a : LongAnswer) (r : Round) : List Action :=
  match r.stage? a.speaker with
  | some st =>
    if st.asked? a.speaker = some a then ((a.announcement? st).map Action.transmit).toList else []
  | none => []

/-- The replies of a long answer in a round: what its speaker queues after everything else. -/
def replies (a : LongAnswer) (r : Round) : List Action :=
  (r.said a.speaker).drop ((r.stage? a.speaker).elim 0 (·.said.length))

/-- How many actions are queued in a round for these long answers. -/
def share (as : List LongAnswer) (r : Round) : Nat :=
  (as.map fun a => (r.announcement a ++ r.replies a).length).sum

/-- How many actions are queued in a round that do not belong to these long answers. -/
def others (as : List LongAnswer) (r : Round) : Nat := r.outcome.queued.length - r.share as

/-- The round is a call for a long answer: the reply with the number of the call is queued, if it
    has a number, with the value of this moment. Apart from that and from the announcement, nothing
    that looks like a part of the long answer is queued, unless a message is answered at once with
    the opcode of the replies. What long message services send are parts of long messages as long as
    the node runs (`hasFragments_of_run`). -/
structure Serves (a : LongAnswer) (r : Round) (call : Call) : Prop where
  now : call.now = r.now
  replies : ∃ st, r.stage? a.speaker = some st ∧
    Replies (a.item? st ·) st.said call.number (r.said a.speaker)
  alone : r.node.HasFragments → ∀ st, r.stage? a.speaker = some st →
    (r.asked? a.speaker = some a ∨
      ∀ m, r.offered? = some m → a.reply ∉ a.repliesTo st.opening m) →
    r.outcome.queued.filter (a.owns st.position) = r.announcement a ++ r.replies a

end Round

/-! ## One long answer -/

variable {n m : Node} {inputs : List Input} {events : List Event} {a : LongAnswer}

namespace Round

variable {r : Round}

/-- What a speaker has queued before it comes to its long answer looks like a part of it only if it
    is the announcement. -/
theorem filter_owns_said {st : Stage} {before after : Option (Series LongAnswer)}
    {said : List Action} (hconducts : Conducts a.speaker before st after said)
    (hst : r.stage? a.speaker = some st) (hquiet : st.asked? a.speaker = some a ∨
      ∀ m, st.cycle.received? = some m → a.reply ∉ a.repliesTo st.opening m) :
    st.said.filter (a.owns st.position) = r.announcement a := by
  unfold announcement
  rw [hst]
  dsimp only
  by_cases hasked : st.asked? a.speaker = some a
  · rw [if_pos hasked]
    exact LongAnswer.filter_owns_of_sent (hconducts.announced a hasked)
  · rw [if_neg hasked]
    exact LongAnswer.filter_owns_of_sent_nil (hconducts.quiet a rfl (hquiet.resolve_left hasked))

/-- A round is a call for a long answer. -/
theorem exists_serves {N : Nat} {started : Time} {calls : List Call} {st : Stage}
    (hids : (r.node.entries.map (·.service.id)).Nodup)
    (hone : r.node.HasOne a.speaker.id) (hcycle : r.node.cycle r.now = .ok r.outcome)
    (hevents : a ≠ .events) (hwithin : a.IsWithin r.node.config.layout)
    (hst : r.stage? a.speaker = some st) (hcount : a.count st = N)
    (hstands : Stands a r.node.timing.replyGap N started calls st.left)
    (hstarted : started ≤ r.now) (hlast : r.now + r.node.timing.replyGap ≤ Time.last) :
    ∃ call, r.Serves a call ∧ Stands a r.node.timing.replyGap N started (calls ++ [call])
      (r.outcome.node.left? a.speaker) := by
  obtain ⟨st', hst', hconducts⟩ := exists_conducts (a := a) rfl hone hcycle
  obtain rfl : st' = st := Option.some.inj (hst'.symm.trans hst)
  obtain ⟨hfacts, hposition, hlayout, -⟩ := stage?_eq_some hst'
  have hkind : ∀ s, st'.left = some s → s.kind = a ∧ s.Within (a.count st') := by
    intro s hs
    obtain ⟨hnext, hstop⟩ := hstands.next s hs
    exact ⟨hstands.kind s hs, by rw [hnext]; exact Nat.le_add_left 1 _, by rw [hstop, hcount]⟩
  obtain ⟨hafter, hreplies⟩ := hconducts.polled a rfl hevents (hlayout ▸ hwithin) hkind
  have hpoll := hstands.poll hstarted hlast
  have hreceived : st'.cycle.received? = r.offered? := by
    rw [hfacts, received?_facts]
    rfl
  rw [hfacts] at hafter hreplies
  refine ⟨⟨r.now, _⟩, ⟨rfl, ⟨st', hst, hreplies⟩, ?_⟩, ?_⟩
  · intro hfragments st hst'' hquiet
    obtain rfl : st = st' := Option.some.inj (hst''.symm.trans hst)
    rw [asked?, hst, Option.bind_some, ← hreceived] at hquiet
    rw [filter_queued hids hfragments hone hevents hcycle hposition, Round.replies, hst,
      ← filter_owns_said hconducts hst hquiet]
    exact LongAnswer.filter_owns_of_replies hreplies
  · rw [hafter]
    exact hpoll

end Round

/-- What the length of a long answer depends on is the same in two nodes. -/
structure SameShape (n m : Node) : Prop where
  ids : m.entries.map (·.service.id) = n.entries.map (·.service.id)
  layout : m.config.layout = n.config.layout
  timing : m.timing = n.timing

theorem Moves.sameShape {now : List Event} (h : n.Moves m now) : n.SameShape m where
  ids := h.ids
  layout := by
    rcases h.sameCore with ⟨hcore, _⟩ | ⟨t, o, hcycle, rfl, _⟩
    · rw [hcore.config]
    · exact (edits_cycle hcycle).changesOnly.layout
  timing := h.timing

namespace SameShape

theorem trans {m' : Node} (h : n.SameShape m) (h' : m.SameShape m') : n.SameShape m' :=
  ⟨h'.ids.trans h.ids, h'.layout.trans h.layout, h'.timing.trans h.timing⟩

theorem hasOne {id : ServiceId} (h : n.SameShape m) (hn : n.HasOne id) : m.HasOne id := by
  rw [HasOne, h.ids]
  exact hn

theorem count_eq (h : n.SameShape m) {σ : Speaker} {now now' : Time} {st st' : Stage}
    (hst : n.stage? σ now = some st) (hst' : m.stage? σ now' = some st') :
    a.count st' = a.count st := by
  obtain ⟨hcycle, -, hlayout, hid⟩ := stage?_eq_some hst
  obtain ⟨hcycle', -, hlayout', hid'⟩ := stage?_eq_some hst'
  refine a.count_eq ?_ (by rw [hlayout, hlayout', h.layout]) (hid'.trans hid.symm)
  have hlength := congrArg List.length h.ids
  rw [hcycle, hcycle']
  simpa [facts, services] using hlength

end SameShape

/-- In a run without another request for it a long answer goes on as it stands. -/
theorem exists_calls_of_run {N : Nat} {started t : Time} {calls : List Call} {n₀ : Node}
    {st : Stage} (hids : (n₀.entries.map (·.service.id)).Nodup)
    (hst : n₀.stage? a.speaker t = some st) (hcount : a.count st = N)
    (hone : n₀.HasOne a.speaker.id) (hevents : a ≠ .events)
    (hwithin : a.IsWithin n₀.config.layout) (hshape : n₀.SameShape n)
    (h : n.run inputs = some (m, events))
    (hnone : ∀ r ∈ rounds events, r.asked? a.speaker = none)
    (hstarted : ∀ r ∈ rounds events, started ≤ r.now)
    (hlast : ∀ r ∈ rounds events, r.now + n₀.timing.replyGap ≤ Time.last)
    (hstands : Stands a n₀.timing.replyGap N started calls (n.left? a.speaker)) :
    ∃ later, List.Forall₂ (Round.Serves a) (rounds events) later ∧
      Stands a n₀.timing.replyGap N started (calls ++ later) (m.left? a.speaker) := by
  refine (run_induction (P := fun events m => (∀ r ∈ rounds events, r.asked? a.speaker = none ∧
      started ≤ r.now ∧ r.now + n₀.timing.replyGap ≤ Time.last) → n₀.SameShape m ∧
    ∃ later, List.Forall₂ (Round.Serves a) (rounds events) later ∧
      Stands a n₀.timing.replyGap N started (calls ++ later) (m.left? a.speaker)) h ?_ ?_
    fun r hr => ⟨hnone r hr, hstarted r hr, hlast r hr⟩).2
  · exact fun _ => ⟨hshape, [], .nil, by rwa [List.append_nil]⟩
  · intro before now m m' hmoves hbefore hrounds
    rw [rounds_append] at hrounds ⊢
    obtain ⟨hshape, later, hserves, hstands⟩ :=
      hbefore fun r hr => hrounds r (List.mem_append_left _ hr)
    refine ⟨hshape.trans hmoves.sameShape, ?_⟩
    rcases hmoves.sameCore with ⟨_, hnone⟩ | ⟨t', o, hcycle, rfl, rfl⟩
    · rw [hnone, List.append_nil, hmoves.left hnone]
      exact ⟨later, hserves, hstands⟩
    · rw [rounds_round]
      obtain ⟨hnone, hstarted, hlast⟩ := hrounds ⟨t', m, o⟩ (by simp)
      have hone' := hshape.hasOne hone
      obtain ⟨st', hst', hconducts⟩ := exists_conducts (a := a) rfl hone' hcycle
      have hleft : st'.left = m.left? a.speaker := by
        refine hconducts.kept ?_
        rw [Round.asked?, Round.stage?, hst'] at hnone
        exact hnone
      rw [← hleft, ← hshape.timing] at hstands
      rw [← hshape.timing] at hlast
      obtain ⟨call, hcall, hstands'⟩ := Round.exists_serves (r := ⟨t', m, o⟩)
        (hshape.ids ▸ hids) hone' hcycle hevents (hshape.layout ▸ hwithin) hst'
        ((hshape.count_eq hst hst').trans hcount) hstands hstarted hlast
      rw [hshape.timing] at hstands'
      refine ⟨later ++ [call], List.rel_append hserves (.cons hcall .nil), ?_⟩
      rwa [← List.append_assoc]

/-- In these rounds, the first of which asks for it, a long answer is given: each of them is a call
    for it, and its replies keep the pace. -/
def Answers (a : LongAnswer) (gap : Time) (first : Round) (later : List Round) : Prop :=
  ∃ st calls, first.stage? a.speaker = some st ∧
    List.Forall₂ (Round.Serves a) (first :: later) calls ∧ Paced gap (a.count st) calls

theorem hasOne_of_stage? {σ : Speaker} {now : Time} {st : Stage}
    (hids : (n.entries.map (·.service.id)).Nodup) (h : n.stage? σ now = some st) :
    n.HasOne σ.id := by
  obtain ⟨e, he, _⟩ := Option.bind_eq_some_iff.1 h
  have hmem : e ∈ n.entries := List.mem_of_find?_eq_some he
  have hid : (e.service.id == σ.id) = true :=
    List.find?_some (p := fun e : Entry => e.service.id == σ.id) he
  rw [HasOne, ← beq_iff_eq.1 hid]
  exact List.count_eq_one_of_mem hids (List.mem_map_of_mem hmem)

/-- A run that starts with a cycle goes on from what the cycle leaves. -/
theorem first_of_run {t : Time} {first : Round} {since : List Event}
    (h : n.run (.cycle t :: inputs) = some (m, .round first :: since)) :
    ∃ o, first = ⟨t, n, o⟩ ∧ n.cycle t = .ok o ∧ o.node.run inputs = some (m, since) := by
  obtain ⟨between, now, later, hstep, hrun, heq⟩ := run_cons_eq_some h
  obtain ⟨o, ho, hbetween⟩ := Option.map_eq_some_iff.1 hstep
  obtain ⟨rfl, rfl⟩ := Prod.mk.inj hbetween
  obtain ⟨hfirst, rfl⟩ := List.cons.inj heq
  exact ⟨o, Event.round.inj hfirst, toOption_eq_some_iff.1 ho, hrun⟩

/-- A long answer that is asked for in the first round of a run is given over the run. -/
theorem answers_of_run {t : Time} {first : Round} {since : List Event}
    (hids : (n.entries.map (·.service.id)).Nodup)
    (h : n.run (.cycle t :: inputs) = some (m, .round first :: since))
    (hevents : a ≠ .events) (hasked : first.asked? a.speaker = some a)
    (hnone : ∀ r ∈ rounds since, r.asked? a.speaker = none)
    (htimes : ∀ r ∈ rounds since, first.now ≤ r.now)
    (hlast : ∀ r ∈ first :: rounds since, r.now + n.timing.replyGap ≤ Time.last) :
    Answers a n.timing.replyGap first (rounds since) := by
  obtain ⟨o, rfl, hcycle, hrun⟩ := first_of_run h
  obtain ⟨st, hst, hasked⟩ := Option.bind_eq_some_iff.1 hasked
  have hone := hasOne_of_stage? hids hst
  obtain ⟨hfacts, -, hlayout, -⟩ := stage?_eq_some hst
  obtain ⟨st', hst', hconducts⟩ := exists_conducts (a := a) rfl hone hcycle
  obtain rfl : st' = st := Option.some.inj (hst'.symm.trans hst)
  obtain ⟨-, hwithin⟩ := hconducts.fits a hasked
  rw [hlayout] at hwithin
  have hopened := hconducts.opened a hasked hevents
  rw [hfacts] at hopened
  obtain ⟨call, hcall, hstands⟩ := Round.exists_serves (r := ⟨t, n, o⟩) hids hone hcycle
    hevents hwithin hst rfl (hopened ▸ stands_start t n.timing.replyGap a (a.count st'))
    (Nat.le_refl t) (hlast _ List.mem_cons_self)
  obtain ⟨calls, hcalls, hstands⟩ := exists_calls_of_run hids hst rfl hone
    hevents hwithin (Moves.round hcycle).sameShape hrun hnone htimes
    (fun r hr => hlast r (List.mem_cons_of_mem _ hr)) hstands
  exact ⟨st', call :: calls, hst, .cons hcall hcalls, hstands.paced⟩

/-! ## The queue -/

namespace Event

/-- What the queue holds or would hold, had it no bound, after what is put in. -/
def load : Event → Nat
  | round r => r.node.nextAction.2.length + r.outcome.queued.length
  | asked n r => n.queue.length + (r.queued n).length
  | _ => 0

/-- How many actions are put in the queue that do not belong to these long answers. -/
def others (as : List LongAnswer) : Event → Nat
  | round r => r.others as
  | asked n r => (r.queued n).length
  | _ => 0

theorem fits_iff (e : Event) : e.Fits ↔ e.load ≤ queueCapacity := by
  cases e with
  | round r => exact Iff.rfl
  | asked n r => exact Iff.rfl
  | _ => exact iff_of_true trivial (Nat.zero_le _)

end Event

theorem length_nextAction (n : Node) : n.nextAction.2.length = n.queue.length - 1 := by
  unfold nextAction
  obtain ⟨items, stats, hle⟩ := n.queue
  rcases items with _ | ⟨x, rest⟩ <;> rfl

/-- If every round queues at most `slack` more than it is weighed, the queue holds at most what it
    may hold at the start and what all events weigh. For a slack of 1 this is so because every round
    takes an action from the queue if there is one. -/
theorem load_le_of_run (bound slack : Nat) (weight : Event → Nat)
    (h : n.run inputs = some (m, events)) (hslack : slack ≤ 1) (hbound : slack ≤ bound)
    (hn : n.queue.length ≤ bound)
    (hround : ∀ r ∈ rounds events, r.outcome.queued.length ≤ weight (.round r) + slack)
    (hasked : ∀ (n : Node) (r : Request), (r.queued n).length ≤ weight (.asked n r)) :
    m.queue.length ≤ bound + (events.map weight).sum ∧
      ∀ e ∈ events, e.load ≤ bound + (events.map weight).sum := by
  refine run_induction (P := fun events m =>
    (∀ r ∈ rounds events, r.outcome.queued.length ≤ weight (.round r) + slack) →
      m.queue.length ≤ bound + (events.map weight).sum ∧
        ∀ e ∈ events, e.load ≤ bound + (events.map weight).sum) h ?_ ?_ hround
  · exact fun _ => ⟨hn, fun _ he => absurd he List.not_mem_nil⟩
  · intro before now m m' hmoves hbefore hround
    rw [rounds_append] at hround
    obtain ⟨hqueue, hload⟩ := hbefore fun r hr => hround r (List.mem_append_left _ hr)
    have hconcat : ∀ {e : Event}, m'.queue.length ≤ bound + (before.map weight).sum + weight e →
        e.load ≤ bound + (before.map weight).sum + weight e →
        m'.queue.length ≤ bound + ((before ++ [e]).map weight).sum ∧
          ∀ x ∈ before ++ [e], x.load ≤ bound + ((before ++ [e]).map weight).sum := by
      intro e hqueue' he
      have hsum : ((before ++ [e]).map weight).sum = (before.map weight).sum + weight e := by simp
      rw [hsum, ← Nat.add_assoc]
      refine ⟨hqueue', fun x hx => ?_⟩
      rcases List.mem_append.1 hx with hx | hx
      · exact Nat.le_trans (hload x hx) (Nat.le_add_right _ _)
      · rw [List.mem_singleton.1 hx]
        exact he
    cases hmoves with
    | nothing =>
      rw [List.append_nil]
      exact ⟨hqueue, hload⟩
    | @round t o hcycle =>
      have hqueued : o.queued.length ≤ weight (.round ⟨t, m, o⟩) + slack :=
        hround ⟨t, m, o⟩ (by simp)
      have hnext := length_nextAction m
      have hload' : (Event.round ⟨t, m, o⟩).load ≤
          bound + (before.map weight).sum + weight (.round ⟨t, m, o⟩) := by
        show m.nextAction.2.length + o.queued.length ≤ _
        omega
      refine hconcat (Nat.le_trans ?_ hload') hload'
      rw [queue_cycle hcycle]
      exact Backlog.length_putAll_le _ _
    | delivered _ => exact hconcat (Nat.le_trans hqueue (Nat.le_add_right _ _)) (Nat.zero_le _)
    | collected _ => exact hconcat (Nat.le_trans hqueue (Nat.le_add_right _ _)) (Nat.zero_le _)
    | asked r =>
      have hload' : (Event.asked m r).load ≤
          bound + (before.map weight).sum + weight (.asked m r) :=
        Nat.add_le_add hqueue (hasked m r)
      refine hconcat (Nat.le_trans ?_ hload') hload'
      rw [(queue_serve m r).1]
      exact Backlog.length_putAll_le _ _

theorem overflows_nextAction (n : Node) :
    n.nextAction.2.stats.overflows = n.queue.stats.overflows := by
  unfold nextAction
  rcases hpop : n.queue.pop? with _ | ⟨a, q⟩
  · rfl
  · exact Backlog.overflows_of_pop? hpop

/-- Nothing is lost in a run as long as the queue has room. -/
theorem overflows_of_run (h : n.run inputs = some (m, events)) (hfits : ∀ e ∈ events, e.Fits) :
    m.queue.stats.overflows = n.queue.stats.overflows := by
  refine run_induction (P := fun events m => (∀ e ∈ events, e.Fits) →
    m.queue.stats.overflows = n.queue.stats.overflows) h (fun _ => rfl) ?_ hfits
  intro before now m m' hmoves hbefore hfits
  refine Eq.trans ?_ (hbefore fun e he => hfits e (List.mem_append_left _ he))
  cases hmoves with
  | nothing => rfl
  | @round t o hcycle =>
    have hroom : (Event.round ⟨t, m, o⟩).Fits := hfits _ (by simp)
    rw [queue_cycle hcycle, Backlog.overflows_putAll hroom, overflows_nextAction]
  | delivered _ => rfl
  | collected _ => rfl
  | asked r =>
    have hroom : (Event.asked m r).Fits := hfits _ (by simp)
    rw [(queue_serve m r).1, Backlog.overflows_putAll hroom]

namespace Round

variable {r : Round}

theorem length_queued_le (as : List LongAnswer) (r : Round) :
    r.outcome.queued.length ≤ r.others as + r.share as := by
  unfold others
  omega

theorem length_announcement_le (a : LongAnswer) (r : Round) : (r.announcement a).length ≤ 1 := by
  unfold announcement
  split
  · split_ifs
    · rename_i st _ _
      rcases a.announcement? st with _ | message <;> simp
    · exact Nat.zero_le 1
  · exact Nat.zero_le 1

theorem announcement_eq_nil (h : r.asked? a.speaker = none) : r.announcement a = [] := by
  unfold announcement
  split
  · rename_i st hst
    rw [asked?, hst, Option.bind_some] at h
    rw [if_neg (by rw [h]; exact nofun)]
  · rfl

theorem announcement_diagnostics (id : ServiceId) (r : Round) :
    r.announcement (.diagnostics id) = [] := by
  unfold announcement
  split
  · split_ifs <;> rfl
  · rfl

/-- A call gives one reply, or none. -/
theorem Serves.length_replies {call : Call} (h : r.Serves a call) :
    (r.replies a).length = call.number.toList.length := by
  obtain ⟨st, hst, hreplies⟩ := h.replies
  rw [Round.replies, hst, Option.elim_some]
  obtain ⟨now, number⟩ := call
  generalize r.said a.speaker = said at hreplies ⊢
  cases hreplies with
  | silent =>
    rw [List.drop_length]
    rfl
  | one i message _ =>
    rw [List.drop_left]
    rfl

end Round

/-- The rounds that are calls for a long answer give as many replies as there are numbers. -/
theorem sum_replies {rs : List Round} {calls : List Call}
    (h : List.Forall₂ (Round.Serves a) rs calls) :
    (rs.map fun r => (r.replies a).length).sum = (given calls).length := by
  induction h with
  | nil => rfl
  | @cons r call _ calls hserves _ ih =>
    have hgiven : given (call :: calls) = call.number.toList ++ given calls := by
      rcases call with ⟨now, _ | i⟩ <;> rfl
    rw [List.map_cons, List.sum_cons, ih, hserves.length_replies, hgiven, List.length_append]

theorem sum_rounds (f : Round → Nat) (events : List Event) :
    (events.map fun e => e.round?.elim 0 f).sum = ((rounds events).map f).sum := by
  induction events with
  | nil => rfl
  | cons e events ih =>
    rw [List.map_cons, List.sum_cons, ih]
    cases e with
    | round r => rfl
    | _ => exact Nat.zero_add _

theorem sum_comm {α β : Type} (f : α → β → Nat) (as : List α) (bs : List β) :
    (bs.map fun b => (as.map fun a => f a b).sum).sum =
      (as.map fun a => (bs.map fun b => f a b).sum).sum := by
  induction bs with
  | nil => simp
  | cons b bs ih => simp only [List.map_cons, List.sum_cons, ih, List.sum_map_add]

/-- How many places in the queue long answers take: an announcement and a reply for one of them, all
    diagnostic values for more. -/
def places (as : List LongAnswer) : Nat := if as.length ≤ 1 then 2 else 21

/-- How the long answers `as` are given that are asked for in the first round of a run from `n` to
    `m`, and what is left of the queue: it never needs more room than for what waits in it, for what
    else is put in, and for the places of the long answers. -/
structure Conducted (as : List LongAnswer) (n : Node) (first : Round) (since : List Event)
    (m : Node) : Prop where
  answers : ∀ a ∈ as, Answers a n.timing.replyGap first (rounds since)
  load : ∀ e ∈ Event.round first :: since, e.load ≤ n.nextAction.2.length +
    ((Event.round first :: since).map (Event.others as)).sum + places as
  kept : n.nextAction.2.length + ((Event.round first :: since).map (Event.others as)).sum +
      places as ≤ queueCapacity →
    (∀ e ∈ Event.round first :: since, e.Fits) ∧
      m.queue.stats.overflows = n.queue.stats.overflows

section Places

variable {as : List LongAnswer} {t : Time} {first : Round} {since : List Event}

/-- Several long answers that are asked for at once are those of reporters. -/
theorem exists_eq_diagnostics (hnodup : as.Nodup)
    (hasked : ∀ a ∈ as, first.asked? a.speaker = some a) (hlength : ¬as.length ≤ 1) (ha : a ∈ as) :
    ∃ s : Service, a = .diagnostics s.id := by
  obtain ⟨b, hb, hne⟩ : ∃ b ∈ as, b ≠ a := by
    rcases (hnodup.ne_singleton_iff a).1 (by rintro rfl; exact hlength (Nat.le_refl 1)) with rfl | h
    · exact absurd ha List.not_mem_nil
    · exact h
  obtain ⟨st, hst, hsta⟩ := Option.bind_eq_some_iff.1 (hasked a ha)
  obtain ⟨st', hst', hstb⟩ := Option.bind_eq_some_iff.1 (hasked b hb)
  have hspeaker : a.speaker ≠ b.speaker := by
    intro heq
    have hsame := hasked b hb
    rw [← heq, hasked a ha] at hsame
    exact hne (Option.some.inj hsame).symm
  have hrequest : a.request = b.request := by
    obtain ⟨m, hm, ho⟩ := Stage.request_of_asked hsta
    obtain ⟨m', hm', ho'⟩ := Stage.request_of_asked hstb
    rw [(stage?_eq_some hst).1] at hm
    rw [(stage?_eq_some hst').1, hm] at hm'
    rw [← Option.some.inj hm', ho] at ho'
    exact Option.some.inj ho'
  obtain ⟨id, id', rfl, rfl⟩ := LongAnswer.exists_eq_diagnostics hspeaker hrequest
  exact ⟨st.service, congrArg _ (stage?_eq_some hst).2.2.2.symm⟩

theorem Answers.serves {gap : Time} {later : List Round} (h : Answers a gap first later) :
    ∀ r ∈ first :: later, ∃ call, r.Serves a call := by
  obtain ⟨st, calls, -, hcalls, -⟩ := h
  generalize first :: later = rs at hcalls ⊢
  induction hcalls with
  | nil => exact fun r hr => absurd hr List.not_mem_nil
  | cons hserves _ ih =>
    intro r hr
    rcases List.mem_cons.1 hr with rfl | hr
    · exact ⟨_, hserves⟩
    · exact ih r hr

theorem sum_map_le {f : LongAnswer → Nat} {k : Nat} (hlength : as.length ≤ 1)
    (hf : ∀ a ∈ as, f a ≤ k) : (as.map f).sum ≤ k := by
  rcases as with _ | ⟨a, _ | ⟨b, as⟩⟩
  · exact Nat.zero_le k
  · exact hf a List.mem_cons_self
  · exact absurd hlength (by simp)

/-- What the queue has to hold over a run in which the long answers put `bound` actions in it in the
    first round, and `extra` in each later one, or `slack` more. -/
theorem load_le_of_share {bound slack : Nat} {extra : Round → Nat}
    (h : n.run (.cycle t :: inputs) = some (m, .round first :: since)) (hslack : slack ≤ 1)
    (hbound : slack ≤ bound) (hfirst : first.share as ≤ bound)
    (hlater : ∀ r ∈ rounds since, r.share as ≤ extra r + slack) :
    ∀ e ∈ Event.round first :: since, e.load ≤ n.nextAction.2.length +
      ((Event.round first :: since).map (Event.others as)).sum +
        (bound + ((rounds since).map extra).sum) := by
  obtain ⟨o, rfl, hcycle, hrun⟩ := first_of_run h
  have hqueued : o.queued.length ≤ Round.others as ⟨t, n, o⟩ + Round.share as ⟨t, n, o⟩ :=
    Round.length_queued_le as ⟨t, n, o⟩
  have hqueue : o.node.queue.length ≤ n.nextAction.2.length + o.queued.length := by
    rw [queue_cycle hcycle]
    exact Backlog.length_putAll_le _ _
  have hround : ∀ r ∈ rounds since,
      r.outcome.queued.length ≤ Event.others as (.round r) + extra r + slack := by
    intro r hr
    rw [Nat.add_assoc]
    exact Nat.le_trans (r.length_queued_le as) (Nat.add_le_add_left (hlater r hr) _)
  have hload := (load_le_of_run (n.nextAction.2.length + Round.others as ⟨t, n, o⟩ + bound) slack
    (fun e => e.others as + e.round?.elim 0 extra) hrun hslack (by omega) (by omega) hround
    fun _ _ => Nat.le_refl _).2
  rw [List.sum_map_add, sum_rounds] at hload
  rw [List.map_cons, List.sum_cons]
  intro e he
  rcases List.mem_cons.1 he with rfl | he
  · show n.nextAction.2.length + o.queued.length ≤ _ + (Round.others as ⟨t, n, o⟩ + _) + _
    omega
  · have hle := hload e he
    show e.load ≤ _ + (Round.others as ⟨t, n, o⟩ + _) + _
    omega

/-- A long answer puts its announcement and a reply in the queue at first, and later at most one
    reply in a round. -/
theorem load_le_of_one (h : n.run (.cycle t :: inputs) = some (m, .round first :: since))
    (hlength : as.length ≤ 1) (hnone : ∀ a ∈ as, ∀ r ∈ rounds since, r.asked? a.speaker = none)
    (hanswers : ∀ a ∈ as, Answers a n.timing.replyGap first (rounds since)) :
    ∀ e ∈ Event.round first :: since, e.load ≤ n.nextAction.2.length +
      ((Event.round first :: since).map (Event.others as)).sum + 2 := by
  have hreplies : ∀ a ∈ as, ∀ r ∈ first :: rounds since, (r.replies a).length ≤ 1 := by
    intro a ha r hr
    obtain ⟨call, hcall⟩ := (hanswers a ha).serves r hr
    rw [hcall.length_replies]
    exact Option.length_toList_le
  have hfirst : first.share as ≤ 2 := by
    refine sum_map_le hlength fun a ha => ?_
    rw [List.length_append]
    exact Nat.add_le_add (Round.length_announcement_le a _) (hreplies a ha _ List.mem_cons_self)
  have hlater : ∀ r ∈ rounds since, r.share as ≤ (fun _ => 0) r + 1 := by
    intro r hr
    refine sum_map_le hlength fun a ha => ?_
    rw [Round.announcement_eq_nil (hnone a ha r hr), List.nil_append]
    exact hreplies a ha r (List.mem_cons_of_mem _ hr)
  have hnothing : ((rounds since).map fun _ => 0).sum = 0 := by
    rw [List.map_const', List.sum_replicate, Nat.nsmul_eq_mul, Nat.mul_zero]
  have hload := load_le_of_share h (Nat.le_refl 1) (Nat.le_succ 1) hfirst hlater
  rwa [hnothing] at hload

/-- Diagnostics are not announced. -/
theorem share_eq_of_diagnostics (has : ∀ a ∈ as, ∃ s : Service, a = .diagnostics s.id) (r : Round) :
    r.share as = (as.map fun a => (r.replies a).length).sum := by
  refine congrArg List.sum (List.map_congr_left fun a ha => ?_)
  obtain ⟨s, rfl⟩ := has a ha
  rw [Round.announcement_diagnostics, List.nil_append]

/-- The diagnostics of several services put no more in the queue than all services have. -/
theorem load_le_of_diagnostics (h : n.run (.cycle t :: inputs) = some (m, .round first :: since))
    (hnodup : as.Nodup) (has : ∀ a ∈ as, ∃ s : Service, a = .diagnostics s.id)
    (hanswers : ∀ a ∈ as, Answers a n.timing.replyGap first (rounds since)) :
    ∀ e ∈ Event.round first :: since, e.load ≤ n.nextAction.2.length +
      ((Event.round first :: since).map (Event.others as)).sum + 21 := by
  have htotal : ((first :: rounds since).map fun r => r.share as).sum ≤ 21 := by
    simp only [share_eq_of_diagnostics has]
    rw [sum_comm fun (a : LongAnswer) (r : Round) => (r.replies a).length]
    refine Nat.le_trans ?_ (LongAnswer.sum_diagnosticCount_le hnodup has)
    refine List.sum_le_sum fun a ha => ?_
    obtain ⟨st, calls, hst, hcalls, hpaced⟩ := hanswers a ha
    rw [sum_replies hcalls]
    refine Nat.le_trans hpaced.length_le (Nat.le_of_eq ?_)
    obtain ⟨s, rfl⟩ := has a ha
    rw [LongAnswer.count, Service.diagnosticCount_eq, (stage?_eq_some hst).2.2.2]
  rw [List.map_cons, List.sum_cons] at htotal
  have hload := load_le_of_share h (Nat.zero_le 1) (Nat.zero_le _) (Nat.le_refl _)
    fun r _ => Nat.le_refl (r.share as)
  exact fun e he => Nat.le_trans (hload e he) (Nat.add_le_add_left htotal _)

/-- The queue never needs more room than for what waits in it, for what else is put in, and for the
    places of the long answers. -/
theorem load_le_places (h : n.run (.cycle t :: inputs) = some (m, .round first :: since))
    (hnodup : as.Nodup) (hasked : ∀ a ∈ as, first.asked? a.speaker = some a)
    (hnone : ∀ a ∈ as, ∀ r ∈ rounds since, r.asked? a.speaker = none)
    (hanswers : ∀ a ∈ as, Answers a n.timing.replyGap first (rounds since)) :
    ∀ e ∈ Event.round first :: since, e.load ≤ n.nextAction.2.length +
      ((Event.round first :: since).map (Event.others as)).sum + places as := by
  unfold places
  split_ifs with hlength
  · exact load_le_of_one h hlength hnone hanswers
  · have hdiagnostics : ∀ a ∈ as, ∃ s : Service, a = .diagnostics s.id :=
      fun a ha => exists_eq_diagnostics hnodup hasked hlength ha
    exact load_le_of_diagnostics h hnodup hdiagnostics hanswers

/-- Long answers of a node that has each service at most once, asked for in one round and not asked
    for again, are given in the rounds since then: in order, without a gap in the numbers, but with
    one in time, and each reply at the first round at which it is due. They need two places in the
    queue, or as many as all services have diagnostic values, and with these nothing is lost. -/
theorem conducted_of_run (hids : (n.entries.map (·.service.id)).Nodup)
    (h : n.run (.cycle t :: inputs) = some (m, .round first :: since)) (hnodup : as.Nodup)
    (hevents : ∀ a ∈ as, a ≠ .events) (hasked : ∀ a ∈ as, first.asked? a.speaker = some a)
    (hnone : ∀ a ∈ as, ∀ r ∈ rounds since, r.asked? a.speaker = none)
    (htimes : ∀ r ∈ rounds since, first.now ≤ r.now)
    (hlast : ∀ r ∈ first :: rounds since, r.now + n.timing.replyGap ≤ Time.last) :
    Conducted as n first since m := by
  have hanswers : ∀ a ∈ as, Answers a n.timing.replyGap first (rounds since) := fun a ha =>
    answers_of_run hids h (hevents a ha) (hasked a ha) (hnone a ha) htimes hlast
  have hload := load_le_places h hnodup hasked hnone hanswers
  refine ⟨hanswers, hload, fun hroom => ?_⟩
  have hfits : ∀ e ∈ Event.round first :: since, e.Fits := fun e he =>
    e.fits_iff.2 (Nat.le_trans (hload e he) hroom)
  exact ⟨hfits, overflows_of_run h hfits⟩

end Places

/-- A small node that has been asked for its services. -/
def listing : Node := small.put (.received (.addressed Opcode.rqsd.byte 0 [0]))

/-- Cycles at the times at which replies are due, and one before the second reply is. -/
def listingInputs : List Input :=
  [0, 1, 10, 20, 30, 40].map fun t => .cycle (Time.milliseconds t)

/-- The replies in these cycles. -/
def listingReplies : List (List Action) :=
  [[.transmit (.addressed Opcode.sd.byte 0 [1, 1, 1])], [],
    [.transmit (.addressed Opcode.sd.byte 0 [2, 3, 1])],
    [.transmit (.addressed Opcode.sd.byte 0 [3, 2, 1])],
    [.transmit (.addressed Opcode.sd.byte 0 [4, 4, 1])], []]

theorem conducted_of_listingInputs : ∃ first since m,
    listing.run listingInputs = some (m, .round first :: since) ∧
    (first :: rounds since).map (Round.replies .services) = listingReplies ∧
    Conducted [.services] listing first since m := by
  have hrun : ((listing.run listingInputs).any fun x =>
      (x.2.head?.bind Event.round?).any fun first =>
        first.asked? (.service .minimumNode) == some .services &&
        decide (∀ r ∈ rounds x.2.tail, r.asked? (.service .minimumNode) = none) &&
        decide (∀ r ∈ rounds x.2.tail, first.now ≤ r.now) &&
        decide (∀ r ∈ first :: rounds x.2.tail, r.now + listing.timing.replyGap ≤ Time.last) &&
        (first :: rounds x.2.tail).map (Round.replies .services) == listingReplies) = true := by
    decide +kernel
  obtain ⟨m, events, hm, hp⟩ := exists_run hrun
  rcases events with _ | ⟨e, since⟩
  · contradiction
  cases e with
  | round first =>
    change (_ && _ && _ && _ && _) = true at hp
    simp only [Bool.and_eq_true, beq_iff_eq, decide_eq_true_eq] at hp
    obtain ⟨⟨⟨⟨hasked, hnone⟩, htimes⟩, hlast⟩, hreplies⟩ := hp
    refine ⟨first, since, m, hm, hreplies, ?_⟩
    exact conducted_of_run (by decide +kernel) hm (List.nodup_singleton _)
      (List.forall_mem_singleton.2 nofun) (List.forall_mem_singleton.2 hasked)
      (List.forall_mem_singleton.2 hnone) htimes hlast
  | _ => contradiction

end RailNode.Node
