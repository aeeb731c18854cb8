import RailNode.Proofs.Device.Quiet
import RailNode.Proofs.Node.MessageOrder
import RailNode.Proofs.Node.Negotiation
import RailNode.Proofs.Service.LearnScope

/-
  Learn mode on a bus. Several nodes with different numbers process the same messages in the same
  order, each from where it comes in until it restarts (`Member`). Only a node that the messages
  which have passed put in learn mode is there (`Member.learningBy_of_learnsAfter`), and a node that
  stays in normal mode is there just if they do (`Member.learning_eq_learningBy`). An NNLRN message
  for one node takes every other out of learn mode; a MODE message does not. So at most one node is
  in learn mode after every message if no MODE message names a node while the messages before it
  have put another in learn mode, and for nodes in normal mode only then. In that case a message
  that names no node makes a difference to one of them at most (`exclusive_iff`).
-/
namespace RailNode.Node

open RailNode.Configuration

variable {n m : Node} {now : Time} {o : Outcome} {inputs : List Input} {events : List Event}

/-! ## The number in a cycle -/

/-- A cycle in which nobody assigns a number leaves the number of the node. -/
theorem Recalls.nodeNumber_cycle (hn : n.Recalls) (h : n.cycle now = .ok o)
    (hno : n.config.mode = .setup → ∀ k ≠ 0, ¬ Standing.Assigns k n.nextAction.1) :
    o.node.config.nodeNumber = n.config.nodeNumber := by
  by_cases hid : .minimumNode ∈ n.entries.map (·.service.id)
  · have hone : n.HasOne .minimumNode :=
      Nat.le_antisymm hn.atMostOne (List.count_pos_iff.2 hid)
    obtain ⟨s, s', hs, _, hpasses⟩ := hone.passes h
    exact (hn.standing s hs).number_of_passes hpasses hno
  · obtain ⟨r, hr, rfl⟩ := cycle_eq_ok h
    have hedits := edits_turns hr fun e he => MinimumNode.parts_subset_otherParts fun heq =>
      hid (List.mem_map.2 ⟨e, he, heq⟩)
    exact hedits.changesOnly.nodeNumber (by decide)

/-- Behind the service for the mode and the number nobody else changes them. -/
theorem Passage.edits_behind {id : ServiceId} (p : Passage id now n) (hid : id ≠ .minimumNode)
    (hn : (n.entries.map (·.service.id)).count .minimumNode ≤ 1)
    (hbefore : .minimumNode ∈ (n.before id).map (·.service.id)) :
    Edits MinimumNode.otherParts p.found.config p.outcome.node.config := by
  rw [p.entries, List.map_append, List.count_append, List.map_cons,
    List.count_cons_of_ne (by rw [p.id_entry]; exact hid)] at hn
  have hpos := List.count_pos_iff.2 hbefore
  have hafter : ∀ x ∈ p.after, x.service.id ≠ .minimumNode := by
    intro x hx heq
    have hpos' : 0 < (p.after.map (·.service.id)).count .minimumNode :=
      List.count_pos_iff.2 (List.mem_map.2 ⟨x, hx, heq⟩)
    omega
  have hturn := (edits_entryTurn p.turn).mono
    (MinimumNode.parts_subset_otherParts (by rw [p.id_entry]; exact hid))
  have hrest := edits_turns p.turns_after fun x hx =>
    MinimumNode.parts_subset_otherParts (hafter x hx)
  exact hturn.trans hrest

/-- Another service than that for the number finds the number with which the cycle begins or the
    number with which it ends. -/
theorem Passage.nodeNumber_found {id : ServiceId} (p : Passage id now n) (hid : id ≠ .minimumNode)
    (hn : (n.entries.map (·.service.id)).count .minimumNode ≤ 1) :
    p.found.config.nodeNumber = n.config.nodeNumber ∨
      p.found.config.nodeNumber = p.outcome.node.config.nodeNumber := by
  by_cases hbefore : .minimumNode ∈ (n.before id).map (·.service.id)
  · have hedits := p.edits_behind hid hn hbefore
    exact Or.inr (hedits.changesOnly.nodeNumber (by decide)).symm
  · have hedits := edits_turns p.turns_before fun x hx =>
      MinimumNode.parts_subset_otherParts fun heq => hbefore (List.mem_map.2 ⟨x, hx, heq⟩)
    exact Or.inl (hedits.changesOnly.nodeNumber (by decide))

/-! ## Learn mode in a cycle -/

theorem learning_entryTurn_of_ne {c : Cycle} {position : Nat} {e e' : Entry}
    {shared left : Shared} {trace : EntryTrace} (hid : e.service.id ≠ .teaching)
    (h : entryTurn c position e shared = .ok ((e', trace), left))
    (hl : left.config.learning = true) : shared.config.learning = true := by
  obtain ⟨t, ht, _, _, hconfig⟩ := entryTurn_eq_ok h
  rw [hconfig] at hl
  exact Service.learning_turn_of_ne (t := { self := e.service, shared }) hid ht hl

theorem learning_turns_of_ne {c : Cycle} {position : Nat} {es : List Entry} {shared : Shared}
    {r : List (Entry × EntryTrace) × Shared} (hes : ∀ e ∈ es, e.service.id ≠ .teaching)
    (h : turns c position shared es = .ok r) (hl : r.2.config.learning = true) :
    shared.config.learning = true := by
  induction es generalizing position shared r with
  | nil => rwa [← Except.ok.inj h] at hl
  | cons e es ih =>
    obtain ⟨e', trace, between, rest, last, he, hrest, rfl⟩ := turns_cons_eq_ok h
    rw [List.forall_mem_cons] at hes
    exact learning_entryTurn_of_ne hes.1 he (ih hes.2 hrest hl)

/-- Whether the node is in learn mode after its next cycle, going by the message that it takes. -/
def learningNext (n : Node) : Bool :=
  (n.nextAction.1.bind Action.received?).elim n.config.learning
    (·.learningAfter n.config.nodeNumber n.config.learning)

theorem learningNext_of_received {x : Message}
    (h : n.nextAction.1.bind Action.received? = some x) :
    n.learningNext = x.learningAfter n.config.nodeNumber n.config.learning := by
  rw [learningNext, h]
  rfl

theorem learningNext_of_none (h : n.nextAction.1.bind Action.received? = none) :
    n.learningNext = n.config.learning := by
  rw [learningNext, h]
  rfl

/-- The service for events makes of learn mode what the message makes of it. -/
theorem Passage.learning_left (p : Passage .teaching now n)
    (hnumber : p.found.config.nodeNumber = n.config.nodeNumber) :
    p.left.config.learning = (n.nextAction.1.bind Action.received?).elim p.found.config.learning
      (·.learningAfter n.config.nodeNumber p.found.config.learning) := by
  obtain ⟨t, ht, _, _, hconfig⟩ := entryTurn_eq_ok p.turn
  have hturn := Service.learning_turn_of_teaching
    (t := { self := p.entry.service, shared := p.found }) p.id_entry ht
  rw [received?_facts] at hturn
  rw [hconfig, hturn, ← hnumber]
  rfl

/-- The service for events changes the records, their index and learn mode only. -/
theorem Passage.changesOnly_teaching (p : Passage .teaching now n) :
    ChangesOnly Teaching.parts p.found.config p.left.config := by
  obtain ⟨s, hs⟩ := Teaching.exists_teaching p.id_entry
  have hedits := (edits_entryTurn p.turn).changesOnly
  rwa [hs] at hedits

/-- A cycle leaves a node in learn mode only if its message puts the node there, or if it finds the
    node there and the message does not take it out. -/
theorem learningNext_of_cycle (hone : n.HasOne .teaching) (hn : n.Recalls)
    (h : n.cycle now = .ok o)
    (hno : n.config.mode = .setup → ∀ k ≠ 0, ¬ Standing.Assigns k n.nextAction.1)
    (hl : o.node.config.learning = true) : n.learningNext = true := by
  obtain ⟨p, rfl⟩ := hone.exists_passage h
  have hnumber : p.found.config.nodeNumber = n.config.nodeNumber := by
    rcases p.nodeNumber_found (by decide) hn.atMostOne with hbegin | hend
    · exact hbegin
    · rw [hend, hn.nodeNumber_cycle h hno]
  have hleft : p.left.config.learning = true := learning_turns_of_ne p.after_ne p.turns_after hl
  have hbefore : p.found.config.learning = true → n.config.learning = true :=
    learning_turns_of_ne p.before_ne p.turns_before
  rw [p.learning_left hnumber] at hleft
  unfold learningNext
  rcases hx : n.nextAction.1.bind Action.received? with _ | x
  · rw [hx] at hleft
    exact hbefore hleft
  · rw [hx] at hleft
    refine Message.learningAfter_eq_true_iff.2 ?_
    exact (Message.learningAfter_eq_true_iff.1 hleft).imp_right fun h => ⟨hbefore h.1, h.2⟩

/-! ## Learn mode in normal mode -/

/-- The parts that the services other than that for events change while the node stays in normal
    mode. -/
def calmParts : List Part := [.address, .flags, .nodeVariables]

theorem parts_subset_calmParts {s : Service} (hteaching : s.id ≠ .teaching)
    (hminimum : s.id ≠ .minimumNode) : s.parts ⊆ calmParts := by
  cases s with
  | teaching s => exact absurd rfl hteaching
  | minimumNode s => exact absurd rfl hminimum
  | _ => simp only [Service.parts]; decide

theorem changesOnly_entryTurn_of_normal {c : Cycle} {position : Nat} {e e' : Entry}
    {shared left : Shared} {trace : EntryTrace} (hid : e.service.id ≠ .teaching)
    (hidle : ∀ s, e.service = .minimumNode s → s.negotiation = none)
    (hmode : shared.config.mode = .normal)
    (hopens : ¬ Standing.Opens c.action shared.config.nodeNumber .normal)
    (h : entryTurn c position e shared = .ok ((e', trace), left)) :
    ChangesOnly calmParts shared.config left.config := by
  by_cases hminimum : e.service.id = .minimumNode
  · obtain ⟨s, hs⟩ := MinimumNode.exists_minimumNode hminimum
    obtain ⟨t, ht, _, _, hconfig⟩ := entryTurn_eq_ok h
    unfold Service.turn at ht
    rw [hs] at ht
    obtain ⟨u, hu, rfl⟩ := map_eq_ok_iff.1 ht
    rw [hconfig]
    exact (MinimumNode.changesOnly_turn_of_normal (t := { self := s, shared }) hmode
      (hidle s hs) hopens hu).mono (by decide)
  · exact (edits_entryTurn h).changesOnly.mono (parts_subset_calmParts hid hminimum)

theorem changesOnly_turns_of_normal {c : Cycle} {position : Nat} {es : List Entry}
    {shared : Shared} {r : List (Entry × EntryTrace) × Shared}
    (hes : ∀ e ∈ es, e.service.id ≠ .teaching)
    (hidle : ∀ e ∈ es, ∀ s, e.service = .minimumNode s → s.negotiation = none)
    (hmode : shared.config.mode = .normal)
    (hopens : ¬ Standing.Opens c.action shared.config.nodeNumber .normal)
    (h : turns c position shared es = .ok r) :
    ChangesOnly calmParts shared.config r.2.config := by
  induction es generalizing position shared r with
  | nil => exact Except.ok.inj h ▸ .refl _ _
  | cons e es ih =>
    obtain ⟨e', trace, between, rest, last, he, hrest, rfl⟩ := turns_cons_eq_ok h
    rw [List.forall_mem_cons] at hes hidle
    have hfirst := changesOnly_entryTurn_of_normal hes.1 hidle.1 hmode hopens he
    have hlater := ih hes.2 hidle.2 ((hfirst.mode (by decide)).trans hmode)
      (by rwa [hfirst.nodeNumber (by decide)]) hrest
    exact hfirst.trans hlater

/-- A cycle in normal mode that begins no negotiation makes of learn mode what its message makes of
    it. -/
theorem learning_cycle_of_normal (hone : n.HasOne .teaching) (hn : n.StandsIn Standing.Confined)
    (hmode : n.config.mode = .normal)
    (hopens : ¬ Standing.Opens n.nextAction.1 n.config.nodeNumber .normal)
    (h : n.cycle now = .ok o) : o.node.config.learning = n.learningNext := by
  obtain ⟨p, rfl⟩ := hone.exists_passage h
  have hidle : ∀ e ∈ n.entries, ∀ s, e.service = .minimumNode s → s.negotiation = none := by
    intro e he s hs
    refine Option.eq_none_iff_forall_ne_some.2 fun g hg => ?_
    have hsetup := hn.standing s (List.mem_map.2 ⟨e, he, hs⟩) g hg
    rw [show (Standing.of s n.config).mode = .normal from hmode] at hsetup
    contradiction
  rw [p.entries, List.forall_mem_append, List.forall_mem_cons] at hidle
  have hbefore : ChangesOnly calmParts n.config p.found.config :=
    changesOnly_turns_of_normal p.before_ne hidle.1 hmode hopens p.turns_before
  have hnumber := hbefore.nodeNumber (by decide)
  have hturn := p.changesOnly_teaching
  have hafter : ChangesOnly calmParts p.left.config p.last.config := by
    refine changesOnly_turns_of_normal p.after_ne hidle.2.2 ?_ ?_ p.turns_after
    · rw [hturn.mode (by decide), hbefore.mode (by decide), hmode]
    · rwa [hturn.nodeNumber (by decide), hnumber]
  show p.last.config.learning = n.learningNext
  rw [hafter.learning (by decide), p.learning_left hnumber, hbefore.learning (by decide)]
  rfl

/-! ## Learn mode over a run -/

/-- The rounds that offer a message to the services. -/
def hearing (rounds : List Round) : List Round := rounds.filter (·.offered?.isSome)

theorem nextAction_of_offered {r : Round} {m : Message} (h : r.offered? = some m) :
    r.node.nextAction.1 = some (.received m) := by
  obtain ⟨a, ha, hm⟩ := Option.bind_eq_some_iff.1 h
  cases a with
  | received m' => rw [ha, Option.some.inj hm]
  | _ => contradiction

/-- The round with this index leaves the node in learn mode. -/
def LeavesLearning (rounds : List Round) (t : Nat) : Prop :=
  ∃ r, rounds[t]? = some r ∧ r.outcome.node.config.learning = true

/-- Where nothing but messages turns learn mode on, a node that is in it when a message is offered
    was in it after the message before, or from the start. -/
theorem HandsOn.learned_before {a b : Bool} {rounds : List Round} {t : Nat} {r : Round}
    (h : HandsOn (·.config.learning) a rounds b)
    (hquiet : ∀ r ∈ rounds, r.offered? = none → r.outcome.node.config.learning = true →
      r.node.config.learning = true)
    (hr : (hearing rounds)[t]? = some r) (hl : r.node.config.learning = true) :
    t = 0 ∧ a = true ∨ ∃ s, t = s + 1 ∧ LeavesLearning (hearing rounds) s := by
  induction rounds generalizing a t with
  | nil => contradiction
  | cons r' rest ih =>
    obtain ⟨rfl, hrest⟩ := HandsOn.cons_iff.1 h
    rw [List.forall_mem_cons] at hquiet
    rcases hoffered : r'.offered? with _ | m
    · have hskip : hearing (r' :: rest) = hearing rest := by
        rw [hearing, List.filter_cons_of_neg (by rw [hoffered]; decide)]
        rfl
      rw [hskip] at hr ⊢
      rcases ih hrest hquiet.2 hr with ⟨ht, hafter⟩ | hbefore
      · exact Or.inl ⟨ht, hquiet.1 hoffered hafter⟩
      · exact Or.inr hbefore
    · have htake : hearing (r' :: rest) = r' :: hearing rest :=
        List.filter_cons_of_pos (by rw [hoffered]; rfl)
      rw [htake] at hr ⊢
      cases t with
      | zero =>
        rw [List.getElem?_cons_zero] at hr
        rw [← Option.some.inj hr] at hl
        exact Or.inl ⟨rfl, hl⟩
      | succ t =>
        rw [List.getElem?_cons_succ] at hr
        refine Or.inr ⟨t, rfl, ?_⟩
        rcases ih hrest hquiet.2 hr with ⟨rfl, hafter⟩ | ⟨s, rfl, r'', hr'', hlearns⟩
        · exact ⟨r', List.getElem?_cons_zero, hafter⟩
        · exact ⟨r'', by rw [List.getElem?_cons_succ, hr''], hlearns⟩

/-- Nobody assigns a number in these rounds. -/
def Unassigned (rounds : List Round) : Prop :=
  ∀ r ∈ rounds, r.node.config.mode = .setup → ∀ k ≠ 0, ¬ Standing.Assigns k r.node.nextAction.1

/-- A sound node that has one service for events, and negotiates only in setup and so that it can go
    back to its number. -/
structure Teachable (n : Node) : Prop where
  hasOne : n.HasOne .teaching
  recalls : n.Recalls
  confined : n.StandsIn Standing.Confined
  sound : n.Sound

theorem Moves.teachable {now : List Event} (h : n.Moves m now) (hn : n.Teachable) :
    m.Teachable where
  hasOne := h.hasOne hn.hasOne
  recalls := h.standsIn Standing.lasts_recalls hn.recalls
  confined := h.standsIn Standing.lasts_confined hn.confined
  sound := h.sound hn.sound

/-- Some starts and whatever else happens to a device lead to this node, and at every start the
    device is put together with one service for events and at most one for the number. -/
def Reached (n : Node) : Prop :=
  ∃ store link inputs, (Device.idle store link).run inputs = some (.running n) ∧
    ∀ i ∈ inputs, i.Starts (Build.HasOne .teaching) ∧
      i.Starts (Build.HasAtMostOne .minimumNode)

theorem Reached.teachable (h : n.Reached) : n.Teachable := by
  obtain ⟨store, link, inputs, hrun, hstarts⟩ := h
  obtain ⟨hone, hsound⟩ := Device.hasOne_of_run hrun (fun i hi => (hstarts i hi).1)
    (fun _ hn => nomatch hn) n rfl
  have hnumber := fun i hi => (hstarts i hi).2
  exact ⟨hone, (Device.recalls_of_run hrun hnumber).1,
    (Device.standsIn_of_run Standing.lasts_confined hrun hnumber).1, hsound⟩

/-! ## A bus -/

/-- The life of a node on a bus on which these messages pass: it processes them in their order, from
    where it has come in on, until it restarts or they end. -/
structure Member (messages : List Message) where
  start : Node
  inputs : List Input
  last : Node
  events : List Event
  /-- How many messages had passed when the node came in. -/
  missed : Nat
  reached : start.Reached
  unlearned : start.config.learning = false
  run : start.run inputs = some (last, events)
  unassigned : Unassigned (rounds events)
  hears : ∀ t r, (hearing (rounds events))[t]? = some r → r.offered? = messages[missed + t]?

namespace Member

variable {messages : List Message} {p : Member messages} {t : Nat} {r : Round}

def number (p : Member messages) : UInt16 := p.start.config.nodeNumber

/-- The round in which the node processes the message with this index. -/
def round? (p : Member messages) (t : Nat) : Option Round :=
  if p.missed ≤ t then (hearing (rounds p.events))[t - p.missed]? else none

/-- The messages that the node has processed before the one with this index. -/
def heard (p : Member messages) (t : Nat) : List Message := (messages.take t).drop p.missed

/-- The node is in normal mode in every round, and begins no negotiation. -/
def StaysNormal (p : Member messages) : Prop :=
  ∀ r ∈ rounds p.events, r.node.config.mode = .normal ∧ ¬ r.Opens

/-- The node is in learn mode when it has processed the message with this index. -/
def LearnsAfter (p : Member messages) (t : Nat) : Prop :=
  ∃ r, p.round? t = some r ∧ r.outcome.node.config.learning = true

instance : Decidable (p.LearnsAfter t) :=
  decidable_of_iff ((p.round? t).any (·.outcome.node.config.learning) = true)
    (Option.any_eq_true _ _)

/-- The message with this index is a lesson, and it makes the cycle that processes it another than
    the cycle without an action. -/
def Executes (p : Member messages) (t : Nat) : Prop :=
  ∃ r m, p.round? t = some r ∧ messages[t]? = some m ∧ m.IsLesson ∧
    r.node.cycleWith r.now none r.node.nextAction.2 ≠ .ok r.outcome

theorem round?_eq_some (h : p.round? t = some r) :
    p.missed ≤ t ∧ (hearing (rounds p.events))[t - p.missed]? = some r := by
  unfold round? at h
  split_ifs at h with hmissed
  exact ⟨hmissed, h⟩

theorem mem_rounds (h : p.round? t = some r) : r ∈ rounds p.events :=
  (List.mem_filter.1 (List.mem_of_getElem? (round?_eq_some h).2)).1

theorem offered?_eq (h : p.round? t = some r) : r.offered? = messages[t]? := by
  obtain ⟨hmissed, hr⟩ := round?_eq_some h
  rw [p.hears _ r hr, Nat.add_sub_cancel' hmissed]

/-- Every round is a cycle of a teachable node. -/
theorem cycle_of_mem (hr : r ∈ rounds p.events) :
    r.node.Teachable ∧ r.node.cycle r.now = .ok r.outcome :=
  forall_rounds p.run (fun hmoves hn => hmoves.teachable hn) p.reached.teachable r hr

/-- The number of the node stays the same. -/
theorem number_of_mem (hr : r ∈ rounds p.events) : r.node.config.nodeNumber = p.number := by
  have hhands := handsOn_of_run (g := fun n => n.config.nodeNumber)
    (fun hcore => by rw [hcore.config]) p.run
  refine (hhands.eq_of_keeps fun r hr => ?_).2 r hr
  obtain ⟨hn, hcycle⟩ := cycle_of_mem hr
  exact hn.recalls.nodeNumber_cycle hcycle (p.unassigned r hr)

/-- The node processes a message that has passed. -/
theorem exists_message (h : p.round? t = some r) : ∃ m, messages[t]? = some m := by
  have hheard : r.offered?.isSome :=
    (List.mem_filter.1 (List.mem_of_getElem? (round?_eq_some h).2)).2
  rw [offered?_eq h] at hheard
  exact Option.isSome_iff_exists.1 hheard

theorem heard_missed (p : Member messages) : p.heard p.missed = [] :=
  List.drop_of_length_le (List.length_take_le _ _)

theorem heard_succ {m : Message} (hmissed : p.missed ≤ t) (hm : messages[t]? = some m) :
    p.heard (t + 1) = p.heard t ++ [m] := by
  have ht : t < messages.length := (List.getElem?_eq_some_iff.1 hm).1
  rw [heard, List.take_add_one, hm, Option.toList_some, List.drop_append_of_le_length]
  · rfl
  · rwa [List.length_take_of_le ht.le]

/-! ### Learn mode of a member -/

/-- What a round leaves in learn mode, its message leaves there. -/
theorem learningNext_of_mem (hr : r ∈ rounds p.events)
    (hl : r.outcome.node.config.learning = true) : r.node.learningNext = true := by
  obtain ⟨hn, hcycle⟩ := cycle_of_mem hr
  exact learningNext_of_cycle hn.hasOne hn.recalls hcycle (p.unassigned r hr) hl

theorem learningNext_of_round? {m : Message} (h : p.round? t = some r)
    (hm : messages[t]? = some m) :
    r.node.learningNext = m.learningAfter p.number r.node.config.learning := by
  rw [learningNext_of_received ((offered?_eq h).trans hm), number_of_mem (mem_rounds h)]

/-- A node that is in learn mode when it takes a message was so after the message before. -/
theorem learned_before (h : p.round? t = some r) (hl : r.node.config.learning = true) :
    ∃ s, t = s + 1 ∧ p.LearnsAfter s := by
  obtain ⟨hmissed, hr⟩ := round?_eq_some h
  have hhands := handsOn_of_run (g := fun n => n.config.learning)
    (fun hcore => by rw [hcore.config]) p.run
  have hquiet : ∀ r ∈ rounds p.events, r.offered? = none →
      r.outcome.node.config.learning = true → r.node.config.learning = true := by
    intro r hr hnone hl
    rw [← learningNext_of_none hnone]
    exact learningNext_of_mem hr hl
  rcases hhands.learned_before hquiet hr hl with ⟨_, hstart⟩ | ⟨s, hs, r', hr', hlearns⟩
  · rw [p.unlearned] at hstart
    contradiction
  · refine ⟨p.missed + s, by omega, r', ?_, hlearns⟩
    rw [round?, if_pos (Nat.le_add_right _ _), Nat.add_sub_cancel_left, hr']

/-- A node is in learn mode after a message that puts it there, or if it was so after the message
    before and this one does not take it out. -/
theorem learnsAfter_cases (h : p.LearnsAfter t) : ∃ m, messages[t]? = some m ∧
    (m.StartsLearning p.number ∨
      (∃ s, t = s + 1 ∧ p.LearnsAfter s) ∧ ¬ m.EndsLearning p.number) := by
  obtain ⟨r, hr, hl⟩ := h
  obtain ⟨m, hm⟩ := exists_message hr
  have hnext := learningNext_of_mem (mem_rounds hr) hl
  rw [learningNext_of_round? hr hm] at hnext
  refine ⟨m, hm, (Message.learningAfter_eq_true_iff.1 hnext).imp_right fun hstays => ?_⟩
  exact ⟨learned_before hr hstays.1, hstays.2⟩

/-- Only a node that the messages have put in learn mode is there. -/
theorem learningBy_of_learnsAfter (h : p.LearnsAfter t) :
    Message.learningBy p.number (p.heard (t + 1)) = true := by
  induction t using Nat.strong_induction_on with
  | _ t ih =>
    obtain ⟨m, hm, hcases⟩ := learnsAfter_cases h
    obtain ⟨r, hr, _⟩ := h
    rw [heard_succ (round?_eq_some hr).1 hm, Message.learningBy_concat,
      Message.learningAfter_eq_true_iff]
    refine hcases.imp_right fun ⟨⟨s, hs, hbefore⟩, hstays⟩ => ⟨?_, hstays⟩
    subst hs
    exact ih s (Nat.lt_succ_self s) hbefore

/-! ### Members that stay in normal mode -/

theorem learning_of_mem (hn : p.StaysNormal) (hr : r ∈ rounds p.events) :
    r.outcome.node.config.learning = r.node.learningNext := by
  obtain ⟨hteachable, hcycle⟩ := cycle_of_mem hr
  obtain ⟨hmode, hopens⟩ := hn r hr
  exact learning_cycle_of_normal hteachable.hasOne hteachable.confined hmode (hmode ▸ hopens) hcycle

/-- A message finds what the message before it has left. -/
theorem found_cases (hn : p.StaysNormal) (h : p.round? t = some r) :
    t = p.missed ∧ r.node.config.learning = false ∨ ∃ s r', t = s + 1 ∧ p.round? s = some r' ∧
      r.node.config.learning = r'.outcome.node.config.learning := by
  obtain ⟨hmissed, hr⟩ := round?_eq_some h
  have hhands := handsOn_of_run (g := fun n => n.config.learning)
    (fun hcore => by rw [hcore.config]) p.run
  have hhearing := hhands.filter (·.offered?.isSome) fun r hr hnone => by
    rw [learning_of_mem hn hr]
    exact learningNext_of_none (Option.not_isSome_iff_eq_none.1 (Bool.eq_false_iff.1 hnone))
  rcases hhearing.found_cases hr with ⟨ht, hfirst⟩ | ⟨s, r', hs, hr', hbefore⟩
  · exact Or.inl ⟨by omega, hfirst.trans p.unlearned⟩
  · refine Or.inr ⟨p.missed + s, r', by omega, ?_, hbefore⟩
    rw [round?, if_pos (Nat.le_add_right _ _), Nat.add_sub_cancel_left]
    exact hr'

/-- A node that stays in normal mode is in learn mode just if the messages have put it there. -/
theorem learning_eq_learningBy (hn : p.StaysNormal) (h : p.round? t = some r) :
    r.outcome.node.config.learning = Message.learningBy p.number (p.heard (t + 1)) := by
  induction t using Nat.strong_induction_on generalizing r with
  | _ t ih =>
    obtain ⟨m, hm⟩ := exists_message h
    have hfound : r.node.config.learning = Message.learningBy p.number (p.heard t) := by
      rcases found_cases hn h with ⟨rfl, hfirst⟩ | ⟨s, r', rfl, hr', hbefore⟩
      · rw [heard_missed]
        exact hfirst
      · rw [hbefore]
        exact ih s (Nat.lt_succ_self s) hr'
    rw [learning_of_mem hn (mem_rounds h), learningNext_of_round? h hm,
      heard_succ (round?_eq_some h).1 hm, Message.learningBy_concat, hfound]

theorem learnsAfter_iff (hn : p.StaysNormal) (h : p.round? t = some r) :
    p.LearnsAfter t ↔ Message.learningBy p.number (p.heard (t + 1)) = true := by
  rw [← learning_eq_learningBy hn h]
  constructor
  · rintro ⟨r', hr', hl⟩
    rw [h] at hr'
    exact Option.some.inj hr' ▸ hl
  · exact fun hl => ⟨r, h, hl⟩

/-- Only a node in learn mode executes a lesson. -/
theorem learned_of_executes (h : p.Executes t) : ∃ s, t = s + 1 ∧ p.LearnsAfter s := by
  obtain ⟨r, m, hr, hm, hlesson, hdiffers⟩ := h
  refine learned_before hr (Bool.of_not_eq_false fun hl => hdiffers ?_)
  obtain ⟨hn, hcycle⟩ := cycle_of_mem (mem_rounds hr)
  have ha := nextAction_of_offered (by rw [offered?_eq hr, hm])
  obtain ⟨o, ho, hquiet⟩ :=
    hn.recalls.cycle_of_ignored r.now hn.sound ha (Or.inr ⟨hlesson, hl⟩)
  rw [hcycle] at ho
  rw [hquiet, Except.ok.inj ho]

end Member

/-! ## Exclusion -/

variable {ι : Type} {messages : List Message} {members : ι → Member messages}

/-- After every message at most one node is in learn mode. -/
def Exclusive (members : ι → Member messages) : Prop :=
  ∀ t i j, (members i).LearnsAfter t → (members j).LearnsAfter t → i = j

/-- Nodes that process a message together have different numbers. -/
def Distinct (members : ι → Member messages) : Prop :=
  ∀ t i j, ((members i).round? t).isSome → ((members j).round? t).isSome →
    (members i).number = (members j).number → i = j

/-- No MODE message puts a node in learn mode while the messages before it have put another one
    there. Both nodes process the message. -/
def ModesExclude (members : ι → Member messages) : Prop :=
  ∀ t m i j, messages[t]? = some m → m.IsLearnOn → m.nodeNumber? = some (members i).number →
    ((members i).round? t).isSome → ((members j).round? t).isSome →
    Message.learningBy (members j).number ((members j).heard t) = true → i = j

theorem Member.LearnsAfter.isSome {p : Member messages} {t : Nat} (h : p.LearnsAfter t) :
    (p.round? t).isSome := by
  obtain ⟨r, hr, _⟩ := h
  rw [hr]
  rfl

/-- A node that a message puts in learn mode is alone there. -/
theorem eq_of_starts {t : Nat} {m : Message} {i j : ι} (hdistinct : Distinct members)
    (hmodes : ModesExclude members) (hm : messages[t]? = some m)
    (hi : (members i).LearnsAfter t) (hj : (members j).LearnsAfter t)
    (hstarts : m.StartsLearning (members i).number)
    (hcases : m.StartsLearning (members j).number ∨
      (∃ s, t = s + 1 ∧ (members j).LearnsAfter s) ∧ ¬ m.EndsLearning (members j).number) :
    i = j := by
  have hsame : (members i).number = (members j).number → i = j :=
    hdistinct t i j hi.isSome hj.isSome
  obtain ⟨hnumber, ho | hon⟩ := hstarts
  · refine hsame ?_
    rcases hcases with hstarts' | ⟨_, hstays⟩
    · exact Option.some.inj (hnumber.symm.trans hstarts'.1)
    · by_contra hne
      exact hstays (Or.inl ⟨ho, _, hnumber, hne⟩)
  · rcases hcases with hstarts' | ⟨⟨s, rfl, hbefore⟩, _⟩
    · exact hsame (Option.some.inj (hnumber.symm.trans hstarts'.1))
    · exact hmodes _ m i j hm hon hnumber hi.isSome hj.isSome
        (Member.learningBy_of_learnsAfter hbefore)

/-- If at most one node was in learn mode after the message before, so it is after this one. -/
theorem eq_of_learnsAfter {t : Nat} {i j : ι} (hdistinct : Distinct members)
    (hmodes : ModesExclude members)
    (hbefore : ∀ s, t = s + 1 → (members i).LearnsAfter s → (members j).LearnsAfter s → i = j)
    (hi : (members i).LearnsAfter t) (hj : (members j).LearnsAfter t) : i = j := by
  obtain ⟨m, hm, hcasesi⟩ := Member.learnsAfter_cases hi
  obtain ⟨m', hm', hcasesj⟩ := Member.learnsAfter_cases hj
  obtain rfl : m = m' := Option.some.inj (hm.symm.trans hm')
  rcases hcasesi with hstarts | ⟨⟨s, hs, hi'⟩, hstays⟩
  · exact eq_of_starts hdistinct hmodes hm hi hj hstarts hcasesj
  · rcases hcasesj with hstarts | ⟨⟨s', hs', hj'⟩, _⟩
    · exact (eq_of_starts hdistinct hmodes hm hj hi hstarts (Or.inr ⟨⟨s, hs, hi'⟩, hstays⟩)).symm
    · obtain rfl : s = s' := Nat.succ.inj (hs.symm.trans hs')
      exact hbefore s hs hi' hj'

theorem exclusive_of_modesExclude (hdistinct : Distinct members) (hmodes : ModesExclude members) :
    Exclusive members := by
  intro t
  induction t with
  | zero => exact fun i j => eq_of_learnsAfter hdistinct hmodes fun s hs => absurd hs nofun
  | succ t ih =>
    refine fun i j => eq_of_learnsAfter hdistinct hmodes fun s hs => ?_
    obtain rfl := Nat.succ.inj hs
    exact ih i j

/-- Of nodes in normal mode, a MODE message that excludes no other node leaves two in learn mode. -/
theorem modesExclude_of_exclusive (hdistinct : Distinct members)
    (hnormal : ∀ i, (members i).StaysNormal) (h : Exclusive members) : ModesExclude members := by
  intro t m i j hm hon hnumber hi hj htaught
  obtain ⟨ri, hri⟩ := Option.isSome_iff_exists.1 hi
  obtain ⟨rj, hrj⟩ := Option.isSome_iff_exists.1 hj
  by_contra hne
  refine hne (h t i j ?_ ?_)
  · rw [Member.learnsAfter_iff (hnormal i) hri, Member.heard_succ (Member.round?_eq_some hri).1 hm,
      Message.learningBy_concat, Message.learningAfter_eq_true_iff]
    exact Or.inl ⟨hnumber, Or.inr hon⟩
  · rw [Member.learnsAfter_iff (hnormal j) hrj, Member.heard_succ (Member.round?_eq_some hrj).1 hm,
      Message.learningBy_concat, Message.learningAfter_eq_true_iff]
    refine Or.inr ⟨htaught, ?_⟩
    rintro (⟨ho, _⟩ | ⟨hnumber', _⟩)
    · rw [hon.1] at ho
      exact absurd ho (by decide)
    · exact hne (hdistinct t i j hi hj (Option.some.inj (hnumber.symm.trans hnumber')))

/-- Nodes with different numbers, all without learn mode at first, process the same messages in the
    same order. If no MODE message puts one of them in learn mode while the messages before it have
    put another there, then at most one is in learn mode after every message; and of nodes that stay
    in normal mode only then. If at most one is, then at most one executes a message that names no
    node. -/
theorem exclusive_iff (hdistinct : Distinct members) :
    (ModesExclude members → Exclusive members) ∧
      ((∀ i, (members i).StaysNormal) → (Exclusive members ↔ ModesExclude members)) ∧
      (Exclusive members →
        ∀ t i j, (members i).Executes t → (members j).Executes t → i = j) := by
  refine ⟨exclusive_of_modesExclude hdistinct, fun hnormal => ?_, ?_⟩
  · exact ⟨modesExclude_of_exclusive hdistinct hnormal, exclusive_of_modesExclude hdistinct⟩
  · intro h t i j hi hj
    obtain ⟨s, hs, hi⟩ := Member.learned_of_executes hi
    obtain ⟨s', hs', hj⟩ := Member.learned_of_executes hj
    obtain rfl : s = s' := Nat.succ.inj (hs.symm.trans hs')
    exact h s i j hi hj

/-! ## Two nodes -/

/-- These messages are queued and then processed. -/
def schedule (messages : List Message) : List Input :=
  (messages.map fun m => .ask (.put (.received m))) ++ messages.map fun _ => .cycle 0

/-- The rounds offer the messages in their order, and each finds the node in normal mode. -/
def hearsAll (messages : List Message) (x : Node × List Event) : Bool :=
  (rounds x.2).map Round.offered? == messages.map some &&
    (rounds x.2).all fun r => r.node.config.mode == .normal

theorem isSome_of_hearsAll {messages : List Message}
    (h : (n.run (schedule messages)).any (hearsAll messages) = true) :
    (n.run (schedule messages)).isSome := by
  obtain ⟨_, _, hrun, _⟩ := exists_run h
  rw [hrun]
  rfl

theorem hearsAll_get {messages : List Message}
    (h : (n.run (schedule messages)).any (hearsAll messages) = true) :
    hearsAll messages ((n.run (schedule messages)).get (isSome_of_hearsAll h)) = true := by
  obtain ⟨m, events, hrun, hp⟩ := exists_run h
  simp only [hrun]
  exact hp

theorem offered?_of_hearsAll {messages : List Message} {x : Node × List Event}
    (h : hearsAll messages x = true) : (rounds x.2).map Round.offered? = messages.map some :=
  beq_iff_eq.1 (Bool.and_eq_true_iff.1 h).1

theorem mode_of_hearsAll {messages : List Message} {x : Node × List Event}
    (h : hearsAll messages x = true) : ∀ r ∈ rounds x.2, r.node.config.mode = .normal :=
  fun r hr => beq_iff_eq.1 (List.all_eq_true.1 (Bool.and_eq_true_iff.1 h).2 r hr)

/-- Each of the rounds offers one of the messages. -/
theorem exists_of_hearsAll {messages : List Message} {x : Node × List Event}
    (h : hearsAll messages x = true) {r : Round} (hr : r ∈ rounds x.2) :
    ∃ m ∈ messages, r.offered? = some m := by
  have hmem : r.offered? ∈ messages.map some := by
    rw [← offered?_of_hearsAll h]
    exact List.mem_map_of_mem hr
  obtain ⟨m, hm, heq⟩ := List.mem_map.1 hmem
  exact ⟨m, hm, heq.symm⟩

theorem hearing_of_hearsAll {messages : List Message} {x : Node × List Event}
    (h : hearsAll messages x = true) : hearing (rounds x.2) = rounds x.2 := by
  refine List.filter_eq_self.2 fun r hr => ?_
  obtain ⟨m, _, hm⟩ := exists_of_hearsAll h hr
  rw [hm]
  rfl

/-- The life of a node that hears all these messages from its start on. -/
def Member.ofSchedule {messages : List Message} (hreached : n.Reached)
    (hl : n.config.learning = false)
    (h : (n.run (schedule messages)).any (hearsAll messages) = true) : Member messages where
  start := n
  inputs := schedule messages
  last := ((n.run (schedule messages)).get (isSome_of_hearsAll h)).1
  events := ((n.run (schedule messages)).get (isSome_of_hearsAll h)).2
  missed := 0
  reached := hreached
  unlearned := hl
  run := (Option.some_get _).symm
  unassigned := by
    intro r hr hsetup
    rw [mode_of_hearsAll (hearsAll_get h) r hr] at hsetup
    contradiction
  hears := by
    intro t r hr
    rw [hearing_of_hearsAll (hearsAll_get h)] at hr
    have ht := congrArg (·[t]?) (offered?_of_hearsAll (hearsAll_get h))
    simp only [List.getElem?_map, hr] at ht
    rw [Nat.zero_add]
    rcases hm : messages[t]? with _ | m
    · rw [hm] at ht
      contradiction
    · rw [hm] at ht
      exact Option.some.inj ht

/-- None of the messages is a MODE message that begins a negotiation. -/
theorem Member.staysNormal_ofSchedule {messages : List Message} (hreached : n.Reached)
    (hl : n.config.learning = false)
    (h : (n.run (schedule messages)).any (hearsAll messages) = true)
    (hno : ∀ m ∈ messages, m.byte? 3 ≠ some ModeCommand.setup.byte) :
    (ofSchedule hreached hl h).StaysNormal := by
  intro r hr
  have hmode := mode_of_hearsAll (hearsAll_get h) r hr
  refine ⟨hmode, fun hopens => ?_⟩
  obtain ⟨m, hm, hoffered⟩ := exists_of_hearsAll (hearsAll_get h) hr
  rw [Round.Opens, hmode, nextAction_of_offered hoffered] at hopens
  rcases hopens with hadvance | hrenegotiate | ⟨m', hsame, _, _, hsetup⟩
  · exact nomatch Option.some.inj hadvance
  · exact nomatch Option.some.inj hrenegotiate
  · obtain rfl := Action.received.inj (Option.some.inj hsame)
    exact hno m hm hsetup

/-- The numbers of two nodes. -/
def pairNumber (i : Bool) : UInt16 := if i then 301 else 300

/-- The store of a small device in normal mode that has one of these numbers. -/
def pairStore (i : Bool) : Store :=
  ((Device.smallConfiguration.factoryReset.setMode .normal).setNodeNumber (pairNumber i)).store

/-- What comes of a start over that store. -/
def pairDevice (i : Bool) : Device :=
  ((Device.idle (pairStore i) (.ofCapacities 2 2)).boot Device.smallBuild false).1

theorem isSome_pairDevice (i : Bool) : (pairDevice i).node?.isSome := by
  cases i <;> decide +kernel

/-- The two nodes when they have just started. -/
@[irreducible]
def pair (i : Bool) : Node := (pairDevice i).node?.get (isSome_pairDevice i)

theorem reached_pair (i : Bool) : (pair i).Reached := by
  have hboot : pairDevice i = .running (pair i) := by
    refine eq_running_of_node? ?_
    rw [pair, Option.some_get]
  refine ⟨pairStore i, .ofCapacities 2 2, [.boot Device.smallBuild false],
    congrArg some hboot, fun j hj => ?_⟩
  have hminimum : Device.smallBuild.HasOne .minimumNode := Device.hasOne_smallBuild (by decide)
  rw [List.mem_singleton.1 hj]
  exact ⟨Device.hasOne_smallBuild (by decide), hminimum.isNew, hminimum.count.le⟩

theorem learning_pair (i : Bool) : (pair i).config.learning = false := by
  cases i <;> decide +kernel

theorem number_pair (i : Bool) : (pair i).config.nodeNumber = pairNumber i := by
  cases i <;> decide +kernel

/-- The two nodes on a bus on which these messages pass. -/
def pairOn (messages : List Message)
    (h : ∀ i, ((pair i).run (schedule messages)).any (hearsAll messages) = true) (i : Bool) :
    Member messages :=
  .ofSchedule (reached_pair i) (learning_pair i) (h i)

theorem number_pairOn {messages : List Message}
    (h : ∀ i, ((pair i).run (schedule messages)).any (hearsAll messages) = true) (i : Bool) :
    (pairOn messages h i).number = pairNumber i :=
  number_pair i

theorem distinct_pairOn {messages : List Message}
    (h : ∀ i, ((pair i).run (schedule messages)).any (hearsAll messages) = true) :
    Distinct (pairOn messages h) := by
  have hinj : ∀ i j, pairNumber i = pairNumber j → i = j := by decide
  intro t i j _ _ hij
  rw [number_pairOn, number_pairOn] at hij
  exact hinj i j hij

theorem modesExclude_pairOn {messages : List Message}
    (h : ∀ i, ((pair i).run (schedule messages)).any (hearsAll messages) = true)
    (hmodes : ∀ t < messages.length, ∀ m ∈ messages[t]?, ∀ i j, m.IsLearnOn →
      m.nodeNumber? = some (pairNumber i) →
      Message.learningBy (pairNumber j) (messages.take t) = true → i = j) :
    ModesExclude (pairOn messages h) := by
  intro t m i j hm hon hnumber _ _ htaught
  rw [number_pairOn] at hnumber htaught
  exact hmodes t (List.getElem?_eq_some_iff.1 hm).1 m hm i j hon hnumber htaught

/-- NNLRN messages for each of the two nodes, one after the other. Then the second node is told to
    stop, and a MODE message is for the first again. -/
def takeover : List Message :=
  [.addressed Opcode.nnlrn.byte 300 [], .addressed Opcode.nnlrn.byte 301 [],
    .addressed Opcode.nnuln.byte 301 [], .addressed Opcode.mode.byte 300 [8]]

theorem hearsAll_takeover (i : Bool) :
    ((pair i).run (schedule takeover)).any (hearsAll takeover) = true := by
  cases i <;> decide +kernel

/-- When the MODE message comes, the messages before it leave neither node in learn mode. -/
theorem modesExclude_takeover : ModesExclude (pairOn takeover hearsAll_takeover) :=
  modesExclude_pairOn hearsAll_takeover (by decide +kernel)

theorem staysNormal_takeover (i : Bool) : (pairOn takeover hearsAll_takeover i).StaysNormal :=
  Member.staysNormal_ofSchedule _ _ _ (by decide)

/-- The two nodes take turns in learn mode. -/
theorem exclusive_takeover : Exclusive (pairOn takeover hearsAll_takeover) ∧
    (Exclusive (pairOn takeover hearsAll_takeover) ↔
      ModesExclude (pairOn takeover hearsAll_takeover)) ∧
    (pairOn takeover hearsAll_takeover false).LearnsAfter 0 ∧
    (pairOn takeover hearsAll_takeover true).LearnsAfter 1 ∧
    (pairOn takeover hearsAll_takeover false).LearnsAfter 3 := by
  have h := exclusive_iff (distinct_pairOn hearsAll_takeover)
  exact ⟨h.1 modesExclude_takeover, h.2.1 staysNormal_takeover, by decide +kernel,
    by decide +kernel, by decide +kernel⟩

/-- An NNLRN message for one node, and then a MODE message for the other. -/
def intrusion : List Message :=
  [.addressed Opcode.nnlrn.byte 300 [], .addressed Opcode.mode.byte 301 [8]]

theorem hearsAll_intrusion (i : Bool) :
    ((pair i).run (schedule intrusion)).any (hearsAll intrusion) = true := by
  cases i <;> decide +kernel

/-- The MODE message leaves both nodes in learn mode. -/
theorem not_exclusive_intrusion : Distinct (pairOn intrusion hearsAll_intrusion) ∧
    (∀ i, (pairOn intrusion hearsAll_intrusion i).StaysNormal ∧
      (pair i).config.learning = false) ∧
    ¬ Exclusive (pairOn intrusion hearsAll_intrusion) := by
  refine ⟨distinct_pairOn _, fun i => ⟨?_, learning_pair i⟩, fun h => ?_⟩
  · exact Member.staysNormal_ofSchedule _ _ _ (by decide)
  · exact absurd (h 1 false true (by decide +kernel) (by decide +kernel)) (by decide)

end RailNode.Node
