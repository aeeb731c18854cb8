import RailNode.Proofs.Service.Listings.Basic
import RailNode.Proofs.Sweep

/-
  The long answers of teaching: the stored events, and the variables of one of them.
-/
namespace RailNode

open Series Turn

/-- The request for a long answer. -/
def EventListing.request : EventListing → Opcode
  | .events => .nerd
  | .eventVariables _ => .reqev
  | .slotVariables _ => .reval

/-- The opcode of the reports. -/
def EventListing.reply : EventListing → Opcode
  | .events => .enrsp
  | .eventVariables _ => .evans
  | .slotVariables _ => .neval

theorem EventListing.reply_notMem (k : EventListing) :
    k.reply ∉ Teaching.signals ++ Opcode.responses := by
  cases k <;> simp only [reply] <;> decide

namespace Teaching

variable {c : Cycle} {d : Configuration} {m : Message} {k : EventListing} {t t' u : Turn Teaching}

/-- The long answer that a message asks for. -/
def asked? (d : Configuration) (m : Message) : Option EventListing :=
  match m.opcode? with
  | some .nerd => if m.names d then some .events else none
  | some .reqev =>
    match m.event?, m.byte? 5 with
    | some e, some index =>
      if d.learning && index == 0 then (d.find e).toOption.map .eventVariables else none
    | _, _ => none
  | some .reval =>
    match m.byte? 3, m.byte? 4 with
    | some slot, some index =>
      if m.names d && index == 0 && !d.isFree slot.toNat then some (.slotVariables slot.toNat)
      else none
    | _, _ => none
  | _ => none

/-- The long answer at its start. -/
def opened (c : Cycle) (d : Configuration) : EventListing → Series EventListing
  | .events => .start c.now .events 0 d.layout.slots
  | k => .start c.now k 1 (d.layout.eventVariables + 1)

/-- The report of a variable with the event in its slot. -/
def variableMessage? (d : Configuration) (slot : Nat) (index value : UInt8) : Option Message :=
  (d.event slot).toOption.map fun e =>
    .about .evans e.node (Word.bytes e.number ++ [index, value])

/-- The announcement of a long answer, if it has one. -/
def announcement? (d : Configuration) : EventListing → Option Message
  | .events => none
  | .eventVariables slot => variableMessage? d slot 0 d.layout.eventVariableCount
  | .slotVariables slot =>
    some (.about .neval d.nodeNumber
      [UInt8.ofNat slot, 0, d.layout.eventVariableCount])

/-- The report of a long answer with a number, if there is one. -/
def item? (d : Configuration) (k : EventListing) (i : Nat) : Option Message :=
  match k with
  | .events =>
    (d.event i).toOption.map fun e =>
      .about .enrsp d.nodeNumber (e.bytes ++ [UInt8.ofNat i])
  | .eventVariables slot =>
    (d.eventVariable slot i).toOption.bind (variableMessage? d slot (UInt8.ofNat i))
  | .slotVariables slot =>
    (d.eventVariable slot i).toOption.map fun value =>
      .about .neval d.nodeNumber [UInt8.ofNat slot, UInt8.ofNat i, value]

/-! ## What starts a long answer -/

theorem asked?_of_not_learning (hlearning : d.learning = false) (ho : m.opcode? = some .reqev) :
    asked? d m = none := by
  unfold asked?
  rw [ho, hlearning]
  dsimp only
  split <;> rfl

theorem asked?_of_not_named (hnamed : m.names d = false) (ho : m.opcode? ≠ some .reqev) :
    asked? d m = none := by
  unfold asked?
  rw [hnamed]
  split
  · rfl
  · rename_i h
    exact absurd h ho
  · split <;> rfl
  · rfl

theorem opcode_of_asked (h : asked? d m = some k) : m.opcode? = some k.request := by
  unfold asked? at h
  split at h
  · rename_i ho
    split_ifs at h
    rw [ho, ← Option.some.inj h]
    rfl
  · rename_i ho
    split at h
    · split_ifs at h
      obtain ⟨slot, _, rfl⟩ := Option.map_eq_some_iff.1 h
      exact ho
    · contradiction
  · rename_i ho
    split at h
    · split_ifs at h
      rw [ho, ← Option.some.inj h]
      rfl
    · contradiction
  · contradiction

/-- The slot of a long answer that is asked for is there. -/
theorem slot_lt_of_asked (h : asked? d m = some k) (slot : Nat)
    (hk : k = .eventVariables slot ∨ k = .slotVariables slot) : slot < d.layout.slots := by
  unfold asked? at h
  split at h
  · split_ifs at h
    obtain rfl := Option.some.inj h
    simp at hk
  · split at h
    · split_ifs at h
      obtain ⟨slot', hfind, rfl⟩ := Option.map_eq_some_iff.1 h
      obtain rfl : slot' = slot := by simpa using hk
      exact Configuration.slot_lt_of_find (toOption_eq_some_iff.1 hfind)
    · contradiction
  · split at h
    · rename_i slot' index _ _
      split_ifs at h with hall
      obtain rfl := Option.some.inj h
      obtain rfl : slot'.toNat = slot := by simpa using hk
      simp only [Bool.and_eq_true, Bool.not_eq_true'] at hall
      exact Configuration.slot_lt_of_isFree hall.2
    · contradiction
  · contradiction

theorem self_teachVariable {slot index : Nat} {value : UInt8}
    (h : teachVariable slot index value t = .ok t') : t'.self = t.self := by
  obtain ⟨d, _, h⟩ := bind_eq_ok_iff.1 h
  rw [← Except.ok.inj h]
  exact (self_put _ _).trans (self_confirm _ _ _)

theorem listing_learn (h : learn m t = .ok t') : t'.self.listing = t.self.listing := by
  unfold learn at h
  split at h
  · split_ifs at h
    · rw [← Except.ok.inj h, self_refuse]
    · split at h
      · rw [self_teachVariable h]
      · split at h
        · obtain ⟨u, hu, h⟩ := bind_eq_ok_iff.1 h
          obtain ⟨d, _, hu⟩ := bind_eq_ok_iff.1 hu
          rw [self_teachVariable h, ← Except.ok.inj hu]
        · rw [← Except.ok.inj h, self_refuse]
  · rw [← Except.ok.inj h, self_refuse]

theorem listing_unlearn (h : unlearn m t = .ok t') : t'.self.listing = t.self.listing := by
  unfold unlearn at h
  split at h
  · split at h
    · obtain ⟨d, _, h⟩ := bind_eq_ok_iff.1 h
      rw [← Except.ok.inj h, self_put, self_confirm]
    · rw [← Except.ok.inj h, self_refuse]
  · rw [← Except.ok.inj h, self_refuse]

/-- A request for the variables of an event is obeyed in learn mode. -/
theorem listing_answerVariable (c : Cycle) (ho : m.opcode? = some .reqev)
    (hlearning : t.config.learning = true) :
    (answerVariable c m t).self.listing =
      ((asked? t.config m).map (opened c t.config)).or t.self.listing := by
  unfold answerVariable asked?
  rw [ho, hlearning]
  rcases m.event? with _ | e
  · exact congrArg _ (self_refuse _ _ _ t)
  rcases m.byte? 5 with _ | index
  · exact congrArg _ (self_refuse _ _ _ t)
  dsimp only
  rcases t.config.find e with x | slot
  · rw [self_refuse]
    split_ifs <;> rfl
  · by_cases hindex : index = 0
    · simp [hindex, startListing, opened, Except.toOption]
    · dsimp only
      rw [if_neg hindex, if_neg (show ¬(true && index == 0) = true by simpa using hindex)]
      split
      · rw [self_sendVariable]
        rfl
      · rw [self_refuse]
        rfl

theorem listing_answerSlotVariable (c : Cycle) (ho : m.opcode? = some .reval)
    (hnamed : m.names t.config = true) :
    (answerSlotVariable c m t).self.listing =
      ((asked? t.config m).map (opened c t.config)).or t.self.listing := by
  unfold answerSlotVariable sendSlotVariable asked?
  rw [ho, hnamed]
  rcases m.byte? 3 with _ | slot
  · exact congrArg _ (self_refuse _ _ _ t)
  rcases m.byte? 4 with _ | index
  · exact congrArg _ (self_refuse _ _ _ t)
  dsimp only
  rcases t.config.isFree slot.toNat with _ | _
  · by_cases hindex : index = 0
    · simp [hindex, startListing, opened]
    · rw [if_neg Bool.false_ne_true, if_neg hindex,
        if_neg (show ¬(true && index == 0 && !false) = true by simpa using hindex)]
      split
      · rw [self_reply]
        rfl
      · rw [self_refuse]
        rfl
      · rw [self_refuse]
        rfl
  · rw [if_pos rfl, self_refuse, Bool.not_true, Bool.and_false]
    rfl

theorem listing_handleNamed {o : Opcode} (ho : m.opcode? = some o)
    (hnamed : m.names t.config = true) (hreqev : o ≠ .reqev) :
    (handleNamed c m o t).self.listing =
      ((asked? t.config m).map (opened c t.config)).or t.self.listing := by
  have hother : ∀ {x : Turn Teaching}, asked? t.config m = none → x.self.listing = t.self.listing →
      x.self.listing = ((asked? t.config m).map (opened c t.config)).or t.self.listing := by
    intro x hnone hx
    rw [hnone, hx]
    rfl
  have hasked : o ≠ .nerd → o ≠ .reval → asked? t.config m = none := by
    intro hnerd hreval
    unfold asked?
    rw [ho]
    split <;> simp_all
  unfold handleNamed
  split
  · exact hother (hasked (by decide) (by decide)) rfl
  · refine hother (hasked (by decide) (by decide)) ?_
    unfold obeyMode
    split <;> rfl
  · refine hother (hasked (by decide) (by decide)) ?_
    unfold clear
    split_ifs <;> simp
  · exact hother (hasked (by decide) (by decide)) (congrArg _ (self_reply _ _ t _))
  · exact hother (hasked (by decide) (by decide)) (congrArg _ (self_reply _ _ t _))
  · unfold asked?
    rw [ho, hnamed]
    rfl
  · refine hother (hasked (by decide) (by decide)) ?_
    unfold answerEvent sendEvent
    split
    · simp
    · split_ifs
      · simp
      · split <;> simp
  · exact listing_answerSlotVariable c ho hnamed
  · exact hother (hasked ‹_› ‹_›) rfl

theorem listing_handle (h : handle c m t = .ok t') :
    t'.self.listing = ((asked? t.config m).map (opened c t.config)).or t.self.listing := by
  have hother : (∀ o ∈ [Opcode.nerd, .reqev, .reval], m.opcode? ≠ some o) →
      asked? t.config m = none := by
    intro ho
    unfold asked?
    split <;> simp_all
  unfold handle at h
  split at h
  · rename_i ho
    rw [← Except.ok.inj h, hother (by simp [ho])]
    rfl
  · rename_i ho
    rw [← Except.ok.inj h, hother (by simp [ho])]
    unfold yieldLearning
    split_ifs <;> rfl
  · rename_i ho
    rw [hother (by simp [ho])]
    split_ifs at h
    · rw [listing_learn h]
      rfl
    · rw [← Except.ok.inj h]
      rfl
  · rename_i ho
    rw [hother (by simp [ho])]
    split_ifs at h
    · rw [listing_unlearn h]
      rfl
    · rw [← Except.ok.inj h]
      rfl
  · rename_i ho
    rw [← Except.ok.inj h]
    rcases hlearning : t.config.learning with _ | _
    · rw [asked?_of_not_learning hlearning ho, if_neg Bool.false_ne_true]
      rfl
    · exact listing_answerVariable c ho hlearning
  · rename_i o _ _ _ hreqev ho
    rw [← Except.ok.inj h, isNamedBy_eq]
    rcases hnamed : m.names t.config with _ | _
    · rw [asked?_of_not_named hnamed (by rw [ho]; exact mt Option.some.inj hreqev),
        if_neg Bool.false_ne_true]
      rfl
    · exact listing_handleNamed ho hnamed hreqev

theorem listing_prepare (h : prepare c t = .ok u) :
    u.self.listing = ((c.received?.bind (asked? t.config)).map (opened c t.config)).or
      t.self.listing := by
  unfold prepare at h
  rcases hm : c.received? with _ | m
  · rw [hm] at h
    rw [← Except.ok.inj h]
    rfl
  · rw [hm] at h
    exact listing_handle h

theorem edits_prepare (h : prepare c t = .ok u) :
    Configuration.Edits parts t.config u.config := by
  unfold prepare at h
  rcases hm : c.received? with _ | m
  · rw [hm] at h
    rw [← Except.ok.inj h]
  · rw [hm] at h
    exact edits_handle h

theorem layout_prepare (h : prepare c t = .ok u) : u.config.layout = t.config.layout :=
  (edits_prepare h).changesOnly.layout

/-! ## What else is sent -/

/-- In a turn in which it is not answered with, nothing else is sent with the opcode of a long
    answer. -/
theorem sent_prepare (h : prepare c t = .ok u)
    (hnone : ∀ m, c.received? = some m → k.reply ∉ repliesTo t.config m) :
    u.sent k.reply = t.sent k.reply := by
  refine (speaks_prepare h).sent_eq ?_
  rw [List.append_assoc]
  refine fun hmem => (List.mem_append.1 hmem).elim ?_ k.reply_notMem
  rcases hm : c.received? with _ | m
  · exact List.not_mem_nil
  · exact hnone m hm

theorem sent_sendVariable_self (slot : Nat) (index value : UInt8) (t : Turn Teaching) :
    (sendVariable slot index value t).sent .evans = t.sent .evans ++
      ((variableMessage? t.config slot index value).map Action.transmit).toList := by
  unfold sendVariable variableMessage?
  rcases t.config.event slot with x | e
  · exact (List.append_nil _).symm
  · exact sent_send_self (Message.opcode?_addressed .evans _ _ _) t

/-- In a turn with a request for a long answer its announcement is sent, and nothing else with its
    opcode. -/
theorem sent_prepare_of_asked (h : prepare c t = .ok u) (hm : c.received? = some m)
    (hk : asked? t.config m = some k) :
    u.sent k.reply = t.sent k.reply ++
      ((announcement? t.config k).map Action.transmit).toList := by
  unfold prepare at h
  rw [hm] at h
  change handle c m t = .ok u at h
  unfold handle at h
  unfold asked? at hk
  split at hk
  · rename_i ho
    split_ifs at hk with hnamed
    obtain rfl := Option.some.inj hk
    have hnamed : t.isNamedBy m = true := hnamed
    simp only [ho, hnamed, if_true] at h
    rw [← Except.ok.inj h]
    exact (List.append_nil _).symm
  · rename_i ho
    split at hk
    · rename_i e index he hindex
      split_ifs at hk with hall
      rw [Bool.and_eq_true, beq_iff_eq] at hall
      obtain ⟨slot, hslot, rfl⟩ := Option.map_eq_some_iff.1 hk
      simp only [ho, hall.1, if_true] at h
      rw [← Except.ok.inj h, answerVariable, he, hindex]
      simp only [toOption_eq_some_iff.1 hslot, hall.2, if_true]
      exact sent_sendVariable_self slot 0 _ t
    · contradiction
  · rename_i ho
    split at hk
    · rename_i slot index hslot hindex
      split_ifs at hk with hall
      simp only [Bool.and_eq_true, beq_iff_eq, Bool.not_eq_true'] at hall
      obtain ⟨⟨hnamed, hzero⟩, hfree⟩ := hall
      have hnamed : t.isNamedBy m = true := hnamed
      obtain rfl := Option.some.inj hk
      simp only [ho, hnamed, if_true] at h
      rw [← Except.ok.inj h, handleNamed, answerSlotVariable, hslot, hindex]
      simp only [hfree, hzero, if_true, Bool.false_eq_true, if_false]
      exact sent_reply_self .neval _ t _
    · contradiction
  · contradiction

/-! ## The replies -/

/-- A report that there must be is given. -/
theorem replies_report {i : Nat} {message : Message} (h : item? t.config k i = some message) :
    Replies (item? t.config k) t.given (some i) (report k i t).given ∧
      (report k i t).self = t.self := by
  cases k with
  | events =>
    obtain ⟨e, he, -⟩ := Option.map_eq_some_iff.1 h
    have hreport : report .events i t = t.reply .enrsp (e.bytes ++ [UInt8.ofNat i]) := by
      rw [report, sendEvent, toOption_eq_some_iff.1 he]
    rw [hreport]
    exact ⟨.of_eq (by rw [item?, he]; rfl) (given_reply _ _ t _), self_reply _ _ t _⟩
  | eventVariables slot =>
    obtain ⟨value, hvalue, hmessage⟩ := Option.bind_eq_some_iff.1 h
    obtain ⟨e, he, -⟩ := Option.map_eq_some_iff.1 hmessage
    have hreport : report (.eventVariables slot) i t = t.send (.about .evans e.node
        (Word.bytes e.number ++ [UInt8.ofNat i, value])) := by
      rw [report, sendVariable, toOption_eq_some_iff.1 he]
      dsimp only
      rw [hvalue]
      rfl
    rw [hreport]
    refine ⟨.of_eq ?_ (given_send _ t), self_send _ t⟩
    rw [item?, hvalue, Option.bind_some, variableMessage?, he]
    rfl
  | slotVariables slot =>
    obtain ⟨value, hvalue, -⟩ := Option.map_eq_some_iff.1 h
    have hreport : report (.slotVariables slot) i t =
        t.reply .neval [UInt8.ofNat slot, UInt8.ofNat i, value] := by
      rw [report, sendSlotVariable]
      dsimp only
      rw [hvalue]
      rfl
    rw [hreport]
    exact ⟨.of_eq (by rw [item?, hvalue]; rfl) (given_reply _ _ t _), self_reply _ _ t _⟩

/-- There is a report for every variable of a slot. -/
theorem exists_item? {slot i : Nat} (hslot : slot < d.layout.slots) (h1 : 1 ≤ i)
    (h2 : i ≤ d.layout.eventVariables) (hk : k = .eventVariables slot ∨ k = .slotVariables slot) :
    ∃ m, item? d k i = some m := by
  have hvalue : d.eventVariable slot i =
      .ok (d.store.read (d.layout.eventVariableAddress slot i)) := by
    rw [Configuration.eventVariable, Configuration.variableAddress, if_neg (by omega),
      if_neg (by omega)]
    rfl
  rcases hk with rfl | rfl
  · have hevent : ∃ e, (d.event slot).toOption = some e := by
      rw [Configuration.event, if_pos hslot]
      exact ⟨_, rfl⟩
    obtain ⟨e, he⟩ := hevent
    rw [item?, hvalue]
    exact ⟨_, Option.map_eq_some_iff.2 ⟨e, he, rfl⟩⟩
  · rw [item?, hvalue]
    exact ⟨_, rfl⟩

/-- What a poll of a long answer about one event does. -/
theorem replies_pollListing {left : Option (Series EventListing)} (hleft : t.self.listing = left)
    (hkind : ∀ s, left = some s → s.kind = k) (hevents : k ≠ .events)
    (hitem : ∀ s i, left = some s → (s.poll c.now c.timing.replyGap).1 = some i →
      ∃ m, item? t.config k i = some m) :
    (pollListing c t).self.listing = (pollLeft c.now c.timing.replyGap left).2 ∧
      Replies (item? t.config k) t.given (pollLeft c.now c.timing.replyGap left).1
        (pollListing c t).given := by
  unfold pollListing
  rw [hleft]
  rcases left with _ | s
  · exact ⟨hleft, .silent⟩
  · obtain rfl := hkind s rfl
    dsimp only
    rw [pollLeft, if_neg hevents]
    rcases hnumber : (s.poll c.now c.timing.replyGap).1 with _ | i
    · exact ⟨rfl, .silent⟩
    · obtain ⟨message, hmessage⟩ := hitem s i rfl hnumber
      obtain ⟨hreplies, hself⟩ := replies_report
        (t := { t with self.listing := (s.poll c.now c.timing.replyGap).2 }) hmessage
      exact ⟨by rw [hself], hreplies⟩

/-- There is a report for every slot that is not free. -/
theorem exists_item?_events {slot : Nat} (h : d.isFree slot = false) :
    ∃ m, item? d .events slot = some m := by
  rw [item?, Configuration.event, if_pos (Configuration.slot_lt_of_isFree h)]
  exact ⟨_, rfl⟩

/-- What a poll of the list of the events does. -/
theorem replies_sweepListing {left : Option (Series EventListing)} (hleft : t.self.listing = left)
    (hkind : ∀ s, left = some s → s.kind = .events) :
    (pollListing c t).self.listing =
        (sweepLeft c.now c.timing.replyGap t.config.isFree left).2 ∧
      Replies (item? t.config .events) t.given
        (sweepLeft c.now c.timing.replyGap t.config.isFree left).1 (pollListing c t).given := by
  unfold pollListing
  rw [hleft]
  rcases left with _ | s
  · exact ⟨hleft, .silent⟩
  · have hevents : s.kind = .events := hkind s rfl
    dsimp only
    rw [if_pos hevents, sweepLeft, Option.map_some, pollLeft]
    rcases hnumber : ((s.skip t.config.isFree).poll c.now c.timing.replyGap).1 with _ | i
    · exact ⟨rfl, .silent⟩
    · obtain ⟨message, hmessage⟩ := exists_item?_events (vacant_of_poll_skip hnumber).2
      obtain ⟨hreplies, hself⟩ := replies_report (t := { t with
        self.listing := ((s.skip t.config.isFree).poll c.now c.timing.replyGap).2 }) hmessage
      rw [show (s.skip t.config.isFree).kind = .events from hevents]
      exact ⟨by rw [hself], hreplies⟩

end Teaching

end RailNode
