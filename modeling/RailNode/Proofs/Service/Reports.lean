import RailNode.Proofs.Node.Requests
import RailNode.Proofs.Recognition
import RailNode.Proofs.Service.Learning
import RailNode.Proofs.Service.Listings.Teaching

/-
  The reports of the service for events, held against the table of the moment. A request is answered
  truly at once (`Teaching.truthful_prepare`), and the list of the events passes over free slots.
  But a list of variables keeps to the slot with which it began, whether that has been freed
  meanwhile or not: the reports of a turn are true unless such a list goes on about a free slot
  (`Teaching.truthful_pollListing_iff`).
-/
namespace RailNode

open Series Turn

/-! ## True reports -/

namespace Configuration

variable {d : Configuration}

/-- What is told of a variable in a slot: its value, or with index 0 the number of variables. -/
inductive Tells (d : Configuration) (slot : Nat) : UInt8 → UInt8 → Prop
  | count : Tells d slot 0 d.layout.eventVariableCount
  | value {index value : UInt8} : d.eventVariable slot index.toNat = .ok value →
      Tells d slot index value

/-- The message reports what stands in a slot that is not free. -/
inductive Reports (d : Configuration) : Message → Prop
  | event {slot : UInt8} {e : EventId} : d.isFree slot.toNat = false →
      d.event slot.toNat = .ok e →
      Reports d (.addressed Opcode.enrsp.byte d.nodeNumber (e.bytes ++ [slot]))
  | eventVariable {slot index value : UInt8} {e : EventId} : d.isFree slot.toNat = false →
      d.event slot.toNat = .ok e → d.Tells slot.toNat index value →
      Reports d (.addressed Opcode.evans.byte e.node (Word.bytes e.number ++ [index, value]))
  | slotVariable {slot index value : UInt8} : d.isFree slot.toNat = false →
      d.Tells slot.toNat index value →
      Reports d (.addressed Opcode.neval.byte d.nodeNumber [slot, index, value])

/-- The number of a slot fits in the byte in which it is reported. -/
theorem toNat_slot {slot : Nat} (h : slot < d.layout.slots) : (UInt8.ofNat slot).toNat = slot :=
  UInt8.toNat_ofNat_of_lt' (Nat.lt_trans h d.layout.eventCount.toNat_lt)

/-- A true report is about some slot that is not free. -/
theorem Reports.exists_not_free {m : Message} (h : d.Reports m) :
    ∃ slot, d.isFree slot = false := by
  cases h with
  | event hfree _ => exact ⟨_, hfree⟩
  | eventVariable hfree _ _ => exact ⟨_, hfree⟩
  | slotVariable hfree _ => exact ⟨_, hfree⟩

/-- A report with the erased event is never true. -/
theorem Reports.event_ne_erased (hc : d.IndexAgrees) {e : EventId} {index value : UInt8}
    (h : d.Reports (.addressed Opcode.evans.byte e.node (Word.bytes e.number ++ [index, value]))) :
    e ≠ .erased := by
  generalize hm : Message.addressed Opcode.evans.byte e.node _ _ = m at h
  cases h with
  | event _ _ => exact absurd (congrArg Message.opcode? hm) (by simp)
  | slotVariable _ _ => exact absurd (congrArg Message.opcode? hm) (by simp)
  | @eventVariable slot _ _ e' hfree hevent _ =>
    have hevents := congrArg Message.event? hm
    rw [Message.event?_addressed, Message.event?_addressed] at hevents
    obtain rfl : e = e' := Option.some.inj hevents
    rintro rfl
    have hs := slot_lt_of_isFree hfree
    exact (hc.isFree_eq_false_iff hs).1 hfree ((vacant_iff_event hs).2 hevent)

/-- A true report of a slot is about one that is not free. -/
theorem Reports.isFree_slotVariable {slot index value : UInt8}
    (h : d.Reports (.addressed Opcode.neval.byte d.nodeNumber [slot, index, value])) :
    d.isFree slot.toNat = false := by
  generalize hm : Message.addressed Opcode.neval.byte d.nodeNumber _ _ = m at h
  cases h with
  | event _ _ => exact absurd (congrArg Message.opcode? hm) (by simp)
  | eventVariable _ _ _ => exact absurd (congrArg Message.opcode? hm) (by simp)
  | @slotVariable slot' _ _ hfree _ =>
    have hslots : some slot = some slot' := congrArg (Message.byte? · 3) hm
    exact Option.some.inj hslots ▸ hfree

end Configuration

/-- What is queued, if it is a report of the event table, is true at that moment. -/
def Emission.Truthful (x : Emission Action) : Prop :=
  Teaching.IsReport x.item → ∃ m, x.item = .transmit m ∧ x.config.Reports m

/-- There is nothing to report from an empty table. -/
theorem Emission.not_truthful {x : Emission Action} (hreport : Teaching.IsReport x.item)
    (hfree : ∀ slot < x.config.layout.slots, x.config.isFree slot = true) : ¬ x.Truthful := by
  intro h
  obtain ⟨m, _, hm⟩ := h hreport
  obtain ⟨slot, hslot⟩ := hm.exists_not_free
  have htrue := hfree slot (Configuration.slot_lt_of_isFree hslot)
  rw [hslot] at htrue
  contradiction

namespace Turn

variable {σ τ : Type} {t : Turn σ} {t' : Turn τ}

/-- Every report that the turn has queued so far is true. -/
def Truthful (t : Turn σ) : Prop := ∀ x ∈ t.trace.queued, x.Truthful

theorem truthful_put_iff {a : Action} :
    (t.put a).Truthful ↔ t.Truthful ∧ Emission.Truthful ⟨a, t.config⟩ :=
  List.forall_mem_append.trans (and_congr_right fun _ => List.forall_mem_singleton)

theorem Truthful.send (h : t.Truthful) {m : Message} (hm : t.config.Reports m) :
    (t.send m).Truthful :=
  truthful_put_iff.2 ⟨h, fun _ => ⟨m, rfl, hm⟩⟩

theorem truthful_of_queued_eq_nil (h : t.trace.queued = []) : t.Truthful := by
  intro x hx
  rw [h] at hx
  exact absurd hx List.not_mem_nil

/-- Who does not speak with the opcodes of reports says nothing untrue. -/
theorem Speaks.truthful {os : List Opcode} (h : Speaks os t t') (hempty : t.trace.queued = [])
    (hos : ∀ o ∈ [Opcode.enrsp, .evans, .neval], o ∉ os ++ Opcode.responses) : t'.Truthful := by
  obtain ⟨as, has, hall⟩ := h.adds
  intro x hx hreport
  have hmem : x.item ∈ as := by
    have hgiven := has.given
    rw [given, given, hempty, List.map_nil, List.nil_append] at hgiven
    rw [← hgiven]
    exact List.mem_map.2 ⟨x, hx, rfl⟩
  obtain ⟨m, hm, ho⟩ := hreport
  have hsends : ∀ o, m.opcode? = some o → o ∈ os ++ Opcode.responses := fun o ho =>
    (hall x.item hmem).2 o (by rw [hm]; exact beq_iff_eq.2 ho)
  rcases ho with ho | ho | ho
  · exact absurd (hsends _ ho) (hos _ (by decide))
  · exact absurd (hsends _ ho) (hos _ (by decide))
  · exact absurd (hsends _ ho) (hos _ (by decide))

end Turn

/-- The long answer lists the variables of this slot. -/
def EventListing.IsAbout (slot : Nat) (k : EventListing) : Prop :=
  k = .eventVariables slot ∨ k = .slotVariables slot

namespace EventListing

theorem IsAbout.unique {k : EventListing} {slot slot' : Nat} (h : k.IsAbout slot)
    (h' : k.IsAbout slot') : slot' = slot := by
  rcases h with rfl | rfl <;> simpa [IsAbout, eq_comm] using h'

theorem exists_isAbout {k : EventListing} (h : k ≠ .events) : ∃ slot, k.IsAbout slot := by
  cases k with
  | events => exact absurd rfl h
  | eventVariables slot => exact ⟨slot, Or.inl rfl⟩
  | slotVariables slot => exact ⟨slot, Or.inr rfl⟩

end EventListing

/-! ## Answers -/

namespace Teaching

open RailNode.Configuration

variable {c : Cycle} {m : Message} {t u : Turn Teaching} {slot : Nat} {index value : UInt8}

theorem truthful_sendEvent (ht : t.Truthful) (hfree : t.config.isFree slot = false) :
    (sendEvent slot t).Truthful := by
  have hslot := toNat_slot (slot_lt_of_isFree hfree)
  unfold sendEvent
  split
  · rename_i e he
    refine ht.send (.event ?_ ?_)
    · rw [hslot]
      exact hfree
    · rw [hslot]
      exact he
  · exact ht

/-- A report of a variable with the event in its slot is true exactly if the slot is not free. -/
theorem truthful_sendVariable_iff (ht : t.Truthful) (hc : t.config.IndexAgrees)
    (hs : slot < t.config.layout.slots) (htells : t.config.Tells slot index value) :
    (sendVariable slot index value t).Truthful ↔ t.config.isFree slot = false := by
  have hslot := toNat_slot hs
  unfold sendVariable
  rw [t.config.event_eq hs]
  dsimp only
  constructor
  · intro h
    obtain ⟨_, hm, hreports⟩ := (truthful_put_iff.1 h).2
      ⟨_, rfl, Or.inr (Or.inl (Message.opcode?_addressed .evans _ _ _))⟩
    obtain rfl := Action.transmit.inj hm
    refine (hc.isFree_eq_false_iff hs).2 fun hvacant => ?_
    have hevent := (vacant_iff_event hs).1 hvacant
    rw [t.config.event_eq hs] at hevent
    exact hreports.event_ne_erased hc (Except.ok.inj hevent)
  · intro hfree
    rw [← hslot] at hfree
    refine ht.send (.eventVariable hfree ?_ ?_)
    · rw [hslot]
      exact t.config.event_eq hs
    · rw [hslot]
      exact htells

theorem truthful_sendSlotVariable_iff (ht : t.Truthful) (hs : slot < t.config.layout.slots)
    (htells : t.config.Tells slot index value) :
    (sendSlotVariable slot index value t).Truthful ↔ t.config.isFree slot = false := by
  have hslot := toNat_slot hs
  constructor
  · intro h
    obtain ⟨_, hm, hreports⟩ := (truthful_put_iff.1 h).2
      ⟨_, rfl, Or.inr (Or.inr (Message.opcode?_addressed .neval _ _ _))⟩
    obtain rfl := Action.transmit.inj hm
    rw [← hslot]
    exact hreports.isFree_slotVariable
  · intro hfree
    refine ht.send (.slotVariable ?_ ?_)
    · rw [hslot]
      exact hfree
    · rw [hslot]
      exact htells

/-- Whoever refuses a request reports nothing. -/
theorem truthful_refuse (hempty : t.trace.queued = []) (command : Opcode) (e : CommandError) :
    (t.refuse command .teaching e).Truthful :=
  ((Speaks.refl t).refuse command .teaching e : Speaks signals t _).truthful hempty (by decide)

theorem truthful_answerVariable (hempty : t.trace.queued = []) (hc : t.config.IndexAgrees) :
    (answerVariable c m t).Truthful := by
  have ht := truthful_of_queued_eq_nil hempty
  unfold answerVariable
  split
  · rename_i e index _ _
    rcases hfind : t.config.find e with _ | slot
    · exact truthful_refuse hempty _ _
    · have hs := slot_lt_of_find hfind
      have hfree := hc.isFree_of_find hfind
      dsimp only
      split_ifs
      · exact (truthful_sendVariable_iff ht hc hs .count).2 hfree
      · split
        · rename_i value hvalue
          exact (truthful_sendVariable_iff ht hc hs (.value hvalue)).2 hfree
        · exact truthful_refuse hempty _ _
  · exact truthful_refuse hempty _ _

theorem truthful_answerEvent (hempty : t.trace.queued = []) : (answerEvent m t).Truthful := by
  unfold answerEvent
  split
  · exact truthful_refuse hempty _ _
  · split_ifs with hfree
    · exact truthful_refuse hempty _ _
    · exact truthful_sendEvent (truthful_of_queued_eq_nil hempty) (Bool.eq_false_iff.2 hfree)

theorem truthful_answerSlotVariable (hempty : t.trace.queued = []) :
    (answerSlotVariable c m t).Truthful := by
  have ht := truthful_of_queued_eq_nil hempty
  unfold answerSlotVariable
  split
  · rename_i slot index _ _
    split_ifs with hfree hindex
    · exact truthful_refuse hempty _ _
    · have hfree := Bool.eq_false_iff.2 hfree
      exact (truthful_sendSlotVariable_iff ht (slot_lt_of_isFree hfree) .count).2 hfree
    · have hfree := Bool.eq_false_iff.2 hfree
      split
      · rename_i value hvalue
        exact (truthful_sendSlotVariable_iff ht (slot_lt_of_isFree hfree) (.value hvalue)).2 hfree
      · exact truthful_refuse hempty _ _
      · exact truthful_refuse hempty _ _
  · exact truthful_refuse hempty _ _

/-- What is answered to a message at once is true. -/
theorem truthful_handle (hempty : t.trace.queued = []) (hc : t.config.IndexAgrees)
    (h : handle c m t = .ok u) : u.Truthful := by
  by_cases hnone : repliesTo t.config m = []
  · have hspeaks := speaks_handle h
    rw [hnone] at hspeaks
    exact hspeaks.truthful hempty (by decide)
  · unfold handle at h
    unfold repliesTo at hnone
    split at hnone
    · rename_i ho
      rw [ho] at h
      split_ifs at hnone with hlearning
      · dsimp only at h
        rw [if_pos hlearning] at h
        exact Except.ok.inj h ▸ truthful_answerVariable hempty hc
      · contradiction
    · rename_i ho
      rw [ho] at h
      split_ifs at hnone with hnamed
      · dsimp only at h
        rw [isNamedBy_eq, if_pos hnamed] at h
        exact Except.ok.inj h ▸ truthful_answerEvent hempty
      · contradiction
    · rename_i ho
      rw [ho] at h
      split_ifs at hnone with hnamed
      · dsimp only at h
        rw [isNamedBy_eq, if_pos hnamed] at h
        exact Except.ok.inj h ▸ truthful_answerSlotVariable hempty
      · contradiction
    · exact absurd rfl hnone

theorem truthful_prepare (hempty : t.trace.queued = []) (hc : t.config.IndexAgrees)
    (h : prepare c t = .ok u) : u.Truthful := by
  unfold prepare at h
  rcases hm : c.received? with _ | m
  · rw [hm] at h
    exact Except.ok.inj h ▸ truthful_of_queued_eq_nil hempty
  · rw [hm] at h
    exact truthful_handle hempty hc h

/-! ## Series of reports -/

/-- A list of the variables of a slot is in range: the slot is there, and so are the variables that
    are still to be reported. -/
def Ranges (l : Layout) (listing : Option (Series EventListing)) : Prop :=
  ∀ s slot, listing = some s → s.kind.IsAbout slot → slot < l.slots ∧ s.Within l.eventVariables

theorem ranges_prepare (ht : Ranges t.config.layout t.self.listing) (h : prepare c t = .ok u) :
    Ranges u.config.layout u.self.listing := by
  rw [layout_prepare h, listing_prepare h]
  rcases hasked : c.received?.bind (asked? t.config) with _ | k
  · exact ht
  · obtain ⟨m, _, hk⟩ := Option.bind_eq_some_iff.1 hasked
    intro s slot hs habout
    obtain rfl : opened c t.config k = s := Option.some.inj hs
    cases k with
    | events => exact habout.elim nofun nofun
    | eventVariables slot' => exact ⟨slot_lt_of_asked hk slot habout, within_start _ _ _⟩
    | slotVariables slot' => exact ⟨slot_lt_of_asked hk slot habout, within_start _ _ _⟩

theorem ranges_pollListing {l : Layout} (hu : Ranges l u.self.listing) :
    Ranges l (pollListing c u).self.listing := by
  unfold pollListing
  split
  · exact hu
  · rename_i s hlisting
    dsimp only
    generalize hs' : (if s.kind = .events then s.skip u.config.isFree else s) = s'
    have hself : ∀ t : Turn Teaching, t.self.listing = (s'.poll c.now c.timing.replyGap).2 →
        Ranges l t.self.listing := by
      intro t ht rest slot hrest habout
      rw [ht] at hrest
      have hkind := (poll_snd hrest).1
      split_ifs at hs' with hevents
      · rw [hkind, ← hs', show (s.skip u.config.isFree).kind = .events from hevents] at habout
        exact habout.elim nofun nofun
      · obtain rfl := hs'
        rw [hkind] at habout
        obtain ⟨hslot, hwithin⟩ := hu s slot hlisting habout
        exact ⟨hslot, within_of_poll_snd hwithin hrest⟩
    split
    · exact hself _ rfl
    · exact hself _ (by rw [self_report])

/-- A turn leaves its list of variables in range. -/
theorem ranges_turn (ht : Ranges t.config.layout t.self.listing) (h : turn c t = .ok u) :
    Ranges u.config.layout u.self.listing := by
  obtain ⟨u, hu, rfl⟩ := turn_eq_ok_iff.1 h
  rw [config_pollListing]
  exact ranges_pollListing (ranges_prepare ht hu)

/-- A report is due of a list about a slot that is free. -/
def PollsFreed (c : Cycle) (u : Turn Teaching) : Prop :=
  ∃ s slot i, u.self.listing = some s ∧ s.kind.IsAbout slot ∧
    (s.poll c.now c.timing.replyGap).1 = some i ∧ u.config.isFree slot = true

theorem pollsFreed_iff {s : Series EventListing} {i : Nat} (hs : u.self.listing = some s)
    (habout : s.kind.IsAbout slot) (hi : (s.poll c.now c.timing.replyGap).1 = some i) :
    PollsFreed c u ↔ u.config.isFree slot = true := by
  constructor
  · rintro ⟨s', slot', _, hs', habout', _, hfree⟩
    obtain rfl : s = s' := Option.some.inj (hs.symm.trans hs')
    exact habout.unique habout' ▸ hfree
  · exact fun hfree => ⟨s, slot, i, hs, habout, hi, hfree⟩

/-- The value that a series reports for a variable that is there. -/
theorem tells_value {d : Configuration} {i : Nat} (hs : slot < d.layout.slots) (h1 : 1 ≤ i)
    (h2 : i ≤ d.layout.eventVariables) :
    d.Tells slot (UInt8.ofNat i) ((d.eventVariable slot i).toOption.getD 0) := by
  have hi : (UInt8.ofNat i).toNat = i :=
    UInt8.toNat_ofNat_of_lt' (Nat.lt_of_le_of_lt h2 d.layout.eventVariableCount.toNat_lt)
  have hvalue : d.eventVariable slot i =
      .ok (d.store.read (d.layout.eventVariableAddress slot i)) := by
    rw [eventVariable, variableAddress, if_neg (by omega), if_neg (by omega)]
    rfl
  refine .value ?_
  rw [hi, hvalue]
  rfl

/-- The reports of a turn that has told the truth so far stay true exactly if no report is due of a
    list about a slot that is free. -/
theorem truthful_pollListing_iff (hu : u.Truthful) (hc : u.config.IndexAgrees)
    (hranges : Ranges u.config.layout u.self.listing) :
    (pollListing c u).Truthful ↔ ¬ PollsFreed c u := by
  unfold pollListing
  rcases hlisting : u.self.listing with _ | s
  · refine iff_of_true hu ?_
    rintro ⟨s, _, _, hs, _⟩
    rw [hlisting] at hs
    contradiction
  dsimp only
  by_cases hevents : s.kind = .events
  · rw [if_pos hevents, show (s.skip u.config.isFree).kind = .events from hevents]
    refine iff_of_true ?_ ?_
    · split
      · exact hu
      · rename_i i hi
        refine truthful_sendEvent ?_ (vacant_of_poll_skip hi).2
        exact hu
    · rintro ⟨s', slot, _, hs, habout, _⟩
      rw [hlisting] at hs
      obtain rfl := Option.some.inj hs
      rw [hevents] at habout
      exact habout.elim nofun nofun
  · rw [if_neg hevents]
    obtain ⟨slot, habout⟩ := EventListing.exists_isAbout hevents
    obtain ⟨hs, hwithin⟩ := hranges s slot hlisting habout
    rcases hnumber : (s.poll c.now c.timing.replyGap).1 with _ | i
    · refine iff_of_true hu ?_
      rintro ⟨s', _, _, hs', _, hi, _⟩
      rw [hlisting] at hs'
      obtain rfl := Option.some.inj hs'
      rw [hnumber] at hi
      contradiction
    · obtain ⟨h1, h2⟩ := within_of_poll_fst hwithin hnumber
      have htells := tells_value (d := u.config) hs h1 h2
      rw [pollsFreed_iff hlisting habout hnumber, Bool.not_eq_true]
      dsimp only
      rcases habout with hkind | hkind
      · rw [hkind]
        exact truthful_sendVariable_iff (t := { u with self.listing := _ }) hu hc hs htells
      · rw [hkind]
        exact truthful_sendSlotVariable_iff (t := { u with self.listing := _ }) hu hs htells

/-- The reports of a turn are true exactly if none is due of a list about a slot that is free. -/
theorem truthful_turn_iff {t' : Turn Teaching} (hempty : t.trace.queued = [])
    (hc : t.config.IndexAgrees) (hranges : Ranges t.config.layout t.self.listing)
    (hu : prepare c t = .ok u) (h : turn c t = .ok t') : t'.Truthful ↔ ¬ PollsFreed c u := by
  obtain ⟨u', hu', rfl⟩ := turn_eq_ok_iff.1 h
  obtain rfl : u = u' := Except.ok.inj (hu.symm.trans hu')
  exact truthful_pollListing_iff (truthful_prepare hempty hc hu)
    ((edits_prepare hu).indexAgrees hc) (ranges_prepare hranges hu)

end Teaching

/-! ## All services -/

namespace Service

/-- If the service is that for events, its list of variables is in range. -/
def Ranges (l : Layout) : Service → Prop
  | teaching s => Teaching.Ranges l s.listing
  | _ => True

variable {l : Layout} {c : Cycle} {t t' : Turn Service} {s : Service}

theorem ranges_of_ne (h : s.id ≠ .teaching) : s.Ranges l := by
  cases s with
  | teaching s => exact absurd rfl h
  | _ => trivial

theorem ranges_core_iff : s.core.Ranges l ↔ s.Ranges l := by
  cases s <;> exact Iff.rfl

theorem ranges_of_isNew (h : s.IsNew) : s.Ranges l := by
  cases s with
  | teaching s =>
    obtain rfl : s = {} := h
    exact nofun
  | _ => trivial

theorem ranges_turn (h : turn c t = .ok t') (hs : t.self.Ranges t.config.layout) :
    t'.self.Ranges t.config.layout := by
  obtain ⟨s, shared, trace⟩ := t
  cases s with
  | teaching s =>
    obtain ⟨u, hu, rfl⟩ := map_eq_ok_iff.1 h
    have hlayout := (Teaching.edits_turn hu).changesOnly.layout
    exact hlayout ▸ Teaching.ranges_turn (t := { self := s, shared, trace }) hs hu
  | _ => exact ranges_of_ne (by rw [id_turn h]; simp only [id]; decide)

end Service

end RailNode
