import Mathlib.Tactic.SplitIfs
import RailNode.Proofs.Service.Turn
import RailNode.Service.Teaching

/-
  What the turn of the service that teaches events does to the configuration: it edits the table,
  its index and learn mode, and an event is inserted only after a search has not found it.
-/
namespace RailNode.Teaching

open RailNode.Configuration

/-- The table, its index and learn mode. -/
def parts : List Part := [.learning, .records, .index]

/-- The table and its index. -/
def tableParts : List Part := [.records, .index]

theorem tableParts_subset_parts : tableParts ⊆ parts := by decide

@[simp]
theorem config_sendEvent (slot : Nat) (t : Turn Teaching) :
    (sendEvent slot t).config = t.config := by
  unfold sendEvent
  split <;> simp

@[simp]
theorem config_sendVariable (slot : Nat) (index value : UInt8) (t : Turn Teaching) :
    (sendVariable slot index value t).config = t.config := by
  unfold sendVariable
  split <;> simp

@[simp]
theorem config_sendSlotVariable (slot : Nat) (index value : UInt8) (t : Turn Teaching) :
    (sendSlotVariable slot index value t).config = t.config := by
  simp [sendSlotVariable]

@[simp]
theorem config_startListing (now : Time) (kind : EventListing) (first stop : Nat)
    (t : Turn Teaching) : (startListing now kind first stop t).config = t.config := rfl

@[simp]
theorem config_answerVariable (c : Cycle) (m : Message) (t : Turn Teaching) :
    (answerVariable c m t).config = t.config := by
  unfold answerVariable
  split
  · split
    · simp
    · split_ifs
      · simp
      · split <;> simp
  · simp

@[simp]
theorem config_answerEvent (m : Message) (t : Turn Teaching) :
    (answerEvent m t).config = t.config := by
  unfold answerEvent
  split
  · simp
  · split_ifs <;> simp

@[simp]
theorem config_answerSlotVariable (c : Cycle) (m : Message) (t : Turn Teaching) :
    (answerSlotVariable c m t).config = t.config := by
  unfold answerSlotVariable
  split
  · split_ifs
    · simp
    · simp
    · split <;> simp
  · simp

@[simp]
theorem config_report (kind : EventListing) (number : Nat) (t : Turn Teaching) :
    (report kind number t).config = t.config := by
  cases kind <;> simp [report]

@[simp]
theorem config_pollListing (c : Cycle) (t : Turn Teaching) :
    (pollListing c t).config = t.config := by
  unfold pollListing
  split
  · rfl
  · dsimp only
    split <;> simp

/-! ## The service -/

@[simp]
theorem self_sendEvent (slot : Nat) (t : Turn Teaching) : (sendEvent slot t).self = t.self := by
  unfold sendEvent
  split <;> simp

@[simp]
theorem self_sendVariable (slot : Nat) (index value : UInt8) (t : Turn Teaching) :
    (sendVariable slot index value t).self = t.self := by
  unfold sendVariable
  split <;> simp

@[simp]
theorem self_sendSlotVariable (slot : Nat) (index value : UInt8) (t : Turn Teaching) :
    (sendSlotVariable slot index value t).self = t.self := by
  simp [sendSlotVariable]

@[simp]
theorem self_report (kind : EventListing) (number : Nat) (t : Turn Teaching) :
    (report kind number t).self = t.self := by
  cases kind <;> simp [report]

/-! ## Edits -/

theorem edits_yieldLearning (m : Message) (t : Turn Teaching) :
    Edits parts t.config (yieldLearning m t).config := by
  unfold yieldLearning
  split_ifs
  · exact .single (.learning true (by decide))
  · exact .single (.learning false (by decide))
  · exact .refl

theorem edits_obeyMode (m : Message) (t : Turn Teaching) :
    Edits parts t.config (obeyMode m t).config := by
  unfold obeyMode
  split
  · exact .single (.learning true (by decide))
  · exact .single (.learning false (by decide))
  · exact .refl

theorem edits_clear (t : Turn Teaching) : Edits tableParts t.config (clear t).config := by
  unfold clear
  split_ifs
  · simpa using .single (.clear (by decide) (by decide))
  · simpa using .refl

theorem edits_handleNamed (c : Cycle) (m : Message) (o : Opcode) (t : Turn Teaching) :
    Edits parts t.config (handleNamed c m o t).config := by
  cases o with
  | nnuln => exact .single (.learning false (by decide))
  | mode => exact edits_obeyMode m t
  | nnclr => exact (edits_clear t).mono tableParts_subset_parts
  | _ => simpa [handleNamed] using .refl

theorem edits_teachVariable {slot index : Nat} {value : UInt8} {t t' : Turn Teaching}
    (h : teachVariable slot index value t = .ok t') : Edits tableParts t.config t'.config := by
  obtain ⟨d, hd, h⟩ := bind_eq_ok_iff.1 h
  have hset := toOption_eq_some_iff.1 (trust_eq_ok_iff.1 hd)
  rw [← Except.ok.inj h]
  simpa [Turn.config] using .single (.eventVariable (by decide) hset)

/-- An event is learned only after a search of the table has not found it. -/
theorem edits_learnEvent {slot : Nat} {e : EventId} {t t' : Turn Teaching}
    (h : learnEvent slot e t = .ok t') (hfind : t.config.find e = .error .notFound)
    (hfree : t.config.findFree = .ok slot) : Edits tableParts t.config t'.config := by
  obtain ⟨d, hd, h⟩ := bind_eq_ok_iff.1 h
  have hins := toOption_eq_some_iff.1 (trust_eq_ok_iff.1 hd)
  rw [← Except.ok.inj h]
  exact .single (.insert (by decide) (by decide) hfind hfree hins)

theorem edits_learn {m : Message} {t t' : Turn Teaching} (h : learn m t = .ok t') :
    Edits tableParts t.config t'.config := by
  unfold learn at h
  split at h
  · split_ifs at h
    · rw [← Except.ok.inj h]
      simpa using .refl
    · split at h
      · exact edits_teachVariable h
      · rename_i hfind
        split at h
        · rename_i hfree
          obtain ⟨u, hu, h⟩ := bind_eq_ok_iff.1 h
          rw [eq_notFound_of_find hfind] at hfind
          exact (edits_learnEvent hu hfind hfree).trans (edits_teachVariable h)
        · rw [← Except.ok.inj h]
          simpa using .refl
  · rw [← Except.ok.inj h]
    simpa using .refl

theorem edits_unlearn {m : Message} {t t' : Turn Teaching} (h : unlearn m t = .ok t') :
    Edits tableParts t.config t'.config := by
  unfold unlearn at h
  split at h
  · split at h
    · obtain ⟨d, hd, h⟩ := bind_eq_ok_iff.1 h
      have hremove := toOption_eq_some_iff.1 (trust_eq_ok_iff.1 hd)
      rw [← Except.ok.inj h]
      simpa [Turn.config] using .single (.remove (by decide) (by decide) hremove)
    · rw [← Except.ok.inj h]
      simpa using .refl
  · rw [← Except.ok.inj h]
    simpa using .refl

theorem edits_handle {c : Cycle} {m : Message} {t t' : Turn Teaching}
    (h : handle c m t = .ok t') : Edits parts t.config t'.config := by
  unfold handle at h
  split at h
  · rw [← Except.ok.inj h]
  · rw [← Except.ok.inj h]
    exact edits_yieldLearning m t
  · split_ifs at h
    · exact (edits_learn h).mono tableParts_subset_parts
    · rw [← Except.ok.inj h]
  · split_ifs at h
    · exact (edits_unlearn h).mono tableParts_subset_parts
    · rw [← Except.ok.inj h]
  · rw [← Except.ok.inj h]
    split_ifs <;> simpa using .refl
  · rw [← Except.ok.inj h]
    split_ifs
    · exact edits_handleNamed c m _ t
    · exact .refl

theorem edits_turn {c : Cycle} {t t' : Turn Teaching} (h : turn c t = .ok t') :
    Edits parts t.config t'.config := by
  unfold turn at h
  split at h
  · obtain ⟨u, hu, rfl⟩ := map_eq_ok_iff.1 h
    rw [config_pollListing]
    exact edits_handle hu
  · rw [← Except.ok.inj h, config_pollListing]

/-! ## Learning -/

/-- Every variable of every slot can be set. -/
theorem teachVariable_eq_ok {slot index : Nat} (value : UInt8) {t : Turn Teaching}
    (hs : slot < t.config.layout.slots) (h1 : 1 ≤ index)
    (h2 : index ≤ t.config.layout.eventVariables) :
    ∃ t', teachVariable slot index value t = .ok t' := by
  unfold teachVariable
  rw [t.config.setEventVariable_eq hs h1 h2]
  exact ⟨_, rfl⟩

/-- The turn of the service after an event has been filed in a slot. -/
def filed (slot : Nat) (e : EventId) (t : Turn Teaching) : Turn Teaching :=
  { t with
    shared.config := (t.config.fileEvent slot e).reindex slot
    self.learned := t.self.learned + 1 }

theorem learnEvent_eq {slot : Nat} {t : Turn Teaching} (hs : slot < t.config.layout.slots)
    (e : EventId) : learnEvent slot e t = .ok (filed slot e t) := by
  rw [learnEvent, t.config.insertEvent_eq hs e]
  rfl

/-! ## Faults -/

theorem eq_fault_of_teachVariable {slot index : Nat} {value : UInt8} {t : Turn Teaching}
    {x : Halt} (h : teachVariable slot index value t = .error x) : x = .fault := by
  rcases bind_eq_error_iff.1 h with h | ⟨_, _, h⟩
  · exact eq_fault_of_trust h
  · contradiction

theorem eq_fault_of_learn {m : Message} {t : Turn Teaching} {x : Halt}
    (h : learn m t = .error x) : x = .fault := by
  unfold learn at h
  split at h
  · split_ifs at h
    split at h
    · exact eq_fault_of_teachVariable h
    · split at h
      · rcases bind_eq_error_iff.1 h with h | ⟨u, _, h⟩
        · rcases bind_eq_error_iff.1 h with h | ⟨_, _, h⟩
          · exact eq_fault_of_trust h
          · contradiction
        · exact eq_fault_of_teachVariable h
      · contradiction
  · contradiction

theorem eq_fault_of_unlearn {m : Message} {t : Turn Teaching} {x : Halt}
    (h : unlearn m t = .error x) : x = .fault := by
  unfold unlearn at h
  split at h
  · split at h
    · rcases bind_eq_error_iff.1 h with h | ⟨_, _, h⟩
      · exact eq_fault_of_trust h
      · contradiction
    · contradiction
  · contradiction

theorem eq_fault_of_handle {c : Cycle} {m : Message} {t : Turn Teaching} {x : Halt}
    (h : handle c m t = .error x) : x = .fault := by
  unfold handle at h
  split at h
  · contradiction
  · contradiction
  · split_ifs at h
    exact eq_fault_of_learn h
  · split_ifs at h
    exact eq_fault_of_unlearn h
  · contradiction
  · contradiction

/-- Teaching never restarts the device. -/
theorem eq_fault_of_turn {c : Cycle} {t : Turn Teaching} {x : Halt} (h : turn c t = .error x) :
    x = .fault := by
  unfold turn at h
  split at h
  · exact eq_fault_of_handle (map_eq_error_iff.1 h)
  · contradiction

end RailNode.Teaching
