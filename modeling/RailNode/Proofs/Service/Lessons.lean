import RailNode.Proofs.Service.Learning

/-
  What is left of a lesson. An EVLRN message that the service for events confirms is obeyed to the
  letter: afterwards the event is found, in a slot that is not free, and the variable has the value
  that was taught. There is one exception. The record of the erased event looks like that of a free
  slot, so this event is not found in the slot in which it has just been filed
  (`Teaching.knows_iff_of_confirms`).
-/
namespace RailNode

open Turn

/-! ## What a configuration knows -/

namespace Configuration

variable {c d : Configuration} {e : EventId} {slot index : Nat} {value : UInt8}

/-- The event is found in a slot that is not free, with this value in the variable. -/
def Knows (c : Configuration) (e : EventId) (index : Nat) (value : UInt8) : Prop :=
  ∃ slot, c.find e = .ok slot ∧ c.isFree slot = false ∧ c.eventVariable slot index = .ok value

theorem knows_iff : c.Knows e index value ↔ (c.find e).toOption.any (fun slot =>
    !c.isFree slot && (c.eventVariable slot index).toOption == some value) = true := by
  simp only [Knows, Option.any_eq_true, toOption_eq_some_iff, Bool.and_eq_true, Bool.not_eq_true',
    beq_iff_eq]

instance (c : Configuration) (e : EventId) (index : Nat) (value : UInt8) :
    Decidable (c.Knows e index value) :=
  decidable_of_iff' _ knows_iff

theorem IndexAgrees.not_knows_erased (hc : c.IndexAgrees) : ¬ c.Knows .erased index value := by
  rintro ⟨slot, hfind, -⟩
  rw [hc.find_erased] at hfind
  contradiction

/-- A variable of an event that is found takes the value that it is given. -/
theorem IndexAgrees.knows_setEventVariable (hc : c.IndexAgrees) (hfind : c.find e = .ok slot)
    (h : c.setEventVariable slot index value = .ok d) : d.Knows e index value := by
  have hd := hc.setEventVariable h
  have hl := (changesOnly_setEventVariable h).layout
  have hfound : d.find e = .ok slot :=
    (hc.find_congr hd hl fun _ hs => record?_setEventVariable h hs).2 hfind
  exact ⟨slot, hfound, hd.isFree_of_find hfound, eventVariable_setEventVariable h⟩

end Configuration

/-! ## Lessons -/

/-- An EVLRN message with all its bytes: the variable of the event is to have this value. -/
structure Message.Teaches (m : Message) (e : EventId) (index value : UInt8) : Prop where
  opcode : m.opcode? = some .evlrn
  event : m.event? = some e
  index : m.byte? 5 = some index
  value : m.byte? 6 = some value

namespace Teaching

open RailNode.Configuration

theorem length_confirmation_le (command : Opcode) :
    [command.byte, ServiceId.teaching.byte, ResponseCode.ok.byte].length ≤ 5 := by
  simp

/-- A command has been confirmed, both ways that the protocol has for it. -/
def Confirms (command : Opcode) (as : List Action) : Prop :=
  ∃ number, .transmit (.addressed Opcode.wrack.byte number []) ∈ as ∧
    .transmit (.addressed Opcode.grsp.byte number
      [command.byte, ServiceId.teaching.byte, ResponseCode.ok.byte]
      (length_confirmation_le command)) ∈ as

variable {c : Cycle} {m : Message} {t t' : Turn Teaching} {e : EventId} {index value : UInt8}

theorem wrack_notMem_reports {number : UInt16} {reports : List Action}
    (h : ∀ a ∈ reports, IsReport a) :
    .transmit (.addressed Opcode.wrack.byte number []) ∉ reports := by
  intro hmem
  obtain ⟨m, hm, ho⟩ := h _ hmem
  obtain rfl := Action.transmit.inj hm
  rw [Message.opcode?_addressed .wrack] at ho
  exact absurd ho (by decide)

/-- A refusal confirms nothing, whatever is reported after it. -/
theorem not_confirms_refusal {command : Opcode} {number : UInt16} {x : CommandError}
    {reports : List Action} (h : ∀ a ∈ reports, IsReport a) :
    ¬ Confirms command (answers number command (.error x) ++ reports) := by
  rintro ⟨number', hwrack, -⟩
  rcases List.mem_append.1 hwrack with hwrack | hwrack
  · simp only [answers, List.mem_cons, List.not_mem_nil, or_false] at hwrack
    rcases hwrack with hm | hm
    all_goals
      have hopcode := congrArg Message.opcode? (Action.transmit.inj hm)
      simp only [Message.opcode?_addressed] at hopcode
      exact absurd (Option.some.inj hopcode) (by decide)
  · exact wrack_notMem_reports h hwrack

theorem config_teachVariable {slot index : Nat} (h : teachVariable slot index value t = .ok t') :
    t.config.setEventVariable slot index value = .ok t'.config := by
  obtain ⟨d, hd, h⟩ := bind_eq_ok_iff.1 h
  rw [← Except.ok.inj h, config_put, config_confirm]
  exact toOption_eq_some_iff.1 (trust_eq_ok_iff.1 hd)

/-- A lesson is refused, or its message is complete and afterwards the variable has the value in the
    slot in which the event was found or has been filed. -/
theorem learn_cases (hc : t.config.IndexAgrees) (h : learn m t = .ok t') :
    (∃ x, t' = t.refuse .evlrn .teaching x) ∨
      ∃ e index value slot, ∃ d : Configuration, m.event? = some e ∧ m.byte? 5 = some index ∧
        m.byte? 6 = some value ∧ d.IndexAgrees ∧ (e ≠ .erased → d.find e = .ok slot) ∧
        d.setEventVariable slot index.toNat value = .ok t'.config := by
  unfold learn at h
  split at h
  · rename_i e index value he hindex hvalue
    split_ifs at h
    · exact Or.inl ⟨_, (Except.ok.inj h).symm⟩
    · rcases hfind : t.config.find e with x | slot
      · rw [hfind] at h
        obtain rfl := eq_notFound_of_find hfind
        rcases hfree : t.config.findFree with x | slot
        · rw [hfree] at h
          exact Or.inl ⟨_, (Except.ok.inj h).symm⟩
        · rw [hfree] at h
          obtain ⟨u, hu, h⟩ := bind_eq_ok_iff.1 h
          obtain ⟨d, hd, hu⟩ := bind_eq_ok_iff.1 hu
          obtain rfl := Except.ok.inj hu
          have hd := toOption_eq_some_iff.1 (trust_eq_ok_iff.1 hd)
          exact Or.inr ⟨e, index, value, slot, d, he, hindex, hvalue, hc.insertEvent hd,
            fun hne => hc.find_insertEvent hne hfind hd, config_teachVariable h⟩
      · rw [hfind] at h
        exact Or.inr ⟨e, index, value, slot, t.config, he, hindex, hvalue, hc, fun _ => hfind,
          config_teachVariable h⟩
  · exact Or.inl ⟨_, (Except.ok.inj h).symm⟩

/-- A lesson that is confirmed is complete, and afterwards the configuration knows what was taught,
    unless it was about the erased event. -/
theorem knows_iff_of_confirms (hc : t.config.IndexAgrees) (hempty : t.given = [])
    (ho : m.opcode? = some .evlrn) (hm : c.received? = some m) (h : turn c t = .ok t')
    (hconfirms : Confirms .evlrn t'.given) :
    ∃ e index value, m.Teaches e index value ∧
      (t'.config.Knows e index.toNat value ↔ e ≠ .erased) := by
  unfold turn at h
  rw [hm] at h
  obtain ⟨u, hu, rfl⟩ := map_eq_ok_iff.1 h
  obtain ⟨reports, hgiven, hreports, -⟩ := given_pollListing c u
  rw [hgiven] at hconfirms
  unfold handle at hu
  rw [ho] at hu
  dsimp only at hu
  split_ifs at hu
  · rcases learn_cases hc hu with ⟨x, rfl⟩ | ⟨e, index, value, slot, d, he, hi, hv, hd, hfind, hset⟩
    · rw [given_refuse, hempty, List.nil_append] at hconfirms
      exact absurd hconfirms (not_confirms_refusal hreports)
    · refine ⟨e, index, value, ⟨ho, he, hi, hv⟩, ?_⟩
      rw [config_pollListing]
      refine ⟨fun hknows => ?_, fun hne => hd.knows_setEventVariable (hfind hne) hset⟩
      rintro rfl
      exact (hd.setEventVariable hset).not_knows_erased hknows
  · rw [← Except.ok.inj hu, hempty, List.nil_append] at hconfirms
    obtain ⟨number, hwrack, -⟩ := hconfirms
    exact absurd hwrack (wrack_notMem_reports hreports)

/-- A request for a variable that the configuration knows is answered with its value. -/
theorem given_of_knows (hc : t.config.IndexAgrees) (hlearning : t.config.learning = true)
    (hknows : t.config.Knows e index.toNat value) (ho : m.opcode? = some .reqev)
    (he : m.event? = some e) (hindex : m.byte? 5 = some index) (hm : c.received? = some m)
    (h : turn c t = .ok t') :
    ∃ reports, t'.given = t.given ++ .transmit (.addressed Opcode.evans.byte e.node
      (Word.bytes e.number ++ [index, value])) :: reports := by
  obtain ⟨slot, hfind, -, hvalue⟩ := hknows
  obtain ⟨hs, h1, -⟩ := eventVariable_eq_ok hvalue
  have hevent : t.config.event slot = .ok e := (hc.find_eq_ok_iff.1 hfind).2.1.2
  have hnonzero : index ≠ 0 := by
    rintro rfl
    exact absurd h1 (by decide)
  unfold turn at h
  rw [hm] at h
  obtain ⟨u, hu, rfl⟩ := map_eq_ok_iff.1 h
  obtain ⟨reports, hgiven, -⟩ := given_pollListing c u
  unfold handle answerVariable at hu
  simp only [ho, hlearning, if_true, he, hindex, hfind, if_neg hnonzero, hvalue, sendVariable,
    hevent] at hu
  refine ⟨reports, ?_⟩
  rw [hgiven, ← Except.ok.inj hu, given_send, List.append_assoc]
  rfl

end Teaching

end RailNode
