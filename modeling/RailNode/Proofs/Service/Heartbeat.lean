import RailNode.Proofs.Configuration.Assignments
import RailNode.Proofs.Service.Negotiation

/-
  The heartbeat, turn by turn. The action of a cycle leaves the heartbeat as it is or lets it begin
  anew (`Carries`), and the poll then gives one heartbeat at most (`Pulses`, `pulses_turn`). What
  the polls of a heart that goes on beating make of it is a law of the number of heartbeats since a
  start and of when the next is due: it bounds the number under every clock (`Heartbeat.Bounded`),
  and tells it under a clock that never skips an interval (`Heartbeat.Punctual`).
-/
namespace RailNode

/-! ## The number of heartbeats -/

namespace Heartbeat

variable {interval start now now' due : Time} {count : Nat}

/-- At a time there have been so many heartbeats since a start, at most one in an interval, and the
    next is due when another interval has passed at the earliest. -/
structure Bounded (interval start : Time) (count : Nat) (now due : Time) : Prop where
  reached : start + count * interval ≤ now
  ahead : start + (count + 1) * interval ≤ due

/-- At a time there have been just so many heartbeats since a start, one in each interval. -/
structure Punctual (interval start : Time) (count : Nat) (now due : Time) : Prop where
  reached : start + count * interval ≤ now
  due_eq : due = start + (count + 1) * interval
  ahead : now < due

namespace Bounded

theorem begin (interval start : Time) : Bounded interval start 0 start (start + interval) where
  reached := by rw [Nat.zero_mul, Nat.add_zero]
  ahead := by rw [Nat.zero_add, Nat.one_mul]

theorem waits (h : Bounded interval start count now due) (hnow : now ≤ now') :
    Bounded interval start count now' due :=
  ⟨h.reached.trans hnow, h.ahead⟩

/-- A heartbeat that comes late lets the next come no earlier than it was due. -/
theorem beats (h : Bounded interval start count now due) (hdue : due ≤ now') :
    Bounded interval start (count + 1) now' (max (due + interval) now') where
  reached := h.ahead.trans hdue
  ahead := by
    refine le_trans ?_ (Nat.le_max_left _ _)
    rw [Nat.succ_mul (count + 1), ← Nat.add_assoc]
    exact Nat.add_le_add_right h.ahead interval

theorem count_le (h : Bounded interval start count now due) (hinterval : 0 < interval) :
    count ≤ (now - start) / interval :=
  (Nat.le_div_iff_mul_le hinterval).2 (Nat.le_sub_of_add_le' h.reached)

end Bounded

namespace Punctual

theorem begin (hinterval : 0 < interval) (start : Time) :
    Punctual interval start 0 start (start + interval) where
  reached := by rw [Nat.zero_mul, Nat.add_zero]
  due_eq := by rw [Nat.zero_add, Nat.one_mul]
  ahead := Nat.lt_add_of_pos_right hinterval

theorem waits (h : Punctual interval start count now due) (hnow : now ≤ now') (hdue : now' < due) :
    Punctual interval start count now' due :=
  ⟨h.reached.trans hnow, h.due_eq, hdue⟩

/-- Within an interval of the last call the clock cannot be past the heartbeat after the next. -/
theorem beats (h : Punctual interval start count now due) (hdue : due ≤ now')
    (hgap : now' ≤ now + interval) :
    Punctual interval start (count + 1) now' (max (due + interval) now') := by
  have hnext : now' < due + interval :=
    lt_of_le_of_lt hgap (Nat.add_lt_add_right h.ahead interval)
  rw [Nat.max_eq_left hnext.le]
  refine ⟨h.due_eq ▸ hdue, ?_, hnext⟩
  rw [Nat.succ_mul (count + 1), ← Nat.add_assoc, ← h.due_eq]

theorem count_eq (h : Punctual interval start count now due) (hinterval : 0 < interval) :
    count = (now - start) / interval := by
  have hahead : now < start + (count + 1) * interval := h.due_eq ▸ h.ahead
  refine Nat.le_antisymm ?_ ?_
  · exact (Nat.le_div_iff_mul_le hinterval).2 (Nat.le_sub_of_add_le' h.reached)
  · refine Nat.lt_succ_iff.1 ((Nat.div_lt_iff_lt_mul hinterval).2 ?_)
    exact Nat.sub_lt_left_of_lt_add (le_trans (Nat.le_add_right _ _) h.reached) hahead

end Punctual

end Heartbeat

open Turn Standing

/-- The acknowledgement of events is another flag. -/
theorem EventAcknowledge.heartbeat_turn (c : Cycle) (t : Turn EventAcknowledge) :
    (turn c t).config.heartbeat = t.config.heartbeat := by
  unfold turn
  split
  · rfl
  · split_ifs
    · unfold obeyMode
      split
      · exact t.config.heartbeat_setAcknowledge true
      · exact t.config.heartbeat_setAcknowledge false
      · rfl
    · rw [config_acknowledge]

namespace MinimumNode

variable {c : Cycle} {m : Message} {t t' u : Turn MinimumNode} {now interval : Time}

/-! ## The poll -/

/-- What a poll makes of a heartbeat in the configuration `d`: of when it is due and of its number,
    and what it sends. -/
inductive Pulses (now interval : Time) (d : Configuration) (due? : Option Time) (number : UInt8) :
    Option Time → UInt8 → List Action → Prop
  | still : isBeating d = false → Pulses now interval d due? number none number []
  | waits {due : Time} : isBeating d = true → due?.getD (Time.deadline now interval) = due →
      now < due → Pulses now interval d due? number (some due) number []
  | beats {due : Time} : isBeating d = true → due?.getD (Time.deadline now interval) = due →
      due ≤ now → Pulses now interval d due? number
        (some (max (Time.deadline due interval) now)) (number + 1)
        [.transmit (.addressed Opcode.heartb.byte d.nodeNumber [number, 0, 0])]

namespace Pulses

variable {d d' : Configuration} {due? due?' : Option Time} {number number' : UInt8}
  {beats : List Action}

/-- Of the configuration only the number of the node counts, and whether its heart beats. -/
theorem congr (h : Pulses now interval d due? number due?' number' beats)
    (hbeating : isBeating d' = isBeating d) (hnumber : d'.nodeNumber = d.nodeNumber) :
    Pulses now interval d' due? number due?' number' beats := by
  cases h with
  | still hstill => exact .still (hbeating.trans hstill)
  | waits hbeats hdue hlt => exact .waits (hbeating.trans hbeats) hdue hlt
  | beats hbeats hdue hle =>
    rw [← hnumber]
    exact .beats (hbeating.trans hbeats) hdue hle

theorem of_still (h : Pulses now interval d due? number due?' number' beats)
    (hstill : isBeating d = false) : due?' = none ∧ beats = [] := by
  cases h with
  | still _ => exact ⟨rfl, rfl⟩
  | waits hbeats _ _ =>
    rw [hstill] at hbeats
    contradiction
  | beats hbeats _ _ =>
    rw [hstill] at hbeats
    contradiction

theorem length_le (h : Pulses now interval d due? number due?' number' beats) :
    beats.length ≤ 1 := by
  cases h with
  | still _ => exact Nat.zero_le 1
  | waits _ _ _ => exact Nat.zero_le 1
  | beats _ _ _ => exact Nat.le_refl 1

/-- The number of the next heartbeat moves on by one with each. -/
theorem number_cases (h : Pulses now interval d due? number due?' number' beats) :
    beats = [] ∧ number' = number ∨
      (∃ node, beats = [.transmit (.addressed Opcode.heartb.byte node [number, 0, 0])]) ∧
        number' = number + 1 := by
  cases h with
  | still _ => exact Or.inl ⟨rfl, rfl⟩
  | waits _ _ _ => exact Or.inl ⟨rfl, rfl⟩
  | beats _ _ _ => exact Or.inr ⟨⟨_, rfl⟩, rfl⟩

/-- When the heart begins to beat the first heartbeat is due an interval later. -/
theorem begins (h : Pulses now interval d none number due?' number' beats)
    (hbeating : isBeating d = true) (hinterval : 0 < interval)
    (hlast : now + interval ≤ Time.last) : beats = [] ∧ due?' = some (now + interval) := by
  cases h with
  | still hstill =>
    rw [hbeating] at hstill
    contradiction
  | waits _ hdue _ => exact ⟨rfl, congrArg some (hdue.symm.trans (Time.deadline_eq hlast))⟩
  | beats _ hdue hle =>
    rw [← hdue, Option.getD_none, Time.deadline_eq hlast] at hle
    exact absurd hle (Nat.not_le.2 (Nat.lt_add_of_pos_right hinterval))

/-- A heart that goes on beating waits until the heartbeat is due, and gives it once it is. -/
theorem goesOn {due : Time} (h : Pulses now interval d (some due) number due?' number' beats)
    (hbeating : isBeating d = true) (hlast : now + interval ≤ Time.last) :
    now < due ∧ beats.length = 0 ∧ due?' = some due ∨
      due ≤ now ∧ beats.length = 1 ∧ due?' = some (max (due + interval) now) := by
  cases h with
  | still hstill =>
    rw [hbeating] at hstill
    contradiction
  | waits _ hdue hlt =>
    obtain rfl : due = _ := hdue
    exact Or.inl ⟨hlt, rfl, rfl⟩
  | beats _ hdue hle =>
    obtain rfl : due = _ := hdue
    rw [Time.deadline_eq (le_trans (Nat.add_le_add_right hle interval) hlast)]
    exact Or.inr ⟨hle, rfl, rfl⟩

end Pulses

theorem pulses_pollHeartbeat (now interval : Time) (t : Turn MinimumNode) : ∃ beats,
    Pulses now interval t.config t.self.heartbeatDue t.self.heartbeatNumber
      (pollHeartbeat now interval t).self.heartbeatDue
      (pollHeartbeat now interval t).self.heartbeatNumber beats ∧
    (pollHeartbeat now interval t).sent .heartb = t.sent .heartb ++ beats := by
  unfold pollHeartbeat
  split_ifs with hbeating
  · dsimp only
    split_ifs with hdue
    · exact ⟨[], .waits hbeating rfl hdue, (List.append_nil _).symm⟩
    · exact ⟨_, .beats hbeating rfl (Nat.not_lt.1 hdue), sent_reply_self _ _ _ _⟩
  · exact ⟨[], .still (Bool.eq_false_iff.2 hbeating), (List.append_nil _).symm⟩

/-! ## The action and the time of a negotiation -/

/-- From `t` to `t'` the heartbeat has gone on, or the heart has stopped; its number has not
    changed. -/
structure Rests (t t' : Turn MinimumNode) : Prop where
  number : t'.self.heartbeatNumber = t.self.heartbeatNumber
  due : t'.self.heartbeatDue = t.self.heartbeatDue ∨ t'.self.heartbeatDue = none

theorem rests_cancelNegotiation (t : Turn MinimumNode) : Rests t (cancelNegotiation t) := by
  unfold cancelNegotiation
  split
  · exact ⟨rfl, Or.inl rfl⟩
  · dsimp only
    split_ifs
    · exact ⟨rfl, Or.inr rfl⟩
    · exact ⟨rfl, Or.inr rfl⟩

theorem rests_pollNegotiation (now limit : Time) (t : Turn MinimumNode) :
    Rests t (pollNegotiation now limit t) := by
  unfold pollNegotiation
  split
  · exact ⟨rfl, Or.inl rfl⟩
  · split_ifs
    · exact rests_cancelNegotiation t
    · exact ⟨rfl, Or.inl rfl⟩

/-- From `t` to `t'` the heartbeat has gone on, or the heart has stopped; in normal mode only an
    action that opens a negotiation stops it. -/
structure Spares (action : Option Action) (t t' : Turn MinimumNode) : Prop where
  number : t'.self.heartbeatNumber = t.self.heartbeatNumber
  due : t'.self.heartbeatDue = t.self.heartbeatDue ∨ t'.self.heartbeatDue = none ∧
    (t.config.mode = .normal → Opens action t.config.nodeNumber t.config.mode)

namespace Spares

variable {action : Option Action}

theorem refl (t : Turn MinimumNode) : Spares action t t := ⟨rfl, Or.inl rfl⟩

theorem of_self (h : t'.self = t.self) : Spares action t t' :=
  ⟨congrArg _ h, Or.inl (congrArg _ h)⟩

/-- In another mode than normal the heart may stop anyway. -/
theorem of_rests (h : Rests t t') (hm : t.config.mode ≠ .normal) : Spares action t t' :=
  ⟨h.number, h.due.imp_right fun hnone => ⟨hnone, fun hnormal => absurd hnormal hm⟩⟩

end Spares

theorem spares_advanceMode (h : c.action = some .advanceMode) :
    Spares c.action t (advanceMode now t) := by
  unfold advanceMode
  split
  · rename_i hm
    refine .of_rests ⟨rfl, Or.inr rfl⟩ ?_
    rw [hm]
    decide
  · rename_i hm
    refine ⟨rfl, Or.inr ⟨rfl, fun _ => ?_⟩⟩
    rw [hm]
    exact Or.inl h
  · rename_i hm
    refine .of_rests (rests_cancelNegotiation t) ?_
    rw [hm]
    decide

theorem spares_renegotiate
    (h : c.action = some .renegotiate ∨ Commands .setup t.config.nodeNumber c.action) :
    Spares c.action t (renegotiate now t) := by
  unfold renegotiate
  split_ifs with hm
  · refine ⟨rfl, Or.inr ⟨rfl, fun _ => ?_⟩⟩
    rw [hm]
    exact Or.inr h
  · exact .refl t

theorem spares_obeyMode {command : UInt8} (hm : c.action = some (.received m))
    (ho : m.opcode? = some .mode) (hn : m.nodeNumber? = some t.config.nodeNumber)
    (hcommand : m.byte? 3 = some command) : Spares c.action t (obeyMode now command t) := by
  unfold obeyMode resume
  split
  · rename_i hk
    rw [byte_of_modeCommand hk] at hcommand
    exact spares_renegotiate (Or.inr ⟨m, hm, ho, hn, hcommand⟩)
  · split_ifs with hmode
    · refine .of_rests ⟨rfl, Or.inr rfl⟩ ?_
      rw [hmode.1]
      decide
    · exact .refl t
  · exact .of_self rfl
  · exact .of_self rfl
  · exact .refl t
  · exact .of_self rfl

theorem spares_obeyAssignment : Spares c.action t (obeyAssignment m t) := by
  unfold obeyAssignment
  split_ifs with hm
  · split
    · exact .refl t
    · split_ifs
      · exact .refl t
      · refine .of_rests ⟨rfl, Or.inr rfl⟩ ?_
        rw [hm]
        decide
  · exact .refl t

/-- An answer may start a long answer, which does not reach the heart. -/
theorem spares_answerParameter : Spares c.action t (answerParameter c m t) := by
  unfold answerParameter sendParameter
  split
  · exact .of_self rfl
  · split_ifs
    · exact ⟨rfl, Or.inl rfl⟩
    · exact .of_self rfl
    · exact .of_self rfl

theorem spares_answerServices : Spares c.action t (answerServices c m t) := by
  unfold answerServices
  split
  · exact .refl t
  · split_ifs
    · exact ⟨rfl, Or.inl rfl⟩
    · split
      · exact .of_self rfl
      · exact .of_self rfl

theorem spares_answerDiagnostics : Spares c.action t (answerDiagnostics c m t) := by
  unfold answerDiagnostics
  split
  · exact .refl t
  · split_ifs
    · exact .of_self rfl
    · exact .refl t

theorem spares_handleNamed {o : Opcode} (hm : c.action = some (.received m))
    (ho : m.opcode? = some o) (hn : m.nodeNumber? = some t.config.nodeNumber)
    (h : handleNamed c m o t = .ok u) : Spares c.action t u := by
  unfold handleNamed at h
  split at h
  · exact Except.ok.inj h ▸ spares_answerParameter
  · contradiction
  · contradiction
  · split at h
    · exact Except.ok.inj h ▸ .refl t
    · rename_i command hcommand
      exact Except.ok.inj h ▸ spares_obeyMode hm ho hn hcommand
  · exact Except.ok.inj h ▸ spares_answerServices
  · exact Except.ok.inj h ▸ spares_answerDiagnostics
  · exact Except.ok.inj h ▸ .refl t

theorem spares_handle (hm : c.action = some (.received m)) (h : handle c m t = .ok u) :
    Spares c.action t u := by
  unfold handle at h
  split at h
  · exact Except.ok.inj h ▸ .refl t
  · rw [← Except.ok.inj h]
    split_ifs
    · exact .refl t
    · exact .of_self rfl
  · rw [← Except.ok.inj h]
    split_ifs
    · exact .of_self rfl
    · exact .refl t
  · rw [← Except.ok.inj h]
    split_ifs
    · exact .of_self rfl
    · exact .refl t
  · exact Except.ok.inj h ▸ spares_obeyAssignment
  · rename_i ho
    split_ifs at h with hnamed
    · exact spares_handleNamed hm ho (beq_iff_eq.1 hnamed) h
    · exact Except.ok.inj h ▸ .refl t

theorem spares_react (h : react c t = .ok u) : Spares c.action t u := by
  unfold react at h
  split at h
  · rename_i ha
    exact Except.ok.inj h ▸ spares_advanceMode ha
  · rename_i ha
    exact Except.ok.inj h ▸ spares_renegotiate (Or.inl ha)
  · rename_i m ha
    exact spares_handle ha h
  · exact Except.ok.inj h ▸ .refl t

/-! ## The turn -/

/-- What the action and the time of a negotiation leave of when the heartbeat is due, in a node that
    has had this number and this mode before. -/
inductive Carries (action : Option Action) (number : UInt16) (mode : Mode) (due? : Option Time) :
    Option Time → Prop
  | on : ¬ Opens action number mode → Carries action number mode due? due?
  | anew : (mode = .normal → Opens action number mode) → Carries action number mode due? none

namespace Carries

variable {action : Option Action} {number : UInt16} {mode : Mode} {due? due?' : Option Time}

theorem eq_none (h : Carries action number mode due? due?')
    (hnone : due? = none ∨ Opens action number mode) : due?' = none := by
  cases h with
  | on hopens => exact hnone.resolve_right hopens
  | anew _ => rfl

theorem eq_of_normal (h : Carries action number mode due? due?') (hmode : mode = .normal)
    (hopens : ¬ Opens action number mode) : due?' = due? := by
  cases h with
  | on _ => rfl
  | anew hdoes => exact absurd (hdoes hmode) hopens

end Carries

theorem heartbeat_pollListing (h : pollListing c t = .ok t') :
    t'.self.heartbeatDue = t.self.heartbeatDue ∧
      t'.self.heartbeatNumber = t.self.heartbeatNumber := by
  have hreport : ∀ {kind : Listing} {i : Nat} {v : Turn MinimumNode}, report c kind i v = .ok t' →
      t'.self = v.self := by
    intro kind i v hv
    cases kind with
    | parameters => exact Except.ok.inj hv ▸ rfl
    | services =>
      obtain ⟨info, _, rfl⟩ := map_eq_ok_iff.1 hv
      rfl
  unfold pollListing at h
  split at h
  · exact Except.ok.inj h ▸ ⟨rfl, rfl⟩
  · dsimp only at h
    split at h
    · exact Except.ok.inj h ▸ ⟨rfl, rfl⟩
    · rw [hreport h]
      exact ⟨rfl, rfl⟩

/-- What is left of the heartbeat when it comes to the poll. -/
theorem carries_react (h : react c t = .ok u) (ht : t.standing.Tied) (limit : Time) :
    Carries c.action t.config.nodeNumber t.config.mode t.self.heartbeatDue
      (pollNegotiation c.now limit u).self.heartbeatDue := by
  have hspares := spares_react h
  have hrests := rests_pollNegotiation c.now limit u
  by_cases hopens : Opens c.action t.config.nodeNumber t.config.mode
  · have hnone : (pollNegotiation c.now limit u).self.heartbeatDue = none := by
      rcases hrests.due with hsame | hnone
      · rw [hsame, (begins_of_opens h hopens).2]
      · exact hnone
    rw [hnone]
    exact .anew fun _ => hopens
  · by_cases hm : t.config.mode = .normal
    · -- Such a node negotiates nothing, so there is nothing whose time could be over.
      have hstanding : u.standing = t.standing := by
        refine standing_of_neither h hopens fun hsetup => ?_
        rw [hm] at hsetup
        contradiction
      have hnone : u.self.negotiation = none := by
        have hnegotiation : t.self.negotiation = none := by
          refine ht.negotiation_of_ne ?_
          show t.config.mode ≠ .setup
          rw [hm]
          decide
        exact (congrArg Standing.negotiation hstanding).trans hnegotiation
      rw [pollNegotiation, hnone]
      rcases hspares.due with hsame | ⟨_, hdoes⟩
      · show Carries _ _ _ _ u.self.heartbeatDue
        rw [hsame]
        exact .on hopens
      · exact absurd (hdoes hm) hopens
    · rcases hrests.due with hsame | hnone
      · rw [hsame]
        rcases hspares.due with hsame | ⟨hnone, _⟩
        · rw [hsame]
          exact .on hopens
        · rw [hnone]
          exact .anew fun hnormal => absurd hnormal hm
      · rw [hnone]
        exact .anew fun hnormal => absurd hnormal hm

/-- A turn carries the heartbeat on or lets it begin anew, and then polls it. -/
theorem pulses_turn (h : turn c t = .ok t') (ht : t.standing.Tied) : ∃ due? beats,
    Carries c.action t.config.nodeNumber t.config.mode t.self.heartbeatDue due? ∧
    Pulses c.now c.timing.heartbeatInterval t'.config due? t.self.heartbeatNumber
      t'.self.heartbeatDue t'.self.heartbeatNumber beats ∧
    t'.sent .heartb = t.sent .heartb ++ beats := by
  rw [turn_eq] at h
  obtain ⟨u, hu, hpoll⟩ := bind_eq_ok_iff.1 h
  have hcarries := carries_react (t := noteStart c t) hu ht c.timing.negotiationLimit
  have hnumber : (pollNegotiation c.now c.timing.negotiationLimit u).self.heartbeatNumber =
      t.self.heartbeatNumber :=
    (rests_pollNegotiation _ _ u).number.trans (spares_react (t := noteStart c t) hu).number
  obtain ⟨beats, hpulses, hsent⟩ := pulses_pollHeartbeat c.now c.timing.heartbeatInterval
    (pollNegotiation c.now c.timing.negotiationLimit u)
  obtain ⟨hdue', hnumber'⟩ := heartbeat_pollListing hpoll
  refine ⟨_, beats, hcarries, ?_, ?_⟩
  · rw [config_poll hpoll, hdue', hnumber', ← hnumber]
    exact hpulses
  · have hreact : u.sent .heartb = t.sent .heartb := by
      refine (speaks_react hu).sent_eq fun hmem => ?_
      rw [List.append_assoc] at hmem
      rcases List.mem_append.1 hmem with hmem | hmem
      · exact absurd (elim_repliesTo_subset c _ hmem) (by decide)
      · exact absurd hmem (by decide)
    rw [(speaks_pollListing hpoll).sent_eq (by decide), hsent,
      (speaks_pollNegotiation _ _ u).sent_eq (by decide), hreact]

end MinimumNode

/-! ## The other services -/

/-- No other service touches the heartbeat flag or the mode. -/
theorem Service.isBeating_turn {c : Cycle} {t t' : Turn Service} (h : turn c t = .ok t')
    (hid : t.self.id ≠ .minimumNode) :
    MinimumNode.isBeating t'.config = MinimumNode.isBeating t.config := by
  have hch := (edits_turn h).changesOnly
  have hmode : t'.config.mode = t.config.mode := by
    refine hch.mode ?_
    cases hs : t.self with
    | minimumNode s =>
      rw [hs] at hid
      exact absurd rfl hid
    | _ => simp only [parts]; decide
  have hheartbeat : t'.config.heartbeat = t.config.heartbeat := by
    cases hs : t.self with
    | minimumNode s =>
      rw [hs] at hid
      exact absurd rfl hid
    | acknowledge s =>
      unfold turn at h
      rw [hs] at h
      rw [← Except.ok.inj h]
      exact EventAcknowledge.heartbeat_turn c (t.withSelf s)
    | _ =>
      have hflags : t'.config.flags = t.config.flags :=
        hch.flags (by rw [hs]; simp only [parts]; decide)
      unfold Configuration.heartbeat
      rw [hflags]
  unfold MinimumNode.isBeating
  rw [hmode, hheartbeat]

end RailNode
