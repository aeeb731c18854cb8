import Mathlib.Tactic.SplitIfs
import RailNode.Proofs.Service.MinimumNode
import RailNode.Proofs.Service.Teaching
import RailNode.Service.Reporter

/-
  What the turn of a service does to the configuration. Each service has the parts that it may
  change (`Service.parts`), and a turn that comes to its end has made edits in these parts only
  (`Service.edits_turn`). A turn that ends in a restart leaves the configuration that it found or
  the factory reset of it.
-/
namespace RailNode

open RailNode.Configuration

/-! ## Bus access -/

namespace BusAccess

/-- The bus address is all that the service changes. -/
def parts : List Part := [.address]

@[simp]
theorem config_transmit (m : Message) (t : Turn BusAccess) : (transmit m t).config = t.config := by
  simp [transmit]

@[simp]
theorem config_adopt (a : BusAddress) (t : Turn BusAccess) :
    (adopt a t).config = t.config.setAddress a := by
  simp [adopt]

@[simp]
theorem config_startSearch (now : Time) (forPeer : Bool) (t : Turn BusAccess) :
    (startSearch now forPeer t).config = t.config := by
  unfold startSearch
  split <;> simp

@[simp]
theorem config_startRequired (now : Time) (t : Turn BusAccess) :
    (startRequired now t).config = t.config := by
  unfold startRequired
  split <;> simp

@[simp]
theorem config_handleEmpty (remote : Bool) (sender : BusAddress) (t : Turn BusAccess) :
    (handleEmpty remote sender t).config = t.config := by
  unfold handleEmpty
  dsimp only
  split_ifs <;> simp

@[simp]
theorem config_handleData (sender : BusAddress) (m : Message) (t : Turn BusAccess) :
    (handleData sender m t).config = t.config := by
  simp [handleData]

@[simp]
theorem config_handleFrame (f : Frame) (t : Turn BusAccess) :
    (handleFrame f t).config = t.config := by
  unfold handleFrame
  split
  · rfl
  · split_ifs <;> simp

@[simp]
theorem config_receive (t : Turn BusAccess) : (receive t).config = t.config := by
  unfold receive
  split
  · rfl
  · rw [config_handleFrame]
    rfl

theorem edits_obeyAssignment (m : Message) (t : Turn BusAccess) :
    Edits parts t.config (obeyAssignment m t).config := by
  unfold obeyAssignment
  split
  · rename_i a _
    simpa using .single (.address a (by decide))
  · simpa using .refl

theorem edits_react (c : Cycle) (t : Turn BusAccess) :
    Edits parts t.config (react c t).config := by
  unfold react handle
  split
  · simpa using .refl
  · simpa using .refl
  · split
    · split_ifs <;> simpa using .refl
    · split_ifs
      · exact edits_obeyAssignment _ t
      · exact .refl
    · exact .refl
  · exact .refl

theorem edits_finishSearch (now window : Time) (t : Turn BusAccess) :
    Edits parts t.config (finishSearch now window t).config := by
  unfold finishSearch
  split
  · exact .refl
  · rename_i claim e _
    have h : Edits parts t.config (t.config.setAddress claim.address) :=
      .single (.address claim.address (by decide))
    dsimp only
    split_ifs <;> simpa using h

theorem edits_turn (c : Cycle) (t : Turn BusAccess) :
    Edits parts t.config (turn c t).config := by
  have h := edits_finishSearch c.now c.timing.searchWindow
    (receive (startRequired c.now (react c t)))
  rw [config_receive, config_startRequired] at h
  exact (edits_react c t).trans h

end BusAccess

/-! ## Node variables -/

namespace VariableAccess

def parts : List Part := [.nodeVariables]

theorem config_sendVariable {index : Nat} {t t' : Turn VariableAccess}
    (h : sendVariable index t = .ok t') : t'.config = t.config := by
  obtain ⟨value, _, rfl⟩ := map_eq_ok_iff.1 h
  simp [sendValue]

@[simp]
theorem config_answerRead (c : Cycle) (m : Message) (t : Turn VariableAccess) :
    (answerRead c m t).config = t.config := by
  unfold answerRead sendValue
  split
  · simp
  · split_ifs
    · simp
    · split <;> simp

theorem edits_obeyWrite {command : Opcode} {m : Message}
    {andThen : Nat → Turn VariableAccess → Except Halt (Turn VariableAccess)}
    {t t' : Turn VariableAccess} (h : obeyWrite command m andThen t = .ok t')
    (hthen : ∀ {index t t'}, andThen index t = .ok t' → t'.config = t.config) :
    Edits parts t.config t'.config := by
  unfold obeyWrite at h
  split at h
  · split at h
    · rename_i hset
      rw [hthen h]
      exact .single (.nodeVariable (by decide) hset)
    · rw [← Except.ok.inj h]
      simpa using .refl
  · rw [← Except.ok.inj h]
    simpa using .refl

theorem eq_fault_of_obeyWrite {command : Opcode} {m : Message}
    {andThen : Nat → Turn VariableAccess → Except Halt (Turn VariableAccess)}
    {t : Turn VariableAccess} {x : Halt} (h : obeyWrite command m andThen t = .error x)
    (hthen : ∀ {index t}, andThen index t = .error x → x = .fault) : x = .fault := by
  unfold obeyWrite at h
  split at h
  · split at h
    · exact hthen h
    · contradiction
  · contradiction

theorem edits_handle {c : Cycle} {m : Message} {t t' : Turn VariableAccess}
    (h : handle c m t = .ok t') : Edits parts t.config t'.config := by
  unfold handle at h
  split_ifs at h
  · split at h
    · rw [← Except.ok.inj h]
      simpa using .refl
    · refine edits_obeyWrite h fun h => ?_
      rw [← Except.ok.inj h]
      simp
    · exact edits_obeyWrite h config_sendVariable
    · rw [← Except.ok.inj h]
  · rw [← Except.ok.inj h]

theorem config_pollListing {c : Cycle} {t t' : Turn VariableAccess}
    (h : pollListing c t = .ok t') : t'.config = t.config := by
  unfold pollListing at h
  split at h
  · rw [← Except.ok.inj h]
  · dsimp only at h
    split at h
    · rw [← Except.ok.inj h]
      simp
    · rw [config_sendVariable h]
      simp

theorem edits_turn {c : Cycle} {t t' : Turn VariableAccess} (h : turn c t = .ok t') :
    Edits parts t.config t'.config := by
  unfold turn at h
  split at h
  · obtain ⟨u, hu, h⟩ := bind_eq_ok_iff.1 h
    rw [config_pollListing h]
    exact edits_handle hu
  · rw [config_pollListing h]

/-- Variable access never restarts the device. -/
theorem eq_fault_of_turn {c : Cycle} {t : Turn VariableAccess} {x : Halt}
    (h : turn c t = .error x) : x = .fault := by
  have hpoll : ∀ {t : Turn VariableAccess}, pollListing c t = .error x → x = .fault := by
    intro t h
    unfold pollListing at h
    split at h
    · contradiction
    · dsimp only at h
      split at h
      · contradiction
      · exact eq_fault_of_map_trust h
  unfold turn at h
  split at h
  · rcases bind_eq_error_iff.1 h with h | ⟨u, _, h⟩
    · unfold handle at h
      split_ifs at h
      split at h
      · contradiction
      · exact eq_fault_of_obeyWrite h fun h => nomatch h
      · exact eq_fault_of_obeyWrite h eq_fault_of_map_trust
      · contradiction
    · exact hpoll h
  · exact hpoll h

end VariableAccess

/-! ## Event acknowledgement -/

namespace EventAcknowledge

def parts : List Part := [.flags]

theorem edits_obeyMode (m : Message) (t : Turn EventAcknowledge) :
    Edits parts t.config (obeyMode m t).config := by
  unfold obeyMode
  split
  · exact .single (.flags _ (by decide))
  · exact .single (.flags _ (by decide))
  · exact .refl

@[simp]
theorem config_acknowledge (m : Message) (t : Turn EventAcknowledge) :
    (acknowledge m t).config = t.config := by
  unfold acknowledge
  split_ifs
  · split <;> simp
  · rfl

theorem edits_turn (c : Cycle) (t : Turn EventAcknowledge) :
    Edits parts t.config (turn c t).config := by
  unfold turn
  split
  · exact .refl
  · split_ifs
    · exact edits_obeyMode _ t
    · rw [config_acknowledge]

end EventAcknowledge

/-! ## The services that leave the configuration -/

theorem EventConsumer.config_turn (c : Cycle) (t : Turn EventConsumer) :
    (turn c t).config = t.config := by
  unfold turn
  split_ifs
  · split <;> simp
  · rfl

theorem LongMessage.config_turn (c : Cycle) (t : Turn LongMessage) :
    (turn c t).config = t.config := by
  unfold turn
  dsimp only
  split <;> simp

namespace Reporter

@[simp]
theorem config_sendValue (c : Cycle) (service : Service) (position code : Nat)
    (t : Turn Reporter) : (sendValue c service position code t).config = t.config := by
  simp [sendValue]

@[simp]
theorem config_answer (c : Cycle) (service : Service) (position index code : Nat)
    (t : Turn Reporter) : (answer c service position index code t).config = t.config := by
  unfold answer
  split_ifs <;> simp

@[simp]
theorem config_handle (c : Cycle) (service : Service) (position : Nat) (m : Message)
    (t : Turn Reporter) : (handle c service position m t).config = t.config := by
  unfold handle
  split_ifs
  · split <;> simp
  · rfl

@[simp]
theorem config_pollListing (c : Cycle) (service : Service) (position : Nat) (t : Turn Reporter) :
    (pollListing c service position t).config = t.config := by
  unfold pollListing
  split
  · rfl
  · dsimp only
    split <;> simp

/-- The reporters leave the configuration. -/
theorem config_turn (c : Cycle) (service : Service) (position : Nat) (t : Turn Reporter) :
    (turn c service position t).config = t.config := by
  unfold turn
  split <;> simp

end Reporter

/-! ## All services -/

theorem MinimumNode.exists_minimumNode {s : Service} (h : s.id = .minimumNode) :
    ∃ x, s = .minimumNode x := by
  cases s with
  | minimumNode x => exact ⟨x, rfl⟩
  | _ => exact absurd h (by simp only [Service.id]; decide)

theorem Teaching.exists_teaching {s : Service} (h : s.id = .teaching) : ∃ x, s = .teaching x := by
  cases s with
  | teaching x => exact ⟨x, rfl⟩
  | _ => exact absurd h (by simp only [Service.id]; decide)

namespace Service

/-- The parts that a service may change. -/
def parts : Service → List Part
  | minimumNode _ => MinimumNode.parts
  | busAccess _ => BusAccess.parts
  | nodeVariables _ => VariableAccess.parts
  | teaching _ => Teaching.parts
  | acknowledge _ => EventAcknowledge.parts
  | _ => []

/-- A turn makes edits in the parts of its service. -/
theorem edits_turn {c : Cycle} {t t' : Turn Service} (h : turn c t = .ok t') :
    Edits t.self.parts t.config t'.config := by
  unfold turn at h
  split at h
  · rename_i s hs
    obtain ⟨u, hu, rfl⟩ := map_eq_ok_iff.1 h
    rw [hs]
    exact MinimumNode.edits_turn hu
  · rename_i s hs
    rw [hs, ← Except.ok.inj h]
    exact BusAccess.edits_turn c (t.withSelf s)
  · rename_i s hs
    obtain ⟨u, hu, rfl⟩ := map_eq_ok_iff.1 h
    rw [hs]
    exact VariableAccess.edits_turn hu
  · rename_i s hs
    obtain ⟨u, hu, rfl⟩ := map_eq_ok_iff.1 h
    rw [hs]
    exact Teaching.edits_turn hu
  · rw [← Except.ok.inj h, Turn.config_map, EventConsumer.config_turn, Turn.config_withSelf]
  · rw [← Except.ok.inj h]
  · rename_i s hs
    rw [hs, ← Except.ok.inj h]
    exact EventAcknowledge.edits_turn c (t.withSelf s)
  · rw [← Except.ok.inj h, Turn.config_map, LongMessage.config_turn, Turn.config_withSelf]

/-- A turn that ends early leaves the configuration that it found or the factory reset of it. -/
theorem leaves_turn {c : Cycle} {t : Turn Service} {x : Halt} (h : turn c t = .error x) :
    x.Leaves t.config := by
  unfold turn at h
  split at h
  · exact MinimumNode.leaves_turn (map_eq_error_iff.1 h)
  · contradiction
  · rw [VariableAccess.eq_fault_of_turn (map_eq_error_iff.1 h)]
    trivial
  · rw [Teaching.eq_fault_of_turn (map_eq_error_iff.1 h)]
    trivial
  · contradiction
  · contradiction
  · contradiction
  · contradiction

/-- Only the service that every node has restarts the device, on NNRST and NNRSM. -/
theorem turn_eq_restart {c : Cycle} {t : Turn Service} {left : Shared} {trace : Trace}
    (h : turn c t = .error (.restart left trace)) : t.self.id = .minimumNode ∧
      ∃ m, c.received? = some m ∧ (m.opcode? = some .nnrst ∨ m.opcode? = some .nnrsm) := by
  unfold turn at h
  split at h
  · rename_i hs
    rw [hs]
    exact ⟨rfl, MinimumNode.opcode_of_restart (map_eq_error_iff.1 h)⟩
  · contradiction
  · exact nomatch VariableAccess.eq_fault_of_turn (map_eq_error_iff.1 h)
  · exact nomatch Teaching.eq_fault_of_turn (map_eq_error_iff.1 h)
  · contradiction
  · contradiction
  · contradiction
  · contradiction

/-- A service stays what it is. -/
theorem id_turn {c : Cycle} {t t' : Turn Service} (h : turn c t = .ok t') :
    t'.self.id = t.self.id := by
  unfold turn at h
  split at h
  · rename_i s hs
    obtain ⟨u, _, rfl⟩ := map_eq_ok_iff.1 h
    rw [hs]
    rfl
  · rename_i s hs
    rw [hs, ← Except.ok.inj h]
    rfl
  · rename_i s hs
    obtain ⟨u, _, rfl⟩ := map_eq_ok_iff.1 h
    rw [hs]
    rfl
  · rename_i s hs
    obtain ⟨u, _, rfl⟩ := map_eq_ok_iff.1 h
    rw [hs]
    rfl
  · rename_i s hs
    rw [hs, ← Except.ok.inj h]
    rfl
  · rw [← Except.ok.inj h]
  · rename_i s hs
    rw [hs, ← Except.ok.inj h]
    rfl
  · rename_i s hs
    rw [hs, ← Except.ok.inj h]
    rfl

end Service

end RailNode
