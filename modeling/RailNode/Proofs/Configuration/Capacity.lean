import Mathlib.Tactic.SplitIfs
import RailNode.Proofs.Configuration.Start
import RailNode.Proofs.Service.Turn

/-
  No change of a configuration changes the size of its store.
-/
namespace RailNode.Configuration

variable {A : List Part} {c d : Configuration}

/-- What every step leaves of the size of the store, all of them do. -/
theorem capacity_foldl {α : Type} {f : Configuration → α → Configuration}
    (h : ∀ d a, (f d a).store.capacity = d.store.capacity) (xs : List α) (c : Configuration) :
    (xs.foldl f c).store.capacity = c.store.capacity :=
  List.foldlRecOn xs f (motive := fun d => d.store.capacity = c.store.capacity) rfl
    fun d hd a _ => (h d a).trans hd

theorem capacity_write (c : Configuration) (a : Nat) (v : UInt8) :
    (c.write a v).store.capacity = c.store.capacity := Store.capacity_write _ _ _

theorem capacity_writeBytes (c : Configuration) (a : Nat) (vs : List UInt8) :
    (c.writeBytes a vs).store.capacity = c.store.capacity := Store.capacity_writeBytes _ _ _

theorem capacity_setMode (m : Mode) (c : Configuration) :
    (c.setMode m).store.capacity = c.store.capacity := capacity_write _ _ _

theorem capacity_setNodeNumber (w : UInt16) (c : Configuration) :
    (c.setNodeNumber w).store.capacity = c.store.capacity := capacity_writeBytes _ _ _

theorem capacity_setAddress (a : BusAddress) (c : Configuration) :
    (c.setAddress a).store.capacity = c.store.capacity := capacity_write _ _ _

theorem capacity_setFlags (f : UInt8) (c : Configuration) :
    (c.setFlags f).store.capacity = c.store.capacity := capacity_write _ _ _

theorem capacity_clearNodeVariables (c : Configuration) :
    c.clearNodeVariables.store.capacity = c.store.capacity :=
  capacity_foldl (fun d _ => d.capacity_write _ 0) _ c

theorem capacity_eraseRecord (slot : Nat) (c : Configuration) :
    (c.eraseRecord slot).store.capacity = c.store.capacity :=
  capacity_foldl (fun d _ => d.capacity_write _ _) _ c

theorem capacity_fileEvent (slot : Nat) (e : EventId) (c : Configuration) :
    (c.fileEvent slot e).store.capacity = c.store.capacity :=
  (capacity_foldl (fun d _ => d.capacity_write _ 0) _ _).trans (c.capacity_writeBytes _ _)

theorem capacity_clearEvents (c : Configuration) :
    c.clearEvents.store.capacity = c.store.capacity := by
  refine capacity_foldl (fun d slot => ?_) (List.range c.layout.slots) c
  split_ifs
  · rfl
  · exact capacity_eraseRecord slot d

theorem capacity_factoryReset (c : Configuration) :
    c.factoryReset.store.capacity = c.store.capacity := by
  show ((c.erase.setMode .uninitialised |>.setNodeNumber 0 |>.setAddress .unassigned
    |>.setFlags defaultFlags).clearNodeVariables.write _ _).store.capacity = _
  rw [capacity_write, capacity_clearNodeVariables, capacity_setFlags, capacity_setAddress,
    capacity_setNodeNumber, capacity_setMode]
  exact Store.capacity_erase c.store

theorem Edit.capacity (h : Edit A c d) : d.store.capacity = c.store.capacity := by
  cases h with
  | mode m _ => exact capacity_setMode m c
  | number w _ => exact capacity_setNodeNumber w c
  | address a _ => exact capacity_setAddress a c
  | flags f _ => exact capacity_setFlags f c
  | learning on _ => rfl
  | nodeVariable _ h =>
    obtain ⟨a, _, rfl⟩ := Option.map_eq_some_iff.1 h
    exact capacity_write c a _
  | eventVariable _ h =>
    obtain ⟨a, _, rfl⟩ := map_eq_ok_iff.1 h
    exact capacity_write c a _
  | @insert slot e _ _ _ _ _ h =>
    rw [c.insertEvent_eq (slot_lt_of_insertEvent h)] at h
    rw [← Except.ok.inj h]
    exact capacity_fileEvent slot e c
  | @remove slot _ _ _ h =>
    rw [c.removeEvent_eq (slot_lt_of_removeEvent h)] at h
    rw [← Except.ok.inj h]
    exact capacity_eraseRecord slot c
  | clear _ _ => exact capacity_clearEvents c

theorem capacity_of_edits (h : Edits A c d) : d.store.capacity = c.store.capacity := by
  induction h with
  | refl => rfl
  | tail _ h ih => rw [h.capacity, ih]

end RailNode.Configuration
