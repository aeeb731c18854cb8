import Mathlib.Logic.Relation
import RailNode.Proofs.Configuration.Index

/-
  The edits that services make to a configuration. Whatever a service does in its turn is a
  sequence of them (`Edits`), so what every edit keeps holds after every turn and every run.
  The list `A` names the parts that the edits may change.
-/
namespace RailNode.Configuration

/-- One change of a configuration in the parts `A`. An event is inserted only where `find` did
    not find it, and in the slot that `findFree` gives. -/
inductive Edit (A : List Part) (c : Configuration) : Configuration → Prop
  | mode (m : Mode) : .mode ∈ A → Edit A c (c.setMode m)
  | number (w : UInt16) : .number ∈ A → Edit A c (c.setNodeNumber w)
  | address (a : BusAddress) : .address ∈ A → Edit A c (c.setAddress a)
  | flags (f : UInt8) : .flags ∈ A → Edit A c (c.setFlags f)
  | learning (on : Bool) : .learning ∈ A → Edit A c (c.setLearning on)
  | nodeVariable {index : Nat} {v : UInt8} {d : Configuration} : .nodeVariables ∈ A →
      c.setNodeVariable? index v = some d → Edit A c d
  | eventVariable {slot index : Nat} {v : UInt8} {d : Configuration} : .records ∈ A →
      c.setEventVariable slot index v = .ok d → Edit A c d
  | insert {slot : Nat} {e : EventId} {d : Configuration} : .records ∈ A → .index ∈ A →
      c.find e = .error .notFound → c.findFree = .ok slot → c.insertEvent slot e = .ok d →
      Edit A c d
  | remove {slot : Nat} {d : Configuration} : .records ∈ A → .index ∈ A →
      c.removeEvent slot = .ok d → Edit A c d
  | clear : .records ∈ A → .index ∈ A → Edit A c c.clearEvents

/-- Edits one after the other. -/
abbrev Edits (A : List Part) : Configuration → Configuration → Prop :=
  Relation.ReflTransGen (Edit A)

variable {A B : List Part} {c d : Configuration}

theorem Edit.changesOnly (h : Edit A c d) : ChangesOnly A c d := by
  cases h with
  | mode m hA => exact (c.changesOnly_setMode m).mono (by simpa using hA)
  | number w hA => exact (c.changesOnly_setNodeNumber w).mono (by simpa using hA)
  | address a hA => exact (c.changesOnly_setAddress a).mono (by simpa using hA)
  | flags f hA => exact (c.changesOnly_setFlags f).mono (by simpa using hA)
  | learning on hA => exact (c.changesOnly_setLearning on).mono (by simpa using hA)
  | nodeVariable hA h => exact (changesOnly_setNodeVariable? h).mono (by simpa using hA)
  | eventVariable hA h => exact (changesOnly_setEventVariable h).mono (by simpa using hA)
  | insert hr hi _ _ h => exact (changesOnly_insertEvent h).mono (by simp [hr, hi])
  | remove hr hi h => exact (changesOnly_removeEvent h).mono (by simp [hr, hi])
  | clear hr hi => exact c.changesOnly_clearEvents.mono (by simp [hr, hi])

theorem Edit.mono (h : Edit A c d) (hAB : A ⊆ B) : Edit B c d := by
  cases h with
  | mode m hA => exact .mode m (hAB hA)
  | number w hA => exact .number w (hAB hA)
  | address a hA => exact .address a (hAB hA)
  | flags f hA => exact .flags f (hAB hA)
  | learning on hA => exact .learning on (hAB hA)
  | nodeVariable hA h => exact .nodeVariable (hAB hA) h
  | eventVariable hA h => exact .eventVariable (hAB hA) h
  | insert hr hi hfind hfree h => exact .insert (hAB hr) (hAB hi) hfind hfree h
  | remove hr hi h => exact .remove (hAB hr) (hAB hi) h
  | clear hr hi => exact .clear (hAB hr) (hAB hi)

/-- An edit keeps the index in agreement with the records. -/
theorem IndexAgrees.edit (hc : c.IndexAgrees) (h : Edit A c d) : d.IndexAgrees := by
  cases h with
  | mode m _ => exact hc.of_changesOnly (c.changesOnly_setMode m) (by decide) (by decide)
  | number w _ => exact hc.of_changesOnly (c.changesOnly_setNodeNumber w) (by decide) (by decide)
  | address a _ => exact hc.of_changesOnly (c.changesOnly_setAddress a) (by decide) (by decide)
  | flags f _ => exact hc.of_changesOnly (c.changesOnly_setFlags f) (by decide) (by decide)
  | learning on _ =>
    exact hc.of_changesOnly (c.changesOnly_setLearning on) (by decide) (by decide)
  | nodeVariable _ h =>
    exact hc.of_changesOnly (changesOnly_setNodeVariable? h) (by decide) (by decide)
  | eventVariable _ h => exact hc.setEventVariable h
  | insert _ _ _ _ h => exact hc.insertEvent h
  | remove _ _ h => exact hc.removeEvent h
  | clear _ _ => exact hc.clearEvents

namespace Edits

theorem changesOnly (h : Edits A c d) : ChangesOnly A c d := by
  induction h with
  | refl => exact ChangesOnly.refl A c
  | tail _ hstep ih => exact ih.trans hstep.changesOnly

theorem mono (h : Edits A c d) (hAB : A ⊆ B) : Edits B c d := by
  induction h with
  | refl => exact .refl
  | tail _ hstep ih => exact ih.tail (hstep.mono hAB)

/-- What every edit keeps, edits one after the other keep. -/
theorem preserves {P : Configuration → Prop} (h : Edits A c d)
    (hP : ∀ {c d}, Edit A c d → P c → P d) (hc : P c) : P d := by
  induction h with
  | refl => exact hc
  | tail _ hstep ih => exact hP hstep ih

theorem indexAgrees (h : Edits A c d) (hc : c.IndexAgrees) : d.IndexAgrees :=
  h.preserves (fun hstep hP => hP.edit hstep) hc

end Edits

end RailNode.Configuration
