import RailNode.Proofs.Device.Run

/-
  The index of the event table over runs of a device. Whatever happens to the device, and however
  its store looked at first, the index of a running node agrees with the records of its store, so
  that every answer it gives is the answer of a scan of the records.
-/
namespace RailNode

namespace Configuration

/-- Every answer that goes through the index is the answer of a scan of the stored records. -/
structure AnswersByScan (c : Configuration) : Prop where
  /-- An entry is 0 exactly when the first four bytes of the record are erased. -/
  entry_eq_zero_iff : ∀ slot (h : slot < c.layout.slots), c.index[slot] = 0 ↔ c.Vacant slot
  /-- Any other entry is the hash of the event in the record. -/
  entry_eq_hash : ∀ slot (h : slot < c.layout.slots), ¬ c.Vacant slot →
    ∃ e, c.event slot = .ok e ∧ c.index[slot] = e.hash
  isFree_iff : ∀ slot < c.layout.slots, c.isFree slot = true ↔ c.Vacant slot
  /-- `find` gives the lowest slot whose record holds the event. -/
  find_eq_ok_iff : ∀ e slot, c.find e = .ok slot ↔
    slot < c.layout.slots ∧ c.Holds slot e ∧ ∀ j < slot, ¬ c.Holds j e
  find_eq_error_iff : ∀ e, c.find e = .error .notFound ↔
    ∀ slot < c.layout.slots, ¬ c.Holds slot e
  /-- `findFree` gives the lowest slot whose record is erased. -/
  findFree_eq_ok_iff : ∀ slot, c.findFree = .ok slot ↔
    slot < c.layout.slots ∧ c.Vacant slot ∧ ∀ j < slot, ¬ c.Vacant j
  findFree_eq_error_iff : c.findFree = .error .tableFull ↔
    ∀ slot < c.layout.slots, ¬ c.Vacant slot
  storedCount_eq : c.storedCount =
    (List.range c.layout.slots).countP fun slot => decide (¬ c.Vacant slot)
  freeCount_eq : c.freeCount =
    (List.range c.layout.slots).countP fun slot => decide (c.Vacant slot)
  stored_add_free : c.storedCount + c.freeCount = c.layout.slots

variable {c : Configuration}

theorem IndexAgrees.getElem_index (hc : c.IndexAgrees) (slot : Nat) (h : slot < c.layout.slots) :
    c.index[slot] = c.indexEntry slot := by
  have hentry := hc slot h
  rw [Vector.getElem?_toList, Vector.getElem?_eq_getElem h] at hentry
  exact Option.some.inj hentry

theorem IndexAgrees.answersByScan (hc : c.IndexAgrees) : c.AnswersByScan where
  entry_eq_zero_iff slot h := by
    rw [hc.getElem_index slot h, indexEntry_eq_zero_iff, record?_eq_none_iff h]
  entry_eq_hash slot h hv := by
    have hsome : c.record? slot ≠ none := mt (record?_eq_none_iff h).1 hv
    obtain ⟨e, he⟩ := Option.ne_none_iff_exists'.1 hsome
    refine ⟨e, c.event_of_record? h he, ?_⟩
    rw [hc.getElem_index slot h, indexEntry_of_record? he]
  isFree_iff _ h := hc.isFree_iff h
  find_eq_ok_iff _ _ := hc.find_eq_ok_iff
  find_eq_error_iff _ := hc.find_eq_error_iff
  findFree_eq_ok_iff _ := hc.findFree_eq_ok_iff
  findFree_eq_error_iff := hc.findFree_eq_error_iff
  storedCount_eq := hc.storedCount_eq
  freeCount_eq := hc.freeCount_eq
  stored_add_free := c.storedCount_add_freeCount

end Configuration

namespace Device

theorem indexAgrees_of_run {store : Store} {link : Link} {inputs : List Input} {n : Node}
    (h : (idle store link).run inputs = some (running n)) : n.config.IndexAgrees :=
  config_of_run Configuration.indexAgrees_load (fun hedits hc => hedits.indexAgrees hc) h
    (fun _ hidle => Device.noConfusion hidle) n rfl

/-- In every state of every run of a device, from any store, the answers of the index of its node
    are those of a scan of the records. -/
theorem answersByScan_of_run {store : Store} {link : Link} {inputs : List Input} {n : Node}
    (h : (idle store link).run inputs = some (running n)) : n.config.AnswersByScan :=
  (indexAgrees_of_run h).answersByScan

theorem answersByScan_of_learningSession :
    ∃ n, smallDevice.run learningSession = some (running n) ∧
      n.config.find ⟨1, 2⟩ = .ok 0 ∧ n.config.AnswersByScan := by
  obtain ⟨n, hn, hfind⟩ := exists_learningSession
  exact ⟨n, hn, hfind, answersByScan_of_run hn⟩

end Device

end RailNode
