import RailNode.Proofs.Service.Edits

/-
  The lookups that a service trusts do not fail. A long answer of the service that every node has
  runs over the services of the node, one of variable access over the node variables; as long as
  the numbers that are still to be reported are there (`Service.Sound`), no turn ends in a fault,
  and a turn keeps it so.
-/
namespace RailNode

open RailNode.Configuration

/-! ## Series -/

namespace Series

variable {κ : Type} {s : Series κ} {now gap : Time}

/-- The numbers that are still to be reported are at least 1 and at most `n`. -/
def Within (n : Nat) (s : Series κ) : Prop := 1 ≤ s.next ∧ s.stop ≤ n + 1

theorem within_start (now : Time) (kind : κ) (n : Nat) : (start now kind 1 (n + 1)).Within n :=
  ⟨Nat.le_refl 1, Nat.le_refl (n + 1)⟩

/-- A poll reports the next number, if any. -/
theorem poll_fst {i : Nat} (h : (s.poll now gap).1 = some i) : i = s.next ∧ i < s.stop := by
  unfold poll isDone at h
  split_ifs at h with hdone hdue
  have hi : s.next = i := Option.some.inj h
  exact ⟨hi.symm, by simpa [hi] using hdone⟩

theorem within_of_poll_fst {n i : Nat} (hs : s.Within n) (h : (s.poll now gap).1 = some i) :
    1 ≤ i ∧ i ≤ n := by
  obtain ⟨rfl, hlt⟩ := poll_fst h
  exact ⟨hs.1, Nat.le_of_lt_succ (Nat.lt_of_lt_of_le hlt hs.2)⟩

/-- What a poll leaves is of the same kind and ends at the same number. -/
theorem poll_snd {rest : Series κ} (h : (s.poll now gap).2 = some rest) :
    rest.kind = s.kind ∧ rest.stop = s.stop ∧ s.next ≤ rest.next := by
  unfold poll advance at h
  split_ifs at h with hdone hdue
  · rw [← Option.some.inj h]
    exact ⟨rfl, rfl, Nat.le_refl _⟩
  · dsimp only at h
    split_ifs at h
    rw [← Option.some.inj h]
    exact ⟨rfl, rfl, Nat.le_succ s.next⟩

theorem within_of_poll_snd {n : Nat} {rest : Series κ} (hs : s.Within n)
    (h : (s.poll now gap).2 = some rest) : rest.Within n := by
  obtain ⟨_, hstop, hnext⟩ := poll_snd h
  exact ⟨Nat.le_trans hs.1 hnext, by rw [hstop]; exact hs.2⟩

end Series

/-! ## The minimum node -/

namespace MinimumNode

/-- A list of services that is being reported runs over the `n` services of the node. -/
def Sound (n : Nat) (listing : Option (Series Listing)) : Prop :=
  ∀ s, listing = some s → s.kind = .services → s.Within n

variable {n : Nat} {c : Cycle} {m : Message} {t t' : Turn MinimumNode}

section Listing

/- The functions of the negotiation and of the heartbeat leave the long answer. -/

@[simp]
theorem listing_switchMode (mode : Mode) (t : Turn MinimumNode) :
    (switchMode mode t).self.listing = t.self.listing := by
  simp [switchMode]

@[simp]
theorem listing_beginNegotiation (now : Time) (t : Turn MinimumNode) :
    (beginNegotiation now t).self.listing = t.self.listing := by
  simp [beginNegotiation]

@[simp]
theorem listing_cancelNegotiation (t : Turn MinimumNode) :
    (cancelNegotiation t).self.listing = t.self.listing := by
  unfold cancelNegotiation
  split
  · rfl
  · dsimp only
    split_ifs <;> simp

@[simp]
theorem listing_obeyAssignment (m : Message) (t : Turn MinimumNode) :
    (obeyAssignment m t).self.listing = t.self.listing := by
  unfold obeyAssignment acceptNumber
  split_ifs
  · split
    · rfl
    · split_ifs <;> simp
  · rfl

@[simp]
theorem listing_renegotiate (now : Time) (t : Turn MinimumNode) :
    (renegotiate now t).self.listing = t.self.listing := by
  unfold renegotiate
  split_ifs <;> simp

@[simp]
theorem listing_advanceMode (now : Time) (t : Turn MinimumNode) :
    (advanceMode now t).self.listing = t.self.listing := by
  unfold advanceMode
  split <;> simp

@[simp]
theorem listing_obeyMode (now : Time) (command : UInt8) (t : Turn MinimumNode) :
    (obeyMode now command t).self.listing = t.self.listing := by
  unfold obeyMode resume
  split
  · simp
  · split_ifs <;> simp
  · rfl
  · rfl
  · rfl
  · simp

@[simp]
theorem listing_pollNegotiation (now limit : Time) (t : Turn MinimumNode) :
    (pollNegotiation now limit t).self.listing = t.self.listing := by
  unfold pollNegotiation
  split
  · rfl
  · split_ifs <;> simp

@[simp]
theorem listing_pollHeartbeat (now interval : Time) (t : Turn MinimumNode) :
    (pollHeartbeat now interval t).self.listing = t.self.listing := by
  unfold pollHeartbeat
  split_ifs
  · dsimp only
    split_ifs <;> simp [beat]
  · rfl

end Listing

/-- The number of replies of a long answer. -/
def replies (c : Cycle) : Listing → Nat
  | .parameters => Parameters.count
  | .services => c.services.length

/-- A long answer is as it was, or it has just been started. -/
def Renewed (c : Cycle) (l l' : Option (Series Listing)) : Prop :=
  l' = l ∨ ∃ kind, l' = some (.start c.now kind 1 (replies c kind + 1))

theorem renewed_answerParameter (c : Cycle) (m : Message) (t : Turn MinimumNode) :
    Renewed c t.self.listing (answerParameter c m t).self.listing := by
  unfold answerParameter sendParameter
  split
  · exact .inl (by simp)
  · split_ifs
    · exact .inr ⟨.parameters, by rw [Turn.self_reply]; rfl⟩
    · exact .inl (by simp)
    · exact .inl (by simp)

theorem renewed_answerServices (c : Cycle) (m : Message) (t : Turn MinimumNode) :
    Renewed c t.self.listing (answerServices c m t).self.listing := by
  unfold answerServices
  split
  · exact .inl rfl
  · split_ifs
    · exact .inr ⟨.services, by rw [Turn.self_reply]; rfl⟩
    · split <;> exact .inl (by simp)

theorem renewed_handle (h : handle c m t = .ok t') :
    Renewed c t.self.listing t'.self.listing := by
  unfold handle at h
  split at h
  · exact .inl (by rw [← Except.ok.inj h])
  · rw [← Except.ok.inj h]
    split_ifs
    · exact .inl rfl
    · exact .inl (by simp [introduce])
  · rw [← Except.ok.inj h]
    split_ifs <;> exact .inl (by simp)
  · rw [← Except.ok.inj h]
    split_ifs <;> exact .inl (by simp)
  · exact .inl (by rw [← Except.ok.inj h, listing_obeyAssignment])
  · split_ifs at h
    · unfold handleNamed at h
      split at h
      · exact Except.ok.inj h ▸ renewed_answerParameter c m t
      · contradiction
      · contradiction
      · split at h
        · exact .inl (by rw [← Except.ok.inj h])
        · exact .inl (by rw [← Except.ok.inj h, listing_obeyMode])
      · exact Except.ok.inj h ▸ renewed_answerServices c m t
      · rw [← Except.ok.inj h]
        unfold answerDiagnostics
        split
        · exact .inl rfl
        · split_ifs <;> exact .inl (by simp)
      · exact .inl (by rw [← Except.ok.inj h])
    · exact .inl (by rw [← Except.ok.inj h])

theorem renewed_react (h : react c t = .ok t') : Renewed c t.self.listing t'.self.listing := by
  unfold react at h
  split at h
  · exact .inl (by rw [← Except.ok.inj h, listing_advanceMode])
  · exact .inl (by rw [← Except.ok.inj h, listing_renegotiate])
  · exact renewed_handle h
  · exact .inl (by rw [← Except.ok.inj h])

theorem sound_react (ht : Sound c.services.length t.self.listing) (h : react c t = .ok t') :
    Sound c.services.length t'.self.listing := by
  rcases renewed_react h with hl | ⟨kind, hl⟩
  · exact hl ▸ ht
  · intro s hs hkind
    rw [hl] at hs
    obtain rfl := Option.some.inj hs
    obtain rfl : kind = .services := hkind
    exact Series.within_start _ _ _

/-- A service that is being reported is there. -/
theorem report_eq_ok {i : Nat} (kind : Listing) (t : Turn MinimumNode)
    (hi : kind = .services → 1 ≤ i ∧ i ≤ c.services.length) :
    ∃ t', report c kind i t = .ok t' ∧ t'.self.listing = t.self.listing := by
  cases kind with
  | parameters => exact ⟨_, rfl, by simp [sendParameter]⟩
  | services =>
    obtain ⟨h1, h2⟩ := hi rfl
    have hlt : i - 1 < c.services.length := by omega
    unfold report
    dsimp only
    rw [List.getElem?_eq_getElem hlt]
    exact ⟨_, rfl, by simp⟩

theorem pollListing_eq_ok (ht : Sound c.services.length t.self.listing) :
    ∃ t', pollListing c t = .ok t' ∧ Sound c.services.length t'.self.listing := by
  unfold pollListing
  split
  · exact ⟨t, rfl, ht⟩
  · rename_i s hs
    have hrest : Sound c.services.length (s.poll c.now c.timing.replyGap).2 := by
      intro rest hrest hkind
      exact Series.within_of_poll_snd
        (ht s hs ((Series.poll_snd hrest).1 ▸ hkind)) hrest
    dsimp only
    split
    · exact ⟨_, rfl, hrest⟩
    · rename_i i hi
      obtain ⟨t', ht', hlisting⟩ := report_eq_ok (c := c) (i := i) s.kind
        { t with self.listing := (s.poll c.now c.timing.replyGap).2 }
        fun hkind => Series.within_of_poll_fst (ht s hs hkind) hi
      exact ⟨t', ht', hlisting ▸ hrest⟩

theorem handle_ne_fault : handle c m t ≠ .error .fault := by
  intro h
  unfold handle at h
  split at h
  · contradiction
  · contradiction
  · contradiction
  · contradiction
  · contradiction
  · split_ifs at h
    unfold handleNamed at h
    split at h
    · contradiction
    · exact nomatch Except.error.inj h
    · exact nomatch Except.error.inj h
    · split at h <;> contradiction
    · contradiction
    · contradiction
    · contradiction

theorem react_ne_fault : react c t ≠ .error .fault := by
  intro h
  unfold react at h
  split at h
  · contradiction
  · contradiction
  · exact handle_ne_fault h
  · contradiction

theorem poll_eq_ok (ht : Sound c.services.length t.self.listing) :
    ∃ t', poll c t = .ok t' ∧ Sound c.services.length t'.self.listing := by
  refine pollListing_eq_ok ?_
  rw [listing_pollHeartbeat, listing_pollNegotiation]
  exact ht

theorem turn_ne_fault (ht : Sound c.services.length t.self.listing) :
    turn c t ≠ .error .fault := by
  intro h
  rw [turn_eq] at h
  rcases bind_eq_error_iff.1 h with h | ⟨u, hu, h⟩
  · exact react_ne_fault h
  · obtain ⟨t', ht', _⟩ := poll_eq_ok (sound_react (t := noteStart c t) ht hu)
    rw [ht'] at h
    contradiction

theorem sound_turn (ht : Sound c.services.length t.self.listing) (h : turn c t = .ok t') :
    Sound c.services.length t'.self.listing := by
  rw [turn_eq] at h
  obtain ⟨u, hu, h⟩ := bind_eq_ok_iff.1 h
  obtain ⟨u', hu', hsound⟩ := poll_eq_ok (sound_react (t := noteStart c t) ht hu)
  rw [hu'] at h
  exact Except.ok.inj h ▸ hsound

end MinimumNode

/-! ## Variable access -/

namespace VariableAccess

/-- The variables that are being reported are among the `n` node variables. -/
def Sound (n : Nat) (listing : Option (Series Unit)) : Prop :=
  ∀ s, listing = some s → s.Within n

variable {c : Cycle} {m : Message} {t t' : Turn VariableAccess}

theorem exists_nodeVariable? {d : Configuration} {i : Nat} (h1 : 1 ≤ i)
    (h2 : i ≤ d.layout.nodeVariables) : ∃ v, d.nodeVariable? i = some v := by
  unfold nodeVariable? nodeVariableAddress?
  rw [if_pos ⟨h1, h2⟩]
  exact ⟨_, rfl⟩

theorem index_of_setNodeVariable? {d d' : Configuration} {i : Nat} {v : UInt8}
    (h : d.setNodeVariable? i v = some d') : 1 ≤ i ∧ i ≤ d.layout.nodeVariables := by
  unfold setNodeVariable? nodeVariableAddress? at h
  split_ifs at h with hi
  · exact hi
  · contradiction

/-- A variable with a valid index can be reported. -/
theorem sendVariable_eq_ok {i : Nat} (h1 : 1 ≤ i) (h2 : i ≤ t.config.layout.nodeVariables) :
    ∃ t', sendVariable i t = .ok t' ∧ t'.self = t.self := by
  obtain ⟨v, hv⟩ := exists_nodeVariable? h1 h2
  unfold sendVariable
  rw [hv]
  exact ⟨_, rfl, Turn.self_reply _ _ t _⟩

theorem sound_answerRead (ht : Sound t.config.layout.nodeVariables t.self.listing) :
    Sound t.config.layout.nodeVariables (answerRead c m t).self.listing := by
  unfold answerRead
  split
  · simpa using ht
  · split_ifs
    · intro s hs
      rw [Turn.self_reply] at hs
      rw [← Option.some.inj hs]
      exact Series.within_start _ _ _
    · split
      · simpa [sendValue] using ht
      · simpa using ht

/-- A write comes to its end, whatever it goes on with when the variable could be written. -/
theorem obeyWrite_eq_ok (command : Opcode)
    {andThen : Nat → Turn VariableAccess → Except Halt (Turn VariableAccess)}
    (hthen : ∀ {i : Nat} {u : Turn VariableAccess}, 1 ≤ i → i ≤ u.config.layout.nodeVariables →
      ∃ u', andThen i u = .ok u' ∧ u'.self = u.self) :
    ∃ t', obeyWrite command m andThen t = .ok t' ∧ t'.self = t.self := by
  unfold obeyWrite
  split
  · split
    · rename_i index _ _ _ _ d hset
      obtain ⟨h1, h2⟩ := index_of_setNodeVariable? hset
      refine hthen (u := { t with shared.config := d }) h1 ?_
      show index.toNat ≤ d.layout.nodeVariables
      rw [(changesOnly_setNodeVariable? hset).layout]
      exact h2
    · exact ⟨_, rfl, Turn.self_refuse _ _ _ t⟩
  · exact ⟨_, rfl, Turn.self_refuse _ _ _ t⟩

theorem handle_eq_ok (ht : Sound t.config.layout.nodeVariables t.self.listing) :
    ∃ t', handle c m t = .ok t' ∧ Sound t.config.layout.nodeVariables t'.self.listing := by
  unfold handle
  split_ifs
  · split
    · exact ⟨_, rfl, sound_answerRead ht⟩
    · obtain ⟨t', ht', hself⟩ := obeyWrite_eq_ok .nvset (m := m) (t := t)
        fun {_ u} _ _ => ⟨u.acknowledgeWrite, rfl, Turn.self_acknowledgeWrite u⟩
      exact ⟨t', ht', hself ▸ ht⟩
    · obtain ⟨t', ht', hself⟩ := obeyWrite_eq_ok .nvsetrd (m := m) (t := t)
        sendVariable_eq_ok
      exact ⟨t', ht', hself ▸ ht⟩
    · exact ⟨t, rfl, ht⟩
  · exact ⟨t, rfl, ht⟩

theorem pollListing_eq_ok (ht : Sound t.config.layout.nodeVariables t.self.listing) :
    ∃ t', pollListing c t = .ok t' ∧ Sound t.config.layout.nodeVariables t'.self.listing := by
  unfold pollListing
  split
  · exact ⟨t, rfl, ht⟩
  · rename_i s hs
    have hrest : Sound t.config.layout.nodeVariables (s.poll c.now c.timing.replyGap).2 :=
      fun rest hrest => Series.within_of_poll_snd (ht s hs) hrest
    dsimp only
    split
    · exact ⟨_, rfl, hrest⟩
    · rename_i i hi
      obtain ⟨h1, h2⟩ := Series.within_of_poll_fst (ht s hs) hi
      obtain ⟨t', ht', hself⟩ := sendVariable_eq_ok
        (t := { t with self.listing := (s.poll c.now c.timing.replyGap).2 }) h1 h2
      exact ⟨t', ht', hself ▸ hrest⟩

theorem turn_eq_ok (ht : Sound t.config.layout.nodeVariables t.self.listing) :
    ∃ t', turn c t = .ok t' ∧ Sound t.config.layout.nodeVariables t'.self.listing := by
  unfold turn
  split
  · rename_i m _
    obtain ⟨u, hu, hsound⟩ := handle_eq_ok (c := c) (m := m) ht
    have hl : u.config.layout = t.config.layout := (edits_handle hu).changesOnly.layout
    obtain ⟨t', ht', hsound'⟩ := pollListing_eq_ok (c := c) (t := u) (by rw [hl]; exact hsound)
    rw [hl] at hsound'
    exact ⟨t', bind_eq_ok_iff.2 ⟨u, hu, ht'⟩, hsound'⟩
  · exact pollListing_eq_ok ht

end VariableAccess

/-! ## Teaching -/

namespace Teaching

variable {c : Cycle} {m : Message} {t : Turn Teaching}

theorem learn_eq_ok (m : Message) (t : Turn Teaching) : ∃ t', learn m t = .ok t' := by
  unfold learn
  rcases m.event? with _ | e
  · exact ⟨_, rfl⟩
  rcases m.byte? 5 with _ | index
  · exact ⟨_, rfl⟩
  rcases m.byte? 6 with _ | value
  · exact ⟨_, rfl⟩
  dsimp only
  split_ifs with hbad
  · exact ⟨_, rfl⟩
  · have hne : index.toNat ≠ (0 : UInt8).toNat := mt UInt8.toNat_inj.1 (mt Or.inl hbad)
    have h1 : 1 ≤ index.toNat := Nat.pos_of_ne_zero hne
    have h2 : index.toNat ≤ t.config.layout.eventVariables := by omega
    rcases hfind : t.config.find e with x | slot
    · rcases hfree : t.config.findFree with x | slot
      · exact ⟨_, rfl⟩
      · have hs := slot_lt_of_findFree hfree
        have hl : (filed slot e t).config.layout = t.config.layout :=
          (changesOnly_insertEvent (t.config.insertEvent_eq hs e)).layout
        dsimp only
        rw [learnEvent_eq hs e]
        exact teachVariable_eq_ok value (by rw [hl]; exact hs) h1 (by rw [hl]; exact h2)
    · exact teachVariable_eq_ok value (slot_lt_of_find hfind) h1 h2

theorem unlearn_eq_ok (m : Message) (t : Turn Teaching) : ∃ t', unlearn m t = .ok t' := by
  unfold unlearn
  rcases m.event? with _ | e
  · exact ⟨_, rfl⟩
  dsimp only
  rcases hfind : t.config.find e with x | slot
  · exact ⟨_, rfl⟩
  · dsimp only
    rw [t.config.removeEvent_eq (slot_lt_of_find hfind)]
    exact ⟨_, rfl⟩

/-- A turn of teaching always comes to its end. -/
theorem turn_eq_ok (c : Cycle) (t : Turn Teaching) : ∃ t', turn c t = .ok t' := by
  unfold turn
  rcases c.received? with _ | m
  · exact ⟨_, rfl⟩
  suffices h : ∃ u, handle c m t = .ok u by
    obtain ⟨u, hu⟩ := h
    exact ⟨pollListing c u, map_eq_ok_iff.2 ⟨u, hu, rfl⟩⟩
  unfold handle
  split
  · exact ⟨t, rfl⟩
  · exact ⟨_, rfl⟩
  · split_ifs
    · exact learn_eq_ok m t
    · exact ⟨t, rfl⟩
  · split_ifs
    · exact unlearn_eq_ok m t
    · exact ⟨t, rfl⟩
  · exact ⟨_, rfl⟩
  · exact ⟨_, rfl⟩

end Teaching

/-! ## All services -/

namespace Service

/-- What is still to be reported is there, in a node with `n` services and this layout. -/
def Sound (n : Nat) (l : Layout) : Service → Prop
  | minimumNode s => MinimumNode.Sound n s.listing
  | nodeVariables s => VariableAccess.Sound l.nodeVariables s.listing
  | _ => True

variable {c : Cycle} {t t' : Turn Service}

/-- A turn of a sound service does not end in a fault. -/
theorem turn_ne_fault (ht : t.self.Sound c.services.length t.config.layout) :
    turn c t ≠ .error .fault := by
  intro h
  unfold turn at h
  split at h
  · rename_i s hs
    rw [hs] at ht
    exact MinimumNode.turn_ne_fault (t := t.withSelf s) ht (map_eq_error_iff.1 h)
  · contradiction
  · rename_i s hs
    rw [hs] at ht
    obtain ⟨u, hu, _⟩ := VariableAccess.turn_eq_ok (c := c) (t := t.withSelf s) ht
    rw [hu] at h
    contradiction
  · rename_i s _
    obtain ⟨u, hu⟩ := Teaching.turn_eq_ok c (t.withSelf s)
    rw [hu] at h
    contradiction
  · contradiction
  · contradiction
  · contradiction
  · contradiction

/-- A sound service is sound after its turn. -/
theorem sound_turn (ht : t.self.Sound c.services.length t.config.layout)
    (h : turn c t = .ok t') : t'.self.Sound c.services.length t.config.layout := by
  unfold turn at h
  split at h
  · rename_i s hs
    rw [hs] at ht
    obtain ⟨u, hu, rfl⟩ := map_eq_ok_iff.1 h
    exact MinimumNode.sound_turn (t := t.withSelf s) ht hu
  · rw [← Except.ok.inj h]
    trivial
  · rename_i s hs
    rw [hs] at ht
    obtain ⟨u, hu, rfl⟩ := map_eq_ok_iff.1 h
    obtain ⟨u', hu', hsound⟩ := VariableAccess.turn_eq_ok (c := c) (t := t.withSelf s) ht
    rw [hu] at hu'
    rw [← Except.ok.inj hu'] at hsound
    exact hsound
  · obtain ⟨u, _, rfl⟩ := map_eq_ok_iff.1 h
    trivial
  · rw [← Except.ok.inj h]
    trivial
  · rename_i s hs
    rw [← Except.ok.inj h]
    exact ht
  · rw [← Except.ok.inj h]
    trivial
  · rw [← Except.ok.inj h]
    trivial

end Service

end RailNode
