import RailNode.Proofs.Service.Listings.Basic

/-
  The long answer of variable access: the node variables.
-/
namespace RailNode

open Series Turn

namespace VariableAccess

variable {c : Cycle} {d : Configuration} {m : Message} {t t' u : Turn VariableAccess}

/-- The long answer that a message asks for. -/
def asked? (d : Configuration) (m : Message) : Option Unit :=
  if m.names d && m.opcode? == some .nvrd && m.byte? 3 == some 0 then some () else none

/-- The long answer at its start. -/
def opened (c : Cycle) (d : Configuration) : Series Unit :=
  .start c.now () 1 (d.layout.nodeVariables + 1)

def announcement (d : Configuration) : Message :=
  .about .nvans d.nodeNumber [0, d.layout.nodeVariableCount]

/-- The report of a variable, if there is one with this index. -/
def item? (d : Configuration) (i : Nat) : Option Message :=
  (d.nodeVariable? i).map fun value =>
    .about .nvans d.nodeNumber [UInt8.ofNat i, value]

theorem opcode_of_asked (h : asked? d m = some ()) : m.opcode? = some .nvrd := by
  unfold asked? at h
  split_ifs at h with hall
  simp only [Bool.and_eq_true, beq_iff_eq] at hall
  exact hall.1.2

theorem self_obeyWrite {command : Opcode}
    {andThen : Nat → Turn VariableAccess → Except Halt (Turn VariableAccess)}
    (hthen : ∀ {i : Nat} {u u' : Turn VariableAccess}, andThen i u = .ok u' → u'.self = u.self)
    (h : obeyWrite command m andThen t = .ok t') : t'.self = t.self := by
  unfold obeyWrite at h
  split at h
  · split at h
    · have hself := hthen h
      exact hself
    · exact Except.ok.inj h ▸ self_refuse _ _ _ t
  · exact Except.ok.inj h ▸ self_refuse _ _ _ t

theorem replies_sendVariable {i : Nat} (h : sendVariable i t = .ok t') :
    Replies (item? t.config) t.given (some i) t'.given ∧ t'.self = t.self := by
  obtain ⟨value, hvalue, rfl⟩ := map_eq_ok_iff.1 h
  exact ⟨.of_eq (by rw [item?, trust_eq_ok_iff.1 hvalue]; rfl) (given_reply _ _ t _),
    self_reply _ _ t _⟩

theorem listing_handle (h : handle c m t = .ok t') :
    t'.self.listing = ((asked? t.config m).map fun _ => opened c t.config).or t.self.listing := by
  unfold handle at h
  rw [isNamedBy_eq] at h
  unfold asked?
  rcases hnamed : m.names t.config with _ | _
  · rw [hnamed] at h
    rw [← Except.ok.inj h]
    rfl
  · rw [hnamed, if_pos rfl] at h
    split at h
    · rename_i ho
      rw [← Except.ok.inj h, ho]
      unfold answerRead
      rcases m.byte? 3 with _ | index
      · exact congrArg _ (self_refuse _ _ _ t)
      · by_cases hindex : index = 0
        · simp [hindex, opened]
        · dsimp only
          rw [if_neg hindex, if_neg (by simpa using hindex)]
          split
          · exact congrArg _ (self_reply _ _ t _)
          · exact congrArg _ (self_refuse _ _ _ t)
    · rename_i ho
      rw [self_obeyWrite (fun h => Except.ok.inj h ▸ self_acknowledgeWrite _) h, ho]
      rfl
    · rename_i ho
      rw [self_obeyWrite (fun h => (replies_sendVariable h).2) h, ho]
      rfl
    · rename_i hother _ _
      have hread : m.opcode? ≠ some .nvrd := hother
      rw [← Except.ok.inj h, if_neg (by simp [hread])]
      rfl

theorem listing_prepare (h : prepare c t = .ok u) :
    u.self.listing = ((c.received?.bind (asked? t.config)).map fun _ => opened c t.config).or
      t.self.listing := by
  unfold prepare at h
  rcases hm : c.received? with _ | m
  · rw [hm] at h
    rw [← Except.ok.inj h]
    rfl
  · rw [hm] at h
    exact listing_handle h

/-- In a turn in which it is not answered with, nothing is sent with the opcode of the reports. -/
theorem sent_prepare (h : prepare c t = .ok u)
    (hnone : ∀ m, c.received? = some m → .nvans ∉ repliesTo t.config m) :
    u.sent .nvans = t.sent .nvans := by
  refine (speaks_prepare h).sent_eq fun hmem => (List.mem_append.1 hmem).elim ?_ (by decide)
  rcases hm : c.received? with _ | m
  · exact List.not_mem_nil
  · exact hnone m hm

theorem sent_prepare_of_asked (h : prepare c t = .ok u) (hm : c.received? = some m)
    (hasked : asked? t.config m = some ()) :
    u.sent .nvans = t.sent .nvans ++ [.transmit (announcement t.config)] := by
  unfold asked? at hasked
  split_ifs at hasked with hall
  simp only [Bool.and_eq_true, beq_iff_eq] at hall
  obtain ⟨⟨hnamed, ho⟩, hindex⟩ := hall
  have hnamed : t.isNamedBy m = true := hnamed
  unfold prepare at h
  rw [hm] at h
  change handle c m t = .ok u at h
  unfold handle at h
  simp only [ho, hnamed, if_true] at h
  rw [← Except.ok.inj h, answerRead, hindex]
  exact sent_reply_self .nvans _ _ _

theorem replies_pollListing {left : Option (Series Unit)} (hleft : t.self.listing = left)
    (h : pollListing c t = .ok t') :
    t'.self.listing = (pollLeft c.now c.timing.replyGap left).2 ∧
      Replies (item? t.config) t.given (pollLeft c.now c.timing.replyGap left).1 t'.given := by
  unfold pollListing at h
  rw [hleft] at h
  rcases left with _ | s
  · rw [← Except.ok.inj h]
    exact ⟨hleft, .silent⟩
  · dsimp only at h
    rw [pollLeft]
    rcases hnumber : (s.poll c.now c.timing.replyGap).1 with _ | i
    · rw [hnumber] at h
      rw [← Except.ok.inj h]
      exact ⟨rfl, .silent⟩
    · rw [hnumber] at h
      obtain ⟨hreplies, hself⟩ := replies_sendVariable h
      exact ⟨by rw [hself], hreplies⟩

end VariableAccess

end RailNode
