import RailNode.Proofs.Service.Listings.Basic

/-
  The long answers of the service that every node has: the parameters and the services.
-/
namespace RailNode

open Series Turn

/-- The request for a long answer. -/
def Listing.request : Listing → Opcode
  | .parameters => .rqnpn
  | .services => .rqsd

/-- The opcode of the replies. -/
def Listing.reply : Listing → Opcode
  | .parameters => .paran
  | .services => .sd

theorem Listing.reply_notMem (k : Listing) :
    k.reply ∉ MinimumNode.signals ++ Opcode.responses := by
  cases k <;> decide

namespace MinimumNode

variable {c : Cycle} {d : Configuration} {m : Message} {k : Listing} {t t' u : Turn MinimumNode}

/-- The long answer that a message asks for. -/
def asked? (d : Configuration) (m : Message) : Option Listing :=
  match m.opcode? with
  | some .rqnpn => if m.names d && m.byte? 3 == some 0 then some .parameters else none
  | some .rqsd => if m.names d && m.byte? 3 == some 0 then some .services else none
  | _ => none

/-- The long answer at its start. -/
def opened (c : Cycle) (k : Listing) : Series Listing := .start c.now k 1 (replies c k + 1)

/-- The announcement of a long answer. -/
def announcement (c : Cycle) (d : Configuration) : Listing → Message
  | .parameters => .about .paran d.nodeNumber [0, UInt8.ofNat Parameters.count]
  | .services => .about .sd d.nodeNumber [0, 0, UInt8.ofNat c.services.length]

/-- The reply of a long answer with a number, if there is one. -/
def item? (c : Cycle) (d : Configuration) (k : Listing) (i : Nat) : Option Message :=
  match k with
  | .parameters =>
    (c.parameters.value? d.mode d.learning i).map fun value =>
      .about .paran d.nodeNumber [UInt8.ofNat i, value]
  | .services =>
    c.services[i - 1]?.map fun info =>
      .about .sd d.nodeNumber [UInt8.ofNat i, info.id.byte, info.version]

/-! ## What starts a long answer -/

theorem opcode_of_asked (h : asked? d m = some k) : m.opcode? = some k.request := by
  unfold asked? at h
  split at h
  · rename_i ho
    split_ifs at h
    rw [ho, ← Option.some.inj h]
    rfl
  · rename_i ho
    split_ifs at h
    rw [ho, ← Option.some.inj h]
    rfl
  · contradiction

theorem listing_answerParameter (c : Cycle) (m : Message) (t : Turn MinimumNode) :
    (answerParameter c m t).self.listing =
      if m.byte? 3 == some 0 then some (opened c .parameters) else t.self.listing := by
  unfold answerParameter sendParameter
  rcases m.byte? 3 with _ | index
  · exact congrArg _ (self_refuse _ _ _ t)
  · by_cases hindex : index = 0
    · simp [hindex, opened, replies]
    · dsimp only
      rw [if_neg hindex, if_neg (show ¬(some index == some 0) = true by simpa using hindex)]
      split_ifs <;> simp

theorem listing_answerServices (c : Cycle) (m : Message) (t : Turn MinimumNode) :
    (answerServices c m t).self.listing =
      if m.byte? 3 == some 0 then some (opened c .services) else t.self.listing := by
  unfold answerServices
  rcases m.byte? 3 with _ | index
  · rfl
  · by_cases hindex : index = 0
    · simp [hindex, opened, replies]
    · dsimp only
      rw [if_neg hindex, if_neg (show ¬(some index == some 0) = true by simpa using hindex)]
      split <;> simp

theorem listing_answerDiagnostics (c : Cycle) (m : Message) (t : Turn MinimumNode) :
    (answerDiagnostics c m t).self.listing = t.self.listing := by
  unfold answerDiagnostics
  split
  · rfl
  · split_ifs <;> simp

theorem listing_handle (h : handle c m t = .ok t') :
    t'.self.listing = ((asked? t.config m).map (opened c)).or t.self.listing := by
  unfold handle at h
  unfold asked?
  split at h
  · rename_i ho
    rw [← Except.ok.inj h, ho]
    rfl
  · rename_i ho
    rw [← Except.ok.inj h, ho]
    split_ifs <;> simp [introduce]
  · rename_i ho
    rw [← Except.ok.inj h, ho]
    split_ifs <;> simp
  · rename_i ho
    rw [← Except.ok.inj h, ho]
    split_ifs <;> simp
  · rename_i ho
    rw [← Except.ok.inj h, ho, listing_obeyAssignment]
    rfl
  · rename_i o _ _ _ _ ho
    rw [ho]
    rw [isNamedBy_eq] at h
    rcases hnamed : m.names t.config with _ | _
    · rw [hnamed] at h
      rw [← Except.ok.inj h]
      split <;> rfl
    · rw [hnamed, if_pos rfl] at h
      unfold handleNamed at h
      split at h
      · rw [← Except.ok.inj h, listing_answerParameter]
        rcases m.byte? 3 == some 0 with _ | _ <;> rfl
      · contradiction
      · contradiction
      · split at h
        · rw [← Except.ok.inj h]
          rfl
        · rw [← Except.ok.inj h, listing_obeyMode]
          rfl
      · rw [← Except.ok.inj h, listing_answerServices]
        rcases m.byte? 3 == some 0 with _ | _ <;> rfl
      · rw [← Except.ok.inj h, listing_answerDiagnostics]
        rfl
      · rw [← Except.ok.inj h]
        split <;> simp_all

theorem listing_prepare (h : prepare c t = .ok u) :
    u.self.listing =
      ((c.received?.bind (asked? t.config)).map (opened c)).or t.self.listing := by
  obtain ⟨t', ht', rfl⟩ := map_eq_ok_iff.1 h
  rw [listing_pollHeartbeat, listing_pollNegotiation]
  unfold react at ht'
  unfold Cycle.received?
  split at ht'
  · rename_i haction
    rw [← Except.ok.inj ht', listing_advanceMode, haction]
    rfl
  · rename_i haction
    rw [← Except.ok.inj ht', listing_renegotiate, haction]
    rfl
  · rename_i m haction
    rw [haction]
    exact listing_handle (t := noteStart c t) ht'
  · rename_i haction
    rw [← Except.ok.inj ht']
    split
    · rename_i m hm
      exact absurd hm (haction m)
    · rfl

/-! ## What else is sent -/

/-- A long answer is announced when it is asked for. -/
theorem sent_handle_of_asked (h : handle c m t = .ok t') (hm : asked? t.config m = some k) :
    t'.sent k.reply = t.sent k.reply ++ [.transmit (announcement c t.config k)] := by
  have hzero : ∀ {a : Listing},
      (if m.names t.config && m.byte? 3 == some 0 then some a else none) = some k →
        t.isNamedBy m = true ∧ m.byte? 3 = some 0 ∧ a = k := by
    intro a ha
    split_ifs at ha with hnamed
    rw [Bool.and_eq_true, beq_iff_eq] at hnamed
    exact ⟨hnamed.1, hnamed.2, Option.some.inj ha⟩
  unfold asked? at hm
  split at hm
  · rename_i ho
    obtain ⟨hnamed, hindex, rfl⟩ := hzero hm
    unfold handle handleNamed at h
    simp only [ho, hnamed, if_true] at h
    rw [← Except.ok.inj h, answerParameter, hindex]
    exact sent_reply_self .paran _ _ _
  · rename_i ho
    obtain ⟨hnamed, hindex, rfl⟩ := hzero hm
    unfold handle handleNamed at h
    simp only [ho, hnamed, if_true] at h
    rw [← Except.ok.inj h, answerServices, hindex]
    exact sent_reply_self .sd _ _ _
  · contradiction

/-- In a turn in which it is not answered with, nothing else is sent with the opcode of a long
    answer. -/
theorem sent_prepare (h : prepare c t = .ok u)
    (hnone : ∀ m, c.received? = some m → k.reply ∉ repliesTo t.config m) :
    u.sent k.reply = t.sent k.reply := by
  refine (speaks_prepare h).sent_eq ?_
  rw [List.append_assoc]
  refine fun hmem => (List.mem_append.1 hmem).elim ?_ k.reply_notMem
  rcases hm : c.received? with _ | m
  · exact List.not_mem_nil
  · exact hnone m hm

/-- In a turn with a request for a long answer its announcement is sent, and nothing else with its
    opcode. -/
theorem sent_prepare_of_asked (h : prepare c t = .ok u) (hm : c.received? = some m)
    (hk : asked? t.config m = some k) :
    u.sent k.reply = t.sent k.reply ++ [.transmit (announcement c t.config k)] := by
  obtain ⟨t', ht', rfl⟩ := map_eq_ok_iff.1 h
  have hsilent : k.reply ∉ [.nnack, .heartb] ++ Opcode.responses := by
    cases k <;> decide
  rw [(speaks_times c t').sent_eq hsilent]
  unfold Cycle.received? at hm
  split at hm
  · rename_i m' haction
    obtain rfl := Option.some.inj hm
    rw [react, haction] at ht'
    exact sent_handle_of_asked (t := noteStart c t) ht' hk
  · contradiction

/-! ## The replies -/

theorem exists_parameter (p : Parameters) (mode : Mode) (learning : Bool) {i : Nat}
    (h : i ≤ Parameters.count) : ∃ value, p.value? mode learning i = some value := by
  unfold Parameters.value?
  split
  all_goals first | exact ⟨_, rfl⟩ | exact ⟨0, if_pos h⟩

/-- A reply that there must be is given. -/
theorem replies_report {i : Nat} (h : report c k i t = .ok t') (hi : i ≤ replies c k) :
    Replies (item? c t.config k) t.given (some i) t'.given ∧ t'.self = t.self := by
  cases k with
  | parameters =>
    obtain ⟨value, hvalue⟩ := exists_parameter c.parameters t.config.mode t.config.learning hi
    have hparameter : parameter c t.config i = value := by
      rw [parameter, hvalue]
      rfl
    rw [← Except.ok.inj h, sendParameter, hparameter]
    exact ⟨.of_eq (by rw [item?, hvalue]; rfl) (given_reply _ _ t _), self_reply _ _ t _⟩
  | services =>
    obtain ⟨info, hinfo, rfl⟩ := map_eq_ok_iff.1 h
    exact ⟨.of_eq (by rw [item?, trust_eq_ok_iff.1 hinfo]; rfl) (given_reply _ _ t _),
      self_reply _ _ t _⟩

/-- What a poll of the long answer does. -/
theorem replies_pollListing {left : Option (Series Listing)} (hleft : t.self.listing = left)
    (hkind : ∀ s, left = some s → s.kind = k ∧ s.Within (replies c k))
    (h : pollListing c t = .ok t') :
    t'.self.listing = (pollLeft c.now c.timing.replyGap left).2 ∧
      Replies (item? c t.config k) t.given (pollLeft c.now c.timing.replyGap left).1 t'.given := by
  unfold pollListing at h
  rw [hleft] at h
  rcases left with _ | s
  · rw [← Except.ok.inj h]
    exact ⟨hleft, .silent⟩
  · obtain ⟨rfl, hwithin⟩ := hkind s rfl
    dsimp only at h
    rw [pollLeft]
    rcases hnumber : (s.poll c.now c.timing.replyGap).1 with _ | i
    · rw [hnumber] at h
      rw [← Except.ok.inj h]
      exact ⟨rfl, .silent⟩
    · rw [hnumber] at h
      obtain ⟨hreplies, hself⟩ := replies_report h (within_of_poll_fst hwithin hnumber).2
      exact ⟨by rw [hself], hreplies⟩

end MinimumNode

end RailNode
