import Mathlib.Tactic.IntervalCases
import RailNode.Proofs.Service.Listings.Basic

/-
  The long answers of the reporters: the diagnostics of a service.
-/
namespace RailNode

open Series Turn

/-- A service has a value for each of its codes. -/
theorem Service.exists_diagnostic? (service : Service) (c : Cycle) (shared : Shared) {i : Nat}
    (h1 : 1 ≤ i) (h2 : i ≤ service.diagnosticCount) :
    ∃ value, service.diagnostic? c shared i = some value := by
  cases service with
  | minimumNode s =>
    have h2 : i ≤ 6 := h2
    interval_cases i <;> exact ⟨_, rfl⟩
  | busAccess s =>
    have h2 : i ≤ 6 := h2
    interval_cases i <;> exact ⟨_, rfl⟩
  | nodeVariables s => exact absurd (Nat.le_trans h1 h2) (Nat.not_succ_le_zero 0)
  | teaching s =>
    have h2 : i ≤ 3 := h2
    interval_cases i <;> exact ⟨_, rfl⟩
  | consumer s =>
    have h2 : i ≤ 2 := h2
    interval_cases i <;> exact ⟨_, rfl⟩
  | producer s =>
    have h2 : i ≤ 1 := h2
    interval_cases i
    exact ⟨_, rfl⟩
  | acknowledge s =>
    have h2 : i ≤ 1 := h2
    interval_cases i
    exact ⟨_, rfl⟩
  | longMessage s =>
    have h2 : i ≤ 2 := h2
    interval_cases i <;> exact ⟨_, rfl⟩

/-- Whether an action sends a diagnostic value of the service at this position. -/
def Action.reportsOn (position : Nat) (x : Action) : Bool :=
  x.sends .dgn && x.transmitted?.bind (·.byte? 3) == some (UInt8.ofNat position)

namespace Reporter

variable {c : Cycle} {service : Service} {position : Nat} {d : Configuration} {m : Message}
  {t u : Turn Reporter}

/-- The long answer that a message asks for. -/
def asked? (service : Service) (position : Nat) (d : Configuration) (m : Message) :
    Option Unit :=
  match m.byte? 3, m.byte? 4 with
  | some index, some code =>
    if m.opcode? = some .rdgn ∧ m.names d ∧ (index.toNat = 0 ∨ index.toNat = position) ∧
        code.toNat = 0 ∧ service.diagnosticCount ≠ 0 then
      some ()
    else none
  | _, _ => none

/-- The long answer at its start. -/
def opened (c : Cycle) (service : Service) : Series Unit :=
  .start c.now () 1 (service.diagnosticCount + 1)

/-- The report of a value, if there is one with this code. -/
def item? (c : Cycle) (service : Service) (position : Nat) (shared : Shared) (i : Nat) :
    Option Message :=
  (service.diagnostic? c shared i).map fun value =>
    .about .dgn shared.config.nodeNumber
      [UInt8.ofNat position, UInt8.ofNat i, Word.high value, Word.low value]

theorem opcode_of_asked (h : asked? service position d m = some ()) :
    m.opcode? = some .rdgn := by
  unfold asked? at h
  split at h
  · split_ifs at h with hall
    exact hall.1
  · contradiction

/-- What an answer does: it starts a long answer, or it leaves the one there is. -/
theorem answer_eq (c : Cycle) (t : Turn Reporter) {index code : Nat}
    (h : (index = 0 ∨ index = position) ∧ code = 0 ∧ service.diagnosticCount ≠ 0) :
    answer c service position index code t =
      { t with self.listing := some (opened c service) } := by
  obtain ⟨hindex, hcode, hcount⟩ := h
  unfold answer
  rw [if_neg fun h => hindex.elim h.1 h.2, if_pos hcode, if_neg hcount]
  rfl

theorem self_answer (c : Cycle) (t : Turn Reporter) {index code : Nat}
    (h : ¬((index = 0 ∨ index = position) ∧ code = 0 ∧ service.diagnosticCount ≠ 0)) :
    (answer c service position index code t).self = t.self := by
  unfold answer
  split_ifs with hindex hcode hcount
  · rfl
  · rfl
  · exact absurd ⟨by omega, hcode, hcount⟩ h
  · exact self_reply _ _ t _
  · rfl
  · exact self_respond _ _ _ t

theorem listing_handle (c : Cycle) (service : Service) (position : Nat) (m : Message)
    (t : Turn Reporter) : (handle c service position m t).self.listing =
      ((asked? service position t.config m).map fun _ => opened c service).or t.self.listing := by
  unfold handle asked?
  rw [isNamedBy_eq]
  rcases m.byte? 3 with _ | index
  · split_ifs <;> rfl
  rcases m.byte? 4 with _ | code
  · split_ifs <;> rfl
  dsimp only
  by_cases hrequest : m.opcode? = some .rdgn ∧ m.names t.config = true
  · rw [if_pos hrequest]
    by_cases hall : (index.toNat = 0 ∨ index.toNat = position) ∧ code.toNat = 0 ∧
        service.diagnosticCount ≠ 0
    · rw [answer_eq c t hall, if_pos ⟨hrequest.1, hrequest.2, hall⟩]
      rfl
    · rw [self_answer c t hall, if_neg fun h => hall h.2.2]
      rfl
  · rw [if_neg hrequest, if_neg fun h => hrequest ⟨h.1, h.2.1⟩]
    rfl

theorem listing_prepare (c : Cycle) (service : Service) (position : Nat) (t : Turn Reporter) :
    (prepare c service position t).self.listing =
      ((c.received?.bind (asked? service position t.config)).map fun _ => opened c service).or
        t.self.listing := by
  unfold prepare
  rcases c.received? with _ | m
  · rfl
  · exact listing_handle c service position m t

/-- In a turn in which it is not answered with, nothing is sent with the opcode of the reports. -/
theorem sent_prepare (hnone : ∀ m, c.received? = some m → .dgn ∉ repliesTo t.config m) :
    (prepare c service position t).sent .dgn = t.sent .dgn := by
  refine (speaks_prepare c service position t).sent_eq fun hmem =>
    (List.mem_append.1 hmem).elim ?_ (by decide)
  rcases hm : c.received? with _ | m
  · exact List.not_mem_nil
  · exact hnone m hm

/-- A request for the long answer is not announced. -/
theorem sent_prepare_of_asked (hm : c.received? = some m)
    (hasked : asked? service position t.config m = some ()) :
    (prepare c service position t).sent .dgn = t.sent .dgn := by
  unfold asked? at hasked
  split at hasked
  · rename_i index code hindex hcode
    split_ifs at hasked with hall
    obtain ⟨ho, hnamed, hall⟩ := hall
    have hnamed : t.isNamedBy m = true := hnamed
    unfold prepare
    rw [hm, Option.elim_some, handle, if_pos ⟨ho, hnamed⟩, hindex, hcode]
    dsimp only
    rw [answer_eq c t hall]
    rfl
  · contradiction

/-! ## The reports -/

theorem reportsOn_addressed (position : Nat) (node : UInt16) (args : List UInt8)
    (h : (UInt8.ofNat position :: args).length ≤ 5) :
    (Action.transmit (.addressed Opcode.dgn.byte node (UInt8.ofNat position :: args) h)).reportsOn
      position := by
  have hopcode := Message.opcode?_addressed .dgn node (UInt8.ofNat position :: args) h
  exact Bool.and_eq_true_iff.2 ⟨beq_iff_eq.2 hopcode, beq_self_eq_true _⟩

theorem reportsOn_sendValue (code : Nat) (h : ∀ x ∈ t.sent .dgn, x.reportsOn position) :
    ∀ x ∈ (sendValue c service position code t).sent .dgn, x.reportsOn position := by
  intro x hx
  rw [sendValue, sent_reply_self] at hx
  rcases List.mem_append.1 hx with hx | hx
  · exact h x hx
  · rw [List.mem_singleton.1 hx]
    exact reportsOn_addressed _ _ _ _

theorem reportsOn_prepare (h : ∀ x ∈ t.sent .dgn, x.reportsOn position) :
    ∀ x ∈ (prepare c service position t).sent .dgn, x.reportsOn position := by
  unfold prepare
  rcases c.received? with _ | m
  · exact h
  · rw [Option.elim_some]
    unfold handle
    split_ifs
    · split
      · unfold answer
        split_ifs
        · exact h
        · exact h
        · exact h
        · exact reportsOn_sendValue _ h
        · exact h
        · have hrespond : Speaks [] t (t.respond .rdgn service.id .invalidDiagnostic) :=
            (Speaks.refl t).respond _ _ _
          rw [hrespond.sent_eq (by decide)]
          exact h
      · exact h
    · exact h

/-- A reporter reports on nothing but its service. -/
theorem reportsOn_turn (h : ∀ x ∈ t.sent .dgn, x.reportsOn position) :
    ∀ x ∈ (turn c service position t).sent .dgn, x.reportsOn position := by
  rw [turn_eq, pollListing]
  have hprepare : ∀ x ∈ (prepare c service position t).sent .dgn, x.reportsOn position :=
    reportsOn_prepare h
  split
  · exact hprepare
  · dsimp only
    split
    · exact hprepare
    · exact reportsOn_sendValue _ hprepare

/-- A value that there must be is reported. -/
theorem replies_sendValue {i : Nat} {message : Message}
    (h : item? c service position t.shared i = some message) :
    Replies (item? c service position t.shared) t.given (some i)
      (sendValue c service position i t).given := by
  obtain ⟨value, hvalue, -⟩ := Option.map_eq_some_iff.1 h
  have hsend : sendValue c service position i t =
      t.reply .dgn [UInt8.ofNat position, UInt8.ofNat i, Word.high value, Word.low value] := by
    simp only [sendValue, hvalue, Option.getD_some]
  rw [hsend]
  exact .of_eq (by rw [item?, hvalue]; rfl) (given_reply _ _ t _)

/-- What a poll of the long answer does. -/
theorem replies_pollListing {left : Option (Series Unit)} (hleft : t.self.listing = left)
    (hitem : ∀ s i, left = some s → (s.poll c.now c.timing.replyGap).1 = some i →
      ∃ m, item? c service position t.shared i = some m) :
    (pollListing c service position t).self.listing =
        (pollLeft c.now c.timing.replyGap left).2 ∧
      Replies (item? c service position t.shared) t.given
        (pollLeft c.now c.timing.replyGap left).1 (pollListing c service position t).given := by
  unfold pollListing
  rw [hleft]
  rcases left with _ | s
  · exact ⟨hleft, .silent⟩
  · dsimp only
    rw [pollLeft]
    rcases hnumber : (s.poll c.now c.timing.replyGap).1 with _ | i
    · exact ⟨rfl, .silent⟩
    · obtain ⟨message, hmessage⟩ := hitem s i rfl hnumber
      have hreplies := replies_sendValue
        (t := { t with self.listing := (s.poll c.now c.timing.replyGap).2 }) hmessage
      exact ⟨congrArg _ (self_reply _ _ _ _), hreplies⟩

end Reporter

end RailNode
