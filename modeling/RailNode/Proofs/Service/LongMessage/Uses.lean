import RailNode.Proofs.Checked.LongMessage
import RailNode.Proofs.Service.LongMessage.Visits

/-
  What is done with a long message service between its start and its end: the node visits it, and
  the application asks of it what it likes between the visits. A log keeps what was queued in which
  visit. The same uses are then made over the buffers of the service: the log is the same
  (`performed_eq`), a payload that is not accepted changes nothing, and only one that is accepted
  changes what the buffer of the sending side holds (`buffer_performed`).
-/
namespace RailNode

namespace LongMessage

/-- What is done with a service: the node visits it, or the application asks something of it. -/
inductive Use where
  | visit (v : Visit)
  | send (stream : UInt8) (payload : List UInt8)
  | subscribe (stream : UInt8)
  | takeReceipt

/-- What a visit has come to: when it was, and the actions that were queued in it. -/
abbrev Entry := Time × List Action

/-- The service after a use. What it refuses leaves it as it is. -/
def perform (s : LongMessage) : Use → LongMessage
  | .visit v => (s.visit v).self
  | .send stream payload => (s.send stream payload).toOption.getD s
  | .subscribe stream => (s.subscribe? stream).getD s
  | .takeReceipt => (s.takeReceipt?.map Prod.snd).getD s

/-- What a use leaves in the log: an entry if it is a visit. -/
def entries (s : LongMessage) : Use → List Entry
  | .visit v => [(v.cycle.now, (s.visit v).given)]
  | _ => []

/-- The service after several uses. -/
def performed (s : LongMessage) (uses : List Use) : LongMessage := uses.foldl perform s

/-- The visits among several uses, in order. -/
def log (s : LongMessage) : List Use → List Entry
  | [] => []
  | u :: uses => s.entries u ++ (s.perform u).log uses

@[simp]
theorem performed_cons (s : LongMessage) (u : Use) (uses : List Use) :
    s.performed (u :: uses) = (s.perform u).performed uses := rfl

/-- The use is a payload that the service does not accept. -/
def refuses (s : LongMessage) : Use → Bool
  | .send stream payload => (s.send stream payload).toOption.isNone
  | _ => false

/-- The use is a payload that the service accepts. -/
def accepts (s : LongMessage) : Use → Bool
  | .send stream payload => (s.send stream payload).toOption.isSome
  | _ => false

/-- None of the payloads among these uses is accepted. -/
def AcceptsNone (s : LongMessage) : List Use → Prop
  | [] => True
  | u :: uses => s.accepts u = false ∧ (s.perform u).AcceptsNone uses

/-- The uses without the payloads that are not accepted. -/
def withoutRefused (s : LongMessage) : List Use → List Use
  | [] => []
  | u :: uses => (if s.refuses u then [] else [u]) ++ (s.perform u).withoutRefused uses

variable {s s' : LongMessage} {u : Use} {stream : UInt8} {payload : List UInt8}

theorem exists_send_of_refuses (h : s.refuses u) :
    ∃ stream payload, u = .send stream payload ∧ (s.send stream payload).toOption = none := by
  cases u with
  | send stream payload => exact ⟨stream, payload, rfl, Option.isNone_iff_eq_none.1 h⟩
  | _ => contradiction

theorem refuses_send_of_accepts (h : s.accepts (.send stream payload) = false) :
    s.refuses (.send stream payload) :=
  Option.isSome_eq_false_iff.1 h

theorem perform_of_refuses (h : s.refuses u) : s.perform u = s := by
  obtain ⟨stream, payload, rfl, hnone⟩ := exists_send_of_refuses h
  rw [perform, hnone]
  rfl

theorem entries_of_refuses (h : s.refuses u) : s.entries u = [] := by
  obtain ⟨stream, payload, rfl, _⟩ := exists_send_of_refuses h
  rfl

/-- Payloads that are not accepted change nothing in a run, however many transfers there are. -/
theorem performed_withoutRefused (s : LongMessage) (uses : List Use) :
    s.performed (s.withoutRefused uses) = s.performed uses ∧
      s.log (s.withoutRefused uses) = s.log uses := by
  induction uses generalizing s with
  | nil => exact ⟨rfl, rfl⟩
  | cons u uses ih =>
    obtain ⟨hperformed, hlog⟩ := ih (s.perform u)
    rw [withoutRefused]
    by_cases h : s.refuses u
    · rw [if_pos h, List.nil_append]
      rw [perform_of_refuses h] at hperformed hlog ⊢
      refine ⟨hperformed.trans ?_, hlog.trans ?_⟩
      · rw [performed_cons, perform_of_refuses h]
      · rw [log, entries_of_refuses h, perform_of_refuses h, List.nil_append]
    · rw [if_neg h]
      exact ⟨hperformed, congrArg (s.entries u ++ ·) hlog⟩

end LongMessage

/-! ## Uses over the buffers -/

namespace Checked.LongMessage

open RailNode.LongMessage (Use Entry)

/-- A use of the service: what it leaves in the log, and the service after it. -/
def perform (b : LongMessage) : Use → Except Halt (List Entry × LongMessage)
  | .visit v => do
    let t ← turn v.cycle { self := b, shared := v.shared }
    return ([(v.cycle.now, t.given)], t.self)
  | .send stream payload => do
    let sent ← b.send stream payload
    return ([], sent.toOption.getD b)
  | .subscribe stream => return ([], (b.subscribe? stream).getD b)
  | .takeReceipt => return ([], (b.takeReceipt?.map Prod.snd).getD b)

/-- The log of several uses, and the service after them. -/
def performed (b : LongMessage) : List Use → Except Halt (List Entry × LongMessage)
  | [] => return ([], b)
  | u :: uses => do
    let (entries, b) ← b.perform u
    let (later, b) ← b.performed uses
    return (entries ++ later, b)

variable {b b' : LongMessage} {s s' : RailNode.LongMessage} {u : Use} {stream : UInt8}
  {payload : List UInt8} {entries : List Entry}

theorem performed_cons_of_perform {uses : List Use} (h : b.perform u = .ok (entries, b')) :
    b.performed (u :: uses) = (b'.performed uses).map fun r => (entries ++ r.1, r.2) := by
  rw [performed, h]
  rfl

theorem perform_eq (h : b.Represents s) (u : Use) :
    ∃ b', b.perform u = .ok (s.entries u, b') ∧ b'.Represents (s.perform u) := by
  cases u with
  | visit v =>
    obtain ⟨b', hturn, hrepresents⟩ := turn_eq v.cycle (t := ⟨b, v.shared, {}⟩) h
    refine ⟨b', ?_, hrepresents⟩
    rw [perform, hturn]
    rfl
  | send stream payload =>
    obtain ⟨sent, hsent, hrel⟩ := send_rel stream payload h
    refine ⟨sent.toOption.getD b, ?_, rel_getD hrel h⟩
    rw [perform, hsent]
    rfl
  | subscribe stream => exact ⟨_, rfl, rel_getD (subscribe?_rel stream h) h⟩
  | takeReceipt =>
    refine ⟨(b.takeReceipt?.map Prod.snd).getD b, rfl, ?_⟩
    have hrel := takeReceipt?_rel h
    rw [RailNode.LongMessage.perform]
    generalize b.takeReceipt? = x, s.takeReceipt? = y at hrel ⊢
    cases hrel with
    | none => exact h
    | some hpair => exact hpair.2

/-- The uses over the buffers leave the same log as without them. -/
theorem performed_eq (h : b.Represents s) (uses : List Use) :
    ∃ b', b.performed uses = .ok (s.log uses, b') ∧ b'.Represents (s.performed uses) := by
  induction uses generalizing b s with
  | nil => exact ⟨b, rfl, h⟩
  | cons u uses ih =>
    obtain ⟨b₁, hperform, h₁⟩ := perform_eq h u
    obtain ⟨b₂, hperformed, h₂⟩ := ih h₁
    exact ⟨b₂, by rw [performed_cons_of_perform hperform, hperformed]; rfl, h₂⟩

/-! ## Payloads over the buffers -/

theorem send_of_error {e : RailNode.LongMessage.SendError} (h : b.Represents s)
    (hs : s.send stream payload = .error e) : b.send stream payload = .ok (.error e) := by
  unfold RailNode.LongMessage.send at hs
  unfold send
  rcases Transmission.send_eq stream payload h.transmission with
    ⟨e', hb, he'⟩ | ⟨b', s', hb, hs', _⟩
  · rw [he'] at hs
    rw [hb, ← Except.error.inj hs]
    rfl
  · rw [hs'] at hs
    contradiction

/-- An accepted payload stands at the start of the buffer; what was behind it stays. -/
theorem buffer_send {t t' : Transmission} (h : t.send stream payload = .ok (.ok t')) :
    t'.buffer = payload ++ t.buffer.drop payload.length := by
  unfold Transmission.send at h
  split_ifs at h
  · exact nomatch Except.ok.inj h
  · exact nomatch Except.ok.inj h
  · obtain ⟨buffer, hbuffer, hok⟩ := bind_eq_ok_iff.1 h
    obtain ⟨_, _, hoverwrite⟩ := bind_eq_ok_iff.1 hbuffer
    rw [← Except.ok.inj (Except.ok.inj hok), ← Except.ok.inj hoverwrite, List.take_zero,
      List.nil_append]

theorem send_of_ok (h : b.Represents s) (hs : s.send stream payload = .ok s') :
    ∃ b', b.send stream payload = .ok (.ok b') ∧ b'.Represents s' ∧
      b'.transmission.buffer = payload ++ b.transmission.buffer.drop payload.length := by
  obtain ⟨t, ht, rfl⟩ := map_eq_ok_iff.1 hs
  rcases Transmission.send_eq stream payload h.transmission with
    ⟨e, _, he⟩ | ⟨sent, t', hsent, ht', hrepresents⟩
  · rw [he] at ht
    contradiction
  · obtain rfl : t' = t := Except.ok.inj (ht'.symm.trans ht)
    refine ⟨{ b with transmission := sent }, ?_, ⟨h.reception, h.sound, hrepresents⟩,
      buffer_send hsent⟩
    rw [send, hsent]
    rfl

theorem perform_of_refuses (h : b.Represents s) (hu : s.refuses u) : b.perform u = .ok ([], b) := by
  obtain ⟨stream, payload, rfl, hnone⟩ := RailNode.LongMessage.exists_send_of_refuses hu
  rcases hs : s.send stream payload with e | s'
  · rw [perform, send_of_error h hs]
    rfl
  · rw [hs] at hnone
    contradiction

/-- Payloads that are not accepted change nothing over the buffers either. -/
theorem performed_withoutRefused (h : b.Represents s) (uses : List Use) :
    b.performed (s.withoutRefused uses) = b.performed uses := by
  induction uses generalizing b s with
  | nil => rfl
  | cons u uses ih =>
    rw [RailNode.LongMessage.withoutRefused]
    obtain ⟨b', hperform, h'⟩ := perform_eq h u
    by_cases hu : s.refuses u
    · have hsame : b.perform u = .ok ([], b) := perform_of_refuses h hu
      rw [if_pos hu, List.nil_append, RailNode.LongMessage.perform_of_refuses hu, ih h,
        performed_cons_of_perform hsame]
      rcases b.performed uses with e | r <;> rfl
    · rw [if_neg hu, List.singleton_append, performed_cons_of_perform hperform, ih h',
        performed_cons_of_perform hperform]

/-! ## The buffer of the sending side -/

theorem buffer_poll {now : Time} {t t' : Transmission} {m : Option Message}
    (h : t.poll now = .ok (m, t')) : t'.buffer = t.buffer := by
  unfold Transmission.poll at h
  split at h
  · exact congrArg (fun r => r.2.buffer) (Except.ok.inj h).symm
  · split_ifs at h
    · exact congrArg (fun r => r.2.buffer) (Except.ok.inj h).symm
    · obtain ⟨_, _, hok⟩ := bind_eq_ok_iff.1 h
      exact congrArg (fun r => r.2.buffer) (Except.ok.inj hok).symm

theorem buffer_turn {c : Cycle} {t t' : Turn LongMessage} (h : turn c t = .ok t') :
    t'.self.transmission.buffer = t.self.transmission.buffer := by
  obtain ⟨_, _, h⟩ := bind_eq_ok_iff.1 h
  obtain ⟨_, _, h⟩ := bind_eq_ok_iff.1 h
  obtain ⟨⟨m, transmission⟩, hpoll, h⟩ := bind_eq_ok_iff.1 h
  rw [← buffer_poll hpoll]
  cases m with
  | none => rw [← Except.ok.inj h]
  | some m => rw [← Except.ok.inj ((Turn.send_eq m _).symm.trans h), Turn.self_send]

/-- Only an accepted payload changes what the buffer holds. -/
theorem buffer_perform (h : b.Represents s)
    (haccepts : s.accepts u = false)
    (hperform : b.perform u = .ok (entries, b')) :
    b'.transmission.buffer = b.transmission.buffer := by
  cases u with
  | visit v =>
    obtain ⟨t, hturn, hok⟩ := bind_eq_ok_iff.1 hperform
    rw [← (Prod.mk.inj (Except.ok.inj hok)).2]
    exact buffer_turn hturn
  | send stream payload =>
    rw [perform_of_refuses h (RailNode.LongMessage.refuses_send_of_accepts haccepts)] at hperform
    rw [(Prod.mk.inj (Except.ok.inj hperform)).2]
  | subscribe stream =>
    rw [← (Prod.mk.inj (Except.ok.inj hperform)).2]
    simp only [subscribe?]
    rcases b.reception.subscribe? stream with _ | reception <;> rfl
  | takeReceipt =>
    rw [← (Prod.mk.inj (Except.ok.inj hperform)).2]
    simp only [takeReceipt?]
    rcases b.reception.receipts.pop? with _ | ⟨receipt, receipts⟩ <;> rfl

theorem buffer_performed (h : b.Represents s) {uses : List Use} (haccepts : s.AcceptsNone uses)
    (hperformed : b.performed uses = .ok (entries, b')) :
    b'.transmission.buffer = b.transmission.buffer := by
  induction uses generalizing b s entries with
  | nil => rw [(Prod.mk.inj (Except.ok.inj hperformed)).2]
  | cons u uses ih =>
    obtain ⟨b₁, hperform, h₁⟩ := perform_eq h u
    rw [performed_cons_of_perform hperform] at hperformed
    obtain ⟨⟨later, b₂⟩, hlater, hpair⟩ := map_eq_ok_iff.1 hperformed
    obtain rfl : b₂ = b' := (Prod.mk.inj hpair).2
    exact (ih h₁ haccepts.2 hlater).trans (buffer_perform h haccepts.1 hperform)

end Checked.LongMessage

end RailNode
