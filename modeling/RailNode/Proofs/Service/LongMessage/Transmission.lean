import RailNode.Proofs.Pacing
import RailNode.Proofs.Service.LongMessage.RoundTrip
import RailNode.Proofs.Service.LongMessage.Uses

/-
  A transfer that goes out, while the node visits the service at any times and the application asks
  of it what it likes between the visits. The messages that have left are numbered from 1, and the
  calls that gave them keep the pace of a series; what waits is the list without the messages that
  have left, and the next of them is due when the delay after each of these is over (`Progress`).
  A poll keeps this (`Progress.poll`), and so does every use of the service that does not start
  another transfer (`Progress.log_eq`).

  The same runs are then made over the buffer of the service: they queue the same, and the payload
  stays where it was put.
-/
namespace RailNode.LongMessage

variable {s s' : LongMessage} {u : Use} {stream : UInt8} {payload : List UInt8}

/-! ## What is accepted -/

theorem send_of_isSending (h : s.transmission.isSending) :
    s.send stream payload = .error .busy := by
  unfold send Transmission.send
  rw [if_pos h]
  rfl

theorem send_of_long (h : ¬ s.transmission.isSending)
    (hlong : s.transmission.capacity < payload.length ∨ maxLength < payload.length) :
    s.send stream payload = .error .tooLong := by
  unfold send Transmission.send
  rw [if_neg h, if_pos hlong]
  rfl

/-- A payload that is accepted is all that is to be sent, and its header may leave at once. -/
theorem transmission_of_send (h : s.send stream payload = .ok s') :
    payload.length ≤ s.transmission.capacity ∧ payload.length ≤ maxLength ∧
      s'.transmission =
        { s.transmission with pending := messages stream payload, due := none } := by
  obtain ⟨t, ht, rfl⟩ := map_eq_ok_iff.1 h
  unfold Transmission.send at ht
  split_ifs at ht with hbusy hlong
  rw [not_or, Nat.not_lt, Nat.not_lt] at hlong
  exact ⟨hlong.1, hlong.2, (Except.ok.inj ht).symm⟩

/-- Only an accepted payload and a visit change the sending side. -/
theorem transmission_perform_of_ask (hvisit : ∀ v, u ≠ .visit v)
    (haccepts : s.accepts u = false) :
    (s.perform u).transmission = s.transmission := by
  cases u with
  | visit v => exact absurd rfl (hvisit v)
  | send stream payload => rw [perform_of_refuses (refuses_send_of_accepts haccepts)]
  | subscribe stream =>
    simp only [perform, subscribe?]
    rcases s.reception.subscribe? stream with _ | reception <;> rfl
  | takeReceipt =>
    simp only [perform, takeReceipt?]
    rcases s.reception.takeReceipt? with _ | ⟨receipt, reception⟩ <;> rfl

/-! ## The progress of a transfer -/

/-- What a call leaves in the log, if its number is that of the message that it gave. -/
def entry (ms : List Message) (x : Series.Call) : Entry :=
  (x.now, (x.number.bind fun k => ms[k - 1]?).toList.map .transmit)

open Series (Call given Paced)

/-- How the transfer of these messages stands after these calls. -/
structure Progress (delay : Time) (ms : List Message) (calls : List Call) (t : Transmission) :
    Prop where
  paced : Paced delay ms.length calls
  delay_eq : t.delay = delay
  pending : t.pending = ms.drop (given calls).length
  /-- The next message may leave when the delay after each that has left is over. -/
  due : ∀ now, t.due.any (now < ·) = false ↔
    ∀ x ∈ calls, x.number.isSome → x.now + delay ≤ now

namespace Progress

variable {delay now : Time} {ms : List Message} {calls : List Call} {t : Transmission}

/-- A call that gives nothing keeps the progress if nothing was due. -/
theorem concat_none (h : Progress delay ms calls t)
    (hnone : (∀ x ∈ calls, x.number.isSome → x.now + delay ≤ now) →
      ms.length ≤ (given calls).length) :
    Progress delay ms (calls ++ [⟨now, none⟩]) t where
  paced := h.paced.concat_none hnone
  delay_eq := h.delay_eq
  pending := by
    rw [Series.given_append, h.pending]
    simp [given]
  due := fun t' => by
    refine (h.due t').trans ⟨fun hall x hx hgiven => ?_, fun hall x hx => ?_⟩
    · rcases List.mem_append.1 hx with hx | hx
      · exact hall x hx hgiven
      · rw [List.mem_singleton.1 hx] at hgiven
        contradiction
    · exact hall x (List.mem_append_left _ hx)

/-- A call that gives the next message keeps the progress if that was due. -/
theorem concat_some (h : Progress delay ms calls t) (hlast : now + delay ≤ Time.last)
    (hmore : (given calls).length < ms.length)
    (hgap : ∀ x ∈ calls, x.number.isSome → x.now + delay ≤ now) :
    Progress delay ms (calls ++ [⟨now, some ((given calls).length + 1)⟩])
      { t with
        pending := ms.drop ((given calls).length + 1)
        due := some (Time.deadline now t.delay) } where
  paced := h.paced.concat_some hmore hgap
  delay_eq := h.delay_eq
  pending := by
    rw [Series.given_append, List.length_append]
    rfl
  due := fun t' => by
    rw [h.delay_eq, Time.deadline_eq hlast, Option.any_some, decide_eq_false_iff_not, Nat.not_lt]
    constructor
    · intro hle x hx hgiven
      rcases List.mem_append.1 hx with hx | hx
      · exact Nat.le_trans (hgap x hx hgiven) (Nat.le_trans (Nat.le_add_right now delay) hle)
      · rw [List.mem_singleton.1 hx]
        exact hle
    · intro hall
      exact hall ⟨now, _⟩ (List.mem_append_right _ List.mem_cons_self) rfl

/-- A poll gives the next message if there is one and it is due, and nothing otherwise. -/
theorem poll (h : Progress delay ms calls t) (hlast : now + delay ≤ Time.last) :
    ∃ number, (number.bind fun k => ms[k - 1]?) = (t.poll now).1 ∧
      Progress delay ms (calls ++ [⟨now, number⟩]) (t.poll now).2 := by
  have hpending := h.pending
  unfold Transmission.poll
  rcases hleft : t.pending with _ | ⟨m, rest⟩
  · have hall : ms.length ≤ (given calls).length := List.drop_eq_nil_iff.1 (hpending ▸ hleft)
    exact ⟨none, rfl, h.concat_none fun _ => hall⟩
  · rw [hleft] at hpending
    have hmore : (given calls).length < ms.length := by
      by_contra hle
      rw [List.drop_eq_nil_of_le (Nat.not_lt.1 hle)] at hpending
      contradiction
    rw [List.drop_eq_getElem_cons hmore, List.cons.injEq] at hpending
    obtain ⟨rfl, rfl⟩ := hpending
    dsimp only
    split_ifs with hwait
    · refine ⟨none, rfl, h.concat_none fun hgap => ?_⟩
      rw [(h.due now).2 hgap] at hwait
      contradiction
    · have hgap := (h.due now).1 (Bool.eq_false_iff.2 hwait)
      exact ⟨some ((given calls).length + 1), List.getElem?_eq_getElem hmore,
        h.concat_some hlast hmore hgap⟩

/-- A transfer that has just been accepted. -/
theorem of_send (hsend : s.send stream payload = .ok s') :
    Progress s.transmission.delay (messages stream payload) [] s'.transmission := by
  rw [(transmission_of_send hsend).2.2]
  exact
    { paced :=
        { ascending := ⟨0, Nat.zero_le _, rfl⟩
          apart := .nil
          prompt := fun before x after h => by simp at h }
      delay_eq := rfl
      pending := rfl
      due := fun _ => by simp }

/-- Uses that do not start another transfer carry this one on. By induction over the uses; only the
    visits make a call. -/
theorem log_eq (h : Progress delay ms calls s.transmission) {uses : List Use}
    (haccepts : s.AcceptsNone uses)
    (hlast : ∀ v, .visit v ∈ uses → v.cycle.now + delay ≤ Time.last) :
    ∃ later, s.log uses = later.map (entry ms) ∧
      Progress delay ms (calls ++ later) (s.performed uses).transmission := by
  induction uses generalizing s calls with
  | nil => exact ⟨[], rfl, by rwa [List.append_nil]⟩
  | cons u uses ih =>
    obtain ⟨hfirst, haccepts⟩ := haccepts
    have hlater := fun v hv => hlast v (List.mem_cons_of_mem u hv)
    by_cases hu : ∃ v, u = .visit v
    · obtain ⟨v, rfl⟩ := hu
      obtain ⟨number, hnumber, hpoll⟩ := h.poll (hlast v List.mem_cons_self)
      have hself : (s.perform (.visit v)).transmission = (s.transmission.poll v.cycle.now).2 := by
        rw [perform, self_visit]
      obtain ⟨later, hlog, hprogress⟩ := ih (hself ▸ hpoll) haccepts hlater
      refine ⟨⟨v.cycle.now, number⟩ :: later, ?_, ?_⟩
      · rw [log, entries, hlog, given_visit, ← hnumber]
        rfl
      · rwa [List.append_assoc] at hprogress
    · have hsame : (s.perform u).transmission = s.transmission :=
        transmission_perform_of_ask (fun v hv => hu ⟨v, hv⟩) hfirst
      obtain ⟨later, hlog, hprogress⟩ := ih (hsame ▸ h) haccepts hlater
      refine ⟨later, ?_, hprogress⟩
      have hnone : s.entries u = [] := by
        cases u with
        | visit v => exact absurd ⟨v, rfl⟩ hu
        | _ => rfl
      rw [log, hnone, hlog, List.nil_append]

theorem isSending_iff (h : Progress delay ms calls t) :
    t.isSending ↔ (given calls).length < ms.length := by
  rw [Transmission.isSending, h.pending, Bool.not_eq_true', List.isEmpty_eq_false_iff, ne_eq,
    List.drop_eq_nil_iff, Nat.not_le]

end Progress

/-! ## What has left -/

theorem flatMap_entry (ms : List Message) (calls : List Call) :
    (calls.map (entry ms)).flatMap Prod.snd =
      ((given calls).filterMap fun k => ms[k - 1]?).map .transmit := by
  induction calls with
  | nil => rfl
  | cons x calls ih =>
    rw [List.map_cons, List.flatMap_cons, ih]
    obtain ⟨now, _ | k⟩ := x
    · rfl
    · show (ms[k - 1]?).toList.map _ ++ _ = (List.filterMap _ (k :: given calls)).map _
      rw [List.filterMap_cons]
      rcases ms[k - 1]? with _ | m <;> rfl

theorem filterMap_range' (ms : List Message) (k : Nat) :
    ((List.range' 1 k).filterMap fun i => ms[i - 1]?) = ms.take k := by
  induction k with
  | zero => rfl
  | succ k ih =>
    rw [List.range'_concat, List.filterMap_append, ih, List.take_add_one, Nat.one_mul,
      Nat.add_comm 1]
    refine congrArg _ ?_
    rw [List.filterMap_cons, Nat.add_sub_cancel]
    rcases ms[k]? with _ | m <;> rfl

/-- Calls in the pace of a transfer have given the first of its messages. -/
theorem flatMap_entry_of_paced (ms : List Message) {n : Nat} {delay : Time} {calls : List Call}
    (h : Paced delay n calls) :
    (calls.map (entry ms)).flatMap Prod.snd =
      (ms.take (given calls).length).map .transmit := by
  rw [flatMap_entry, ← filterMap_range', ← h.given_eq]

/-! ## Transfers -/

/-- How messages leave in the visits of a log. -/
structure Leaves (delay : Time) (ms : List Message) (log : List Entry) (sending : Bool) :
    Prop where
  /-- A visit queues one message or none: each in its order, with the delay between them, and in
      the first visit after that delay. -/
  paced : ∃ calls, Paced delay ms.length calls ∧ log = calls.map (entry ms)
  /-- What was queued is the front of the messages, and more is to come until it is all of them. -/
  front : ∃ k ≤ ms.length, log.flatMap Prod.snd = (ms.take k).map .transmit ∧
    (sending ↔ k < ms.length)

theorem Progress.leaves {delay : Time} {ms : List Message} {calls : List Call} {t : Transmission}
    (h : Progress delay ms calls t) : Leaves delay ms (calls.map (entry ms)) t.isSending where
  paced := ⟨calls, h.paced, rfl⟩
  front := ⟨(given calls).length, h.paced.length_le, flatMap_entry_of_paced ms h.paced,
    h.isSending_iff⟩

/-- What a service over the buffers `b` does not accept, and that it is not changed by that. -/
structure Declines (b : Checked.LongMessage) (s : LongMessage) : Prop where
  busy : s.transmission.isSending → ∀ stream payload, s.send stream payload = .error .busy ∧
    b.send stream payload = .ok (.error .busy)
  tooLong : ¬ s.transmission.isSending → ∀ stream (payload : List UInt8),
    b.transmission.buffer.length < payload.length ∨ 65535 < payload.length →
      s.send stream payload = .error .tooLong ∧ b.send stream payload = .ok (.error .tooLong)
  unchanged : ∀ uses, s.performed (s.withoutRefused uses) = s.performed uses ∧
    s.log (s.withoutRefused uses) = s.log uses ∧
    b.performed (s.withoutRefused uses) = b.performed uses

variable {b : Checked.LongMessage}

theorem declines_of_represents (hb : b.Represents s) : Declines b s where
  busy := fun h _ _ =>
    ⟨send_of_isSending h, Checked.LongMessage.send_of_error hb (send_of_isSending h)⟩
  tooLong := fun h stream payload hlong => by
    rw [← hb.transmission.capacity] at hlong
    have hsend : s.send stream payload = .error .tooLong := send_of_long h hlong
    exact ⟨hsend, Checked.LongMessage.send_of_error hb hsend⟩
  unchanged := fun uses =>
    ⟨(performed_withoutRefused s uses).1, (performed_withoutRefused s uses).2,
      Checked.LongMessage.performed_withoutRefused hb uses⟩

/-- A service refuses a payload while another is being sent, and one that is too long, and that
    changes nothing in any run. The messages of a payload that it accepts leave one by one with the
    delay between them, whatever else is asked of it, until all have left; the payload stays where
    it was put in the buffer. -/
theorem leaves_of_represents (hb : b.Represents s) :
    Declines b s ∧ ∀ stream payload s', s.send stream payload = .ok s' →
      (messages stream payload).map Message.bytes = wire stream payload ∧
      ∃ b', b.send stream payload = .ok (.ok b') ∧ ∀ uses, s'.AcceptsNone uses →
        (∀ v, .visit v ∈ uses → v.cycle.now + s.transmission.delay ≤ Time.last) →
        Leaves s.transmission.delay (messages stream payload) (s'.log uses)
          (s'.performed uses).transmission.isSending ∧
        ∃ b'', b'.performed uses = .ok (s'.log uses, b'') ∧ b''.Represents (s'.performed uses) ∧
          b''.transmission.buffer = payload ++ b.transmission.buffer.drop payload.length := by
  refine ⟨declines_of_represents hb, fun stream payload s' hsend => ?_⟩
  refine ⟨bytes_messages stream (transmission_of_send hsend).2.1, ?_⟩
  obtain ⟨b', hsent, hb', hbuffer⟩ := Checked.LongMessage.send_of_ok hb hsend
  refine ⟨b', hsent, fun uses haccepts hlast => ⟨?_, ?_⟩⟩
  · obtain ⟨calls, hlog, hprogress⟩ := (Progress.of_send hsend).log_eq haccepts hlast
    rw [hlog]
    exact hprogress.leaves
  · obtain ⟨b'', hperformed, hb''⟩ := Checked.LongMessage.performed_eq hb' uses
    exact ⟨b'', hperformed, hb'',
      (Checked.LongMessage.buffer_performed hb' haccepts hperformed).trans hbuffer⟩

/-- Seven bytes leave in three messages. Two payloads are refused: one while they leave, and one
    that is too long after that. -/
def sampleUses : List Use :=
  [.visit (sampleVisit 0 none), .send 4 [9], .visit (sampleVisit 20000 none),
    .visit (sampleVisit 30000 none), .visit (sampleVisit 40000 none),
    .send 4 (List.replicate 17 9)]

theorem leaves_of_sampleUses :
    let b := Checked.LongMessage.ofBuffers .standard [] (List.replicate 16 255)
    ∃ b' b'' log, b.send 3 [1, 2, 3, 4, 5, 6, 7] = .ok (.ok b') ∧
      b'.performed sampleUses = .ok (log, b'') ∧
      Leaves 20000 (messages 3 [1, 2, 3, 4, 5, 6, 7]) log false ∧
      b''.transmission.buffer = [1, 2, 3, 4, 5, 6, 7] ++ List.replicate 9 255 := by
  have hb := Checked.LongMessage.represents_ofBuffers .standard [] (List.replicate 16 255)
  have hsend : (ofCapacities .standard 0 16).send 3 [1, 2, 3, 4, 5, 6, 7] = .ok sampleSending := by
    decide
  obtain ⟨_, b', hsent, huses⟩ := (leaves_of_represents hb).2 3 _ sampleSending hsend
  have haccepts : sampleSending.AcceptsNone sampleUses :=
    ⟨by decide, by decide, by decide, by decide, by decide, by decide, trivial⟩
  obtain ⟨hleaves, b'', hperformed, _, hbuffer⟩ := huses sampleUses haccepts (by
    intro v hv
    simp only [sampleUses, List.mem_cons, Use.visit.injEq, reduceCtorEq, List.not_mem_nil,
      false_or, or_false] at hv
    rcases hv with rfl | rfl | rfl | rfl <;> decide)
  exact ⟨b', b'', _, hsent, hperformed, hleaves, hbuffer⟩

end RailNode.LongMessage
