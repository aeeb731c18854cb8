import RailNode.Proofs.Checked.LongMessage.Reception
import RailNode.Service.LongMessage.Transmission

/-
  The sending side of the long message service over a buffer of fixed size. The payload stands at
  the start of the buffer and the machine cuts one fragment after another out of it; the messages
  that are still to be sent are those of the payload from the offset on (`Outbound.pending`). The
  offset is inside the payload as long as fragments are to follow (`Outbound.Sound`).
-/
namespace RailNode.Checked.LongMessage

open RailNode.LongMessage (SendError fragments maxLength)

/-- A transfer that is going out. -/
structure Outbound where
  stream : UInt8
  length : Nat
  offset : Nat := 0
  /-- The sequence number of the next fragment, if the header has been sent. -/
  sequence : Option UInt8 := none
  due : Option Time := none
deriving DecidableEq, Repr

structure Transmission where
  /-- The payload that is being sent stands at the start of the buffer. -/
  buffer : List UInt8
  delay : Time
  outbound : Option Outbound := none
deriving DecidableEq, Repr

/-! ## What is still to be sent -/

namespace Outbound

/-- The part of the payload that is still to be sent. -/
def rest (buffer : List UInt8) (o : Outbound) : List UInt8 :=
  (buffer.take o.length).drop o.offset

/-- The messages that are still to be sent. -/
def pending (buffer : List UInt8) (o : Outbound) : List Message :=
  match o.sequence with
  | none => RailNode.LongMessage.messages o.stream (buffer.take o.length)
  | some n => fragments o.stream n (o.rest buffer)

/-- The payload is in the buffer, and after the header there is always something left of it. -/
structure Sound (buffer : List UInt8) (o : Outbound) : Prop where
  length_le : o.length ≤ buffer.length
  length_le_max : o.length ≤ maxLength
  offset_eq : o.sequence = none → o.offset = 0
  offset_lt : ∀ n ∈ o.sequence, o.offset < o.length

variable {buffer : List UInt8} {o : Outbound}

theorem length_rest (h : o.length ≤ buffer.length) :
    (o.rest buffer).length = o.length - o.offset := by
  rw [rest, List.length_drop, List.length_take, Nat.min_eq_left h]

theorem rest_ne_nil (h : o.length ≤ buffer.length) (hlt : o.offset < o.length) :
    o.rest buffer ≠ [] := by
  intro hnil
  have hlen := length_rest h
  rw [hnil, List.length_nil] at hlen
  omega

end Outbound

/-! ## The messages -/

/-- The message with some bytes of the payload, put in the places of a frame that are 0. -/
def fragment (stream sequence : UInt8) (chunk : List UInt8) : Except Halt Message := do
  let stop ← add sizeLimit 3 chunk.length
  let frame ← overwrite 3 stop chunk [Opcode.dtxc.byte, stream, sequence, 0, 0, 0, 0, 0]
  trust (Message.ofBytes? frame)

/-- The first message of what is left of a payload brings up to five bytes of it. -/
theorem fragment_eq (stream sequence : UInt8) {rest : List UInt8} (h : rest ≠ []) :
    ∃ m, fragment stream sequence (rest.take 5) = .ok m ∧
      fragments stream sequence rest =
        m :: fragments stream (RailNode.LongMessage.nextSequence sequence) (rest.drop 5) := by
  match rest, h with
  | [_], _ => exact ⟨_, rfl, rfl⟩
  | [_, _], _ => exact ⟨_, rfl, rfl⟩
  | [_, _, _], _ => exact ⟨_, rfl, rfl⟩
  | [_, _, _, _], _ => exact ⟨_, rfl, rfl⟩
  | _ :: _ :: _ :: _ :: _ :: _, _ => exact ⟨_, rfl, rfl⟩

theorem Outbound.pending_ne_nil {buffer : List UInt8} {o : Outbound} (h : o.Sound buffer) :
    o.pending buffer ≠ [] := by
  unfold Outbound.pending
  rcases hsequence : o.sequence with _ | n
  · exact List.cons_ne_nil _ _
  · obtain ⟨m, _, hcons⟩ := fragment_eq o.stream n
      (Outbound.rest_ne_nil h.length_le (h.offset_lt n hsequence))
    dsimp only
    rw [hcons]
    exact List.cons_ne_nil _ _

namespace Transmission

/-- The next message of a transfer, what is left of the transfer, and whether it is finished. -/
def next (buffer : List UInt8) (o : Outbound) : Except Halt (Message × Outbound × Bool) :=
  match o.sequence with
  | none => do
    let n := UInt16.ofNat o.length
    let m ← Message.ofOpcode .dtxc [o.stream, 0, Word.high n, Word.low n, 0, 0, 0]
    return (m, { o with sequence := some 1 }, o.length = 0)
  | some n => do
    let reach ← add sizeLimit o.offset 5
    let stop := min reach o.length
    let chunk ← slice o.offset stop buffer
    let m ← fragment o.stream n chunk
    let sequence ← nextSequence n
    return (m, { o with offset := stop, sequence := some sequence }, o.length ≤ stop)

def poll (now : Time) (s : Transmission) : Except Halt (Option Message × Transmission) :=
  match s.outbound with
  | none => return (none, s)
  | some o =>
    if o.due.any (now < ·) then return (none, s)
    else do
      let (m, o, finished) ← next s.buffer o
      let o := { o with due := some (Time.deadline now s.delay) }
      return (some m, { s with outbound := if finished then none else some o })

def send (stream : UInt8) (payload : List UInt8) (s : Transmission) :
    Except Halt (Except SendError Transmission) :=
  if s.outbound.isSome then return .error .busy
  else if s.buffer.length < payload.length ∨ maxLength < payload.length then
    return .error .tooLong
  else do
    let buffer ← overwrite 0 payload.length payload s.buffer
    return .ok { s with buffer, outbound := some { stream, length := payload.length } }

/-- The sending side does with its buffer what `s` does with the messages themselves. -/
structure Represents (b : Transmission) (s : RailNode.LongMessage.Transmission) : Prop where
  capacity : s.capacity = b.buffer.length
  delay : s.delay = b.delay
  pending : s.pending = b.outbound.elim [] (Outbound.pending b.buffer)
  due : ∀ o ∈ b.outbound, s.due = o.due
  sound : ∀ o ∈ b.outbound, o.Sound b.buffer

variable {b : Transmission} {s : RailNode.LongMessage.Transmission} {now : Time}

/-- A step sends the first of the messages that are still to be sent; the transfer is finished when
    that was the last. -/
def Sends (buffer : List UInt8) (o : Outbound) (step : Except Halt (Message × Outbound × Bool)) :
    Prop :=
  ∃ m o' finished, step = .ok (m, o', finished) ∧
    if finished then o.pending buffer = [m]
    else o.pending buffer = m :: o'.pending buffer ∧ o'.Sound buffer

variable {buffer : List UInt8} {o : Outbound}

theorem sends_header (h : o.Sound buffer) (hsequence : o.sequence = none) :
    Sends buffer o (next buffer o) := by
  have hlen : (buffer.take o.length).length = o.length := by
    rw [List.length_take, Nat.min_eq_left h.length_le]
  refine ⟨RailNode.LongMessage.header o.stream o.length, { o with sequence := some 1 },
    o.length = 0, ?_, ?_⟩
  · rw [next, hsequence]
    exact congrArg (· >>= _) (Message.ofOpcode_eq .dtxc (by simp))
  have hpending : o.pending buffer = RailNode.LongMessage.header o.stream o.length ::
      fragments o.stream 1 (buffer.take o.length) := by
    rw [Outbound.pending, hsequence]
    dsimp only
    rw [RailNode.LongMessage.messages, hlen]
  rw [hpending]
  by_cases hzero : o.length = 0
  · rw [if_pos (decide_eq_true hzero), hzero, List.take_zero]
    rfl
  · rw [if_neg (by simpa using hzero)]
    refine ⟨?_, h.length_le, h.length_le_max, nofun, fun _ _ => ?_⟩
    · simp only [Outbound.pending, Outbound.rest, h.offset_eq hsequence, List.drop_zero]
    · have hoffset := h.offset_eq hsequence
      show o.offset < o.length
      omega

theorem sends_fragment {n : UInt8} (h : o.Sound buffer) (hsequence : o.sequence = some n) :
    Sends buffer o (next buffer o) := by
  have hlength := h.length_le
  have hmax : o.length ≤ 65535 := h.length_le_max
  have hlt := h.offset_lt n hsequence
  obtain ⟨m, hm, hcons⟩ := fragment_eq o.stream n (Outbound.rest_ne_nil hlength hlt)
  have hchunk : slice o.offset (min (o.offset + 5) o.length) buffer =
      .ok ((o.rest buffer).take 5) := by
    rw [slice_eq (by omega) (by omega), Outbound.rest, List.take_drop, List.take_take]
  refine ⟨m, { o with
    offset := min (o.offset + 5) o.length
    sequence := some (RailNode.LongMessage.nextSequence n) },
    o.length ≤ min (o.offset + 5) o.length, ?_, ?_⟩
  · rw [next, hsequence]
    dsimp only
    rw [add_eq (by unfold sizeLimit; omega), ok_bind, hchunk, ok_bind, hm, ok_bind, nextSequence_eq]
    rfl
  have hpending : o.pending buffer =
      m :: fragments o.stream (RailNode.LongMessage.nextSequence n) ((o.rest buffer).drop 5) := by
    rw [Outbound.pending, hsequence]
    exact hcons
  rw [hpending]
  by_cases hlast : o.length ≤ min (o.offset + 5) o.length
  · have hnil : (o.rest buffer).drop 5 = [] := by
      refine List.drop_eq_nil_of_le ?_
      rw [Outbound.length_rest hlength]
      omega
    rw [if_pos (decide_eq_true hlast), hnil]
    rfl
  · have hoffset : min (o.offset + 5) o.length = o.offset + 5 := by omega
    rw [if_neg (by simpa using hlast)]
    refine ⟨?_, h.length_le, h.length_le_max, nofun, fun _ _ => ?_⟩
    · simp only [Outbound.pending, Outbound.rest, hoffset, List.drop_drop]
    · exact Nat.not_le.1 hlast

theorem sends_next (h : o.Sound buffer) : Sends buffer o (next buffer o) := by
  rcases hsequence : o.sequence with _ | n
  · exact sends_header h hsequence
  · exact sends_fragment h hsequence

/-- A poll over the buffer sends what is the next message. -/
theorem poll_eq (now : Time) (h : b.Represents s) :
    ∃ b', b.poll now = .ok ((s.poll now).1, b') ∧ b'.Represents (s.poll now).2 := by
  unfold poll RailNode.LongMessage.Transmission.poll
  rw [h.pending]
  rcases ho : b.outbound with _ | o
  · exact ⟨b, rfl, h⟩
  obtain ⟨m, o', finished, hnext, hsends⟩ := sends_next (h.sound o ho)
  dsimp only [Option.elim_some]
  rw [hnext, h.due o ho, h.delay]
  cases finished with
  | true =>
    rw [if_pos rfl] at hsends
    rw [hsends]
    dsimp only
    split_ifs
    · exact ⟨b, rfl, h⟩
    · exact ⟨{ b with outbound := none }, rfl, h.capacity, rfl, rfl, nofun, nofun⟩
  | false =>
    rw [if_neg Bool.false_ne_true] at hsends
    obtain ⟨hpending, hsound⟩ := hsends
    rw [hpending]
    dsimp only
    split_ifs
    · exact ⟨b, rfl, h⟩
    · refine ⟨{ b with outbound := some { o' with due := some (Time.deadline now b.delay) } },
        rfl, h.capacity, rfl, rfl, ?_, ?_⟩
      · rintro _ ⟨⟩
        rfl
      · rintro _ ⟨⟩
        exact ⟨hsound.length_le, hsound.length_le_max, hsound.offset_eq, hsound.offset_lt⟩

theorem isSending_eq (h : b.Represents s) : s.isSending = b.outbound.isSome := by
  rw [RailNode.LongMessage.Transmission.isSending, h.pending]
  rcases ho : b.outbound with _ | o
  · rfl
  · have hne := Outbound.pending_ne_nil (h.sound o ho)
    rw [Option.elim_some, Option.isSome_some, Bool.not_eq_true', List.isEmpty_eq_false_iff]
    exact hne

theorem send_eq (stream : UInt8) (payload : List UInt8) (h : b.Represents s) :
    (∃ e, b.send stream payload = .ok (.error e) ∧ s.send stream payload = .error e) ∨
      ∃ b' s', b.send stream payload = .ok (.ok b') ∧ s.send stream payload = .ok s' ∧
        b'.Represents s' := by
  unfold send RailNode.LongMessage.Transmission.send
  rw [isSending_eq h, h.capacity]
  split_ifs with hbusy hlong
  · exact .inl ⟨_, rfl, rfl⟩
  · exact .inl ⟨_, rfl, rfl⟩
  · rw [not_or, Nat.not_lt, Nat.not_lt] at hlong
    have hbuffer : overwrite 0 payload.length payload b.buffer =
        .ok (payload ++ b.buffer.drop payload.length) := by
      rw [overwrite_eq (Nat.zero_le _) hlong.1 rfl, List.take_zero, List.nil_append]
    have hlength : (payload ++ b.buffer.drop payload.length).length = b.buffer.length := by
      rw [List.length_append, List.length_drop]
      omega
    rw [hbuffer]
    refine .inr ⟨_, _, rfl, rfl, ?_, h.delay, ?_, ?_, ?_⟩
    · exact hlength.symm
    · show RailNode.LongMessage.messages stream payload = RailNode.LongMessage.messages stream
        ((payload ++ b.buffer.drop payload.length).take payload.length)
      rw [List.take_left']
      rfl
    · rintro o ⟨⟩
      rfl
    · rintro o ⟨⟩
      exact ⟨by rw [hlength]; exact hlong.1, hlong.2, fun _ => rfl, nofun⟩

end Transmission

end RailNode.Checked.LongMessage
