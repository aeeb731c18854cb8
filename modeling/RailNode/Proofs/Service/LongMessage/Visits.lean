import RailNode.Proofs.Service.Turn
import RailNode.Service.LongMessage

/-
  Turns of the long message service, one after the other. The two sides do not mix: what comes in
  is a matter of the cycles alone (`reception_after`), and what goes out is the pending messages in
  their order (`emitted_append_pending`). The second part says what each kind of message does to
  the receiving side, so that later proofs need not open `receive`.
-/
namespace RailNode.LongMessage

/-! ## Runs of turns -/

/-- A turn of the service: the facts of its cycle, and what is shared with the others then. -/
structure Visit where
  cycle : Cycle
  shared : Shared

/-- What the service does in a visit. -/
def visit (s : LongMessage) (v : Visit) : Turn LongMessage :=
  turn v.cycle { self := s, shared := v.shared }

/-- The service after several visits. -/
def after (s : LongMessage) (visits : List Visit) : LongMessage :=
  visits.foldl (fun s v => (s.visit v).self) s

/-- The actions that the service queues in several visits. -/
def emitted (s : LongMessage) : List Visit → List Action
  | [] => []
  | v :: visits => (s.visit v).given ++ emitted (s.visit v).self visits

@[simp]
theorem after_nil (s : LongMessage) : s.after [] = s := rfl

@[simp]
theorem after_cons (s : LongMessage) (v : Visit) (visits : List Visit) :
    s.after (v :: visits) = (s.visit v).self.after visits := rfl

/-- What a turn does to the receiving side. -/
def Reception.turn (c : Cycle) (r : Reception) : Reception := (react c r).pollTimeout c.now

theorem self_visit (s : LongMessage) (v : Visit) :
    (s.visit v).self = ⟨s.reception.turn v.cycle, (s.transmission.poll v.cycle.now).2⟩ := by
  unfold visit turn
  rcases s.transmission.poll v.cycle.now with ⟨_ | m, transmission⟩
  · rfl
  · exact Turn.self_send _ _

theorem given_visit (s : LongMessage) (v : Visit) :
    (s.visit v).given = (s.transmission.poll v.cycle.now).1.toList.map .transmit := by
  unfold visit turn
  rcases s.transmission.poll v.cycle.now with ⟨_ | m, transmission⟩
  · rfl
  · exact Turn.given_send _ _

/-- What comes in does not depend on what goes out. -/
theorem reception_after (s : LongMessage) (visits : List Visit) :
    (s.after visits).reception =
      (visits.map Visit.cycle).foldl (fun r c => r.turn c) s.reception := by
  induction visits generalizing s with
  | nil => rfl
  | cons v visits ih =>
    rw [after_cons, ih, self_visit]
    rfl

/-! ## The sending side -/

/-- A poll takes the message that leaves from the front of those that wait. -/
theorem Transmission.poll_pending (now : Time) (s : Transmission) :
    (s.poll now).1.toList ++ (s.poll now).2.pending = s.pending := by
  unfold poll
  rcases hp : s.pending with _ | ⟨m, rest⟩
  · exact hp
  · dsimp only
    split
    · exact hp
    · rfl

/-- The messages leave in their order, and none is lost or sent twice. -/
theorem emitted_append_pending (s : LongMessage) (visits : List Visit) :
    s.emitted visits ++ (s.after visits).transmission.pending.map .transmit =
      s.transmission.pending.map .transmit := by
  induction visits generalizing s with
  | nil => rfl
  | cons v visits ih =>
    rw [emitted, after_cons, List.append_assoc, ih, self_visit, given_visit, ← List.map_append,
      Transmission.poll_pending]

/-- Once the service has sent all, it has sent the messages of the payload, in order. -/
theorem emitted_eq_messages {s s' : LongMessage} {stream : UInt8} {payload : List UInt8}
    {visits : List Visit} (hsend : s.send stream payload = .ok s')
    (hsent : (s'.after visits).transmission.isSending = false) :
    s'.emitted visits = (messages stream payload).map .transmit := by
  have hpending : s'.transmission.pending = messages stream payload := by
    obtain ⟨t, ht, rfl⟩ := map_eq_ok_iff.1 hsend
    unfold Transmission.send at ht
    split at ht
    · contradiction
    · split at ht
      · contradiction
      · rw [← Except.ok.inj ht]
  have hnone : (s'.after visits).transmission.pending = [] := by
    simpa [Transmission.isSending] using hsent
  have h := emitted_append_pending s' visits
  rwa [hnone, List.map_nil, List.append_nil, hpending] at h

/-- A payload that is accepted can be announced. -/
theorem length_le_of_send {s s' : LongMessage} {stream : UInt8} {payload : List UInt8}
    (h : s.send stream payload = .ok s') : payload.length ≤ maxLength := by
  obtain ⟨t, ht, rfl⟩ := map_eq_ok_iff.1 h
  unfold Transmission.send at ht
  split at ht
  · contradiction
  · split at ht
    · contradiction
    · omega

/-! ## Messages on streams -/

/-- The message belongs to a long message on this stream. -/
def IsOn (stream : UInt8) (m : Message) : Prop :=
  m.opcode? = some .dtxc ∧ m.byte? 1 = some stream

instance (stream : UInt8) (m : Message) : Decidable (IsOn stream m) :=
  inferInstanceAs (Decidable (_ ∧ _))

/-- The message is a header on this stream that announces a payload of this length. -/
def Announces (stream : UInt8) (length : UInt16) (m : Message) : Prop :=
  IsOn stream m ∧ m.byte? 2 = some 0 ∧ m.word? 3 = some length

instance (stream : UInt8) (length : UInt16) (m : Message) :
    Decidable (Announces stream length m) :=
  inferInstanceAs (Decidable (_ ∧ _ ∧ _))

/-- The message is a header on this stream. -/
def IsHeader (stream : UInt8) (m : Message) : Prop :=
  IsOn stream m ∧ m.byte? 2 = some 0 ∧ 5 ≤ m.length

instance (stream : UInt8) (m : Message) : Decidable (IsHeader stream m) :=
  inferInstanceAs (Decidable (_ ∧ _ ∧ _))

/-- The message is a fragment on this stream, with this sequence number and these bytes. -/
def Continues (stream sequence : UInt8) (bytes : List UInt8) (m : Message) : Prop :=
  IsOn stream m ∧ m.byte? 2 = some sequence ∧ sequence ≠ 0 ∧ m.bytes.drop 3 = bytes

/-- The message is a fragment on this stream. -/
def IsFragment (stream : UInt8) (m : Message) : Prop :=
  IsOn stream m ∧ ∃ sequence ∈ m.byte? 2, sequence ≠ 0

instance (stream : UInt8) (m : Message) : Decidable (IsFragment stream m) :=
  inferInstanceAs (Decidable (_ ∧ ∃ _ ∈ m.byte? 2, _))

theorem Continues.isFragment {stream sequence : UInt8} {bytes : List UInt8} {m : Message}
    (h : Continues stream sequence bytes m) : IsFragment stream m :=
  ⟨h.1, sequence, h.2.1, h.2.2.1⟩

/-- A fragment is not a header, on no stream. -/
theorem IsFragment.not_isHeader {stream : UInt8} {m : Message} (h : IsFragment stream m)
    (s : UInt8) : ¬ IsHeader s m := by
  obtain ⟨_, sequence, hsequence, hne⟩ := h
  intro hheader
  have hzero : some sequence = some 0 := (Option.mem_def.1 hsequence).symm.trans hheader.2.1
  exact hne (Option.some.inj hzero)

theorem word?_three_eq_none_iff (m : Message) : m.word? 3 = none ↔ m.length < 5 := by
  have h3 : m.bytes[3]? = none ↔ m.bytes.length ≤ 3 := List.getElem?_eq_none_iff
  have h4 : m.bytes[4]? = none ↔ m.bytes.length ≤ 4 := List.getElem?_eq_none_iff
  unfold Message.word? Message.byte? Message.length
  rcases hb3 : m.bytes[3]? with _ | hi
  · have := h3.1 hb3
    simp only [Option.bind_eq_bind, Option.bind_none, true_iff]
    omega
  · rcases hb4 : m.bytes[4]? with _ | lo
    · have := h4.1 hb4
      simp only [Option.bind_eq_bind, Option.bind_some, Option.bind_none, true_iff]
      omega
    · have : ¬ m.bytes.length ≤ 4 := fun hle => by rw [h4.2 hle] at hb4; contradiction
      simp only [Option.bind_eq_bind, Option.bind_some]
      constructor
      · intro h
        contradiction
      · intro h
        omega

/-- The headers are the messages that announce a length. -/
theorem isHeader_iff {stream : UInt8} {m : Message} :
    IsHeader stream m ↔ ∃ length, Announces stream length m := by
  have hword := word?_three_eq_none_iff m
  constructor
  · rintro ⟨hon, hsequence, hlength⟩
    rcases hw : m.word? 3 with _ | length
    · exact absurd (hword.1 hw) (by omega)
    · exact ⟨length, hon, hsequence, hw⟩
  · rintro ⟨length, hon, hsequence, hw⟩
    refine ⟨hon, hsequence, ?_⟩
    rcases Nat.lt_or_ge m.length 5 with h | h
    · rw [hword.2 h] at hw
      contradiction
    · exact h

namespace Reception

variable {r : Reception} {now : Time} {m : Message} {stream : UInt8}

theorem receive_of_announces {length : UInt16} (hs : stream ∈ r.streams)
    (h : Announces stream length m) :
    r.receive now m = r.announce now stream length.toNat := by
  obtain ⟨⟨hopcode, hstream⟩, hsequence, hlength⟩ := h
  simp [receive, hopcode, hstream, hsequence, hlength, hs]

/-- A fragment counts for the transfer on its stream, if it is the next one. -/
theorem receive_of_continues {sequence : UInt8} {bytes : List UInt8} {i : Inbound}
    (hs : stream ∈ r.streams) (hi : r.inbound = some i) (his : i.stream = stream)
    (hin : i.next = sequence) (h : Continues stream sequence bytes m) :
    r.receive now m = r.extend now i bytes := by
  obtain ⟨⟨hopcode, hstream⟩, hsequence, hne, hbytes⟩ := h
  simp [receive, hopcode, hstream, hsequence, hne, hs, hi, his, hin, hbytes]

/-- Any other fragment on the stream of a transfer ends it. -/
theorem receive_of_gap {sequence : UInt8} {bytes : List UInt8} {i : Inbound}
    (hs : stream ∈ r.streams) (hi : r.inbound = some i) (his : i.stream = stream)
    (hin : sequence ≠ i.next) (h : Continues stream sequence bytes m) :
    r.receive now m = r.abort .sequenceError := by
  obtain ⟨⟨hopcode, hstream⟩, hsequence, hne, _⟩ := h
  simp [receive, hopcode, hstream, hsequence, hne, hs, hi, his, hin]

/-- Other messages than headers on subscribed streams and fragments of the transfer change
    nothing. -/
theorem receive_of_aside (hheader : ∀ s ∈ r.streams, ¬ IsHeader s m)
    (hfragment : ∀ i, r.inbound = some i → ¬ IsFragment i.stream m) : r.receive now m = r := by
  unfold receive
  split
  · rfl
  · rename_i hopcode
    split
    · rename_i stream sequence hstream hsequence
      have hon : IsOn stream m := ⟨Decidable.of_not_not hopcode, hstream⟩
      split
      · rfl
      · rename_i hs
        have hmem : stream ∈ r.streams := by simpa using hs
        split
        · rename_i hzero
          rcases hw : m.word? 3 with _ | length
          · rfl
          · have hm : IsHeader stream m := isHeader_iff.2 ⟨length, hon, hzero ▸ hsequence, hw⟩
            exact absurd hm (hheader stream hmem)
        · rename_i hzero
          rcases hi : r.inbound with _ | i
          · rfl
          · dsimp only
            rw [if_pos]
            rintro rfl
            exact hfragment i hi ⟨hon, sequence, hsequence, hzero⟩
    · rfl

/-- While no transfer is coming in, time does not matter. -/
theorem pollTimeout_of_none (h : r.inbound = none) : r.pollTimeout now = r := by
  unfold pollTimeout
  rw [h]

theorem pollTimeout_of_le {i : Inbound} (h : r.inbound = some i)
    (hle : Time.elapsed now i.latest ≤ r.timeout) : r.pollTimeout now = r := by
  unfold pollTimeout
  rw [h]
  exact if_neg (Nat.not_lt.2 hle)

theorem pollTimeout_of_lt {i : Inbound} (h : r.inbound = some i)
    (hlt : r.timeout < Time.elapsed now i.latest) : r.pollTimeout now = r.abort .timeout := by
  unfold pollTimeout
  rw [h]
  exact if_pos hlt

theorem turn_of_received {c : Cycle} (h : c.received? = some m) :
    r.turn c = (r.receive c.now m).pollTimeout c.now := by
  unfold turn react
  rw [h]

/-- While no transfer is coming in, only a header on a subscribed stream changes something. -/
theorem turn_of_none {c : Cycle} (hnone : r.inbound = none)
    (h : ∀ m, c.received? = some m → ∀ s ∈ r.streams, ¬ IsHeader s m) : r.turn c = r := by
  unfold turn react
  rcases hm : c.received? with _ | m
  · exact pollTimeout_of_none hnone
  · have hnoFragment : ∀ i, r.inbound = some i → ¬ IsFragment i.stream m := fun i hi => by
      rw [hnone] at hi
      contradiction
    dsimp only
    rw [receive_of_aside (h m hm) hnoFragment]
    exact pollTimeout_of_none hnone

theorem foldl_turn_of_none {cycles : List Cycle} (hnone : r.inbound = none)
    (h : ∀ c ∈ cycles, ∀ m, c.received? = some m → ∀ s ∈ r.streams, ¬ IsHeader s m) :
    cycles.foldl (fun r c => r.turn c) r = r := by
  induction cycles with
  | nil => rfl
  | cons c cycles ih =>
    rw [List.foldl_cons, turn_of_none hnone (h c List.mem_cons_self)]
    exact ih fun c' hc' => h c' (List.mem_cons_of_mem c hc')

end Reception

end RailNode.LongMessage
