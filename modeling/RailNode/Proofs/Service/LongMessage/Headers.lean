import RailNode.Proofs.Backlog
import RailNode.Proofs.Service.LongMessage.RoundTrip

/-
  What a header does to a transfer that is still going on. A header that announces payload takes
  the place of the transfer, so everything later is as if there had been none. A header of an empty
  payload is reported at once and lets the old transfer go on: then there is always a continuation
  in which the application sees the difference (`header_restarts`).
-/
namespace RailNode.LongMessage

/-! ## Forgetting the transfer -/

/-- The receiving side as if no transfer were coming in. -/
def Reception.forget (r : Reception) : Reception := { r with inbound := none }

/-- The service as if no transfer were coming in. -/
def forget (s : LongMessage) : LongMessage := { s with reception := s.reception.forget }

/-- What the application sees of the receiving side: the receipts that wait, and the data. -/
def Reception.seen (r : Reception) : List Receipt × List UInt8 := (r.receipts.items, r.data)

/-- What the application sees of what comes in. -/
def seen (s : LongMessage) : List Receipt × List UInt8 := s.reception.seen

theorem Reception.forget_of_none {r : Reception} (h : r.inbound = none) : r.forget = r := by
  obtain ⟨_, _, _, _, _, _, _, _⟩ := r
  cases h
  rfl

namespace Reception

variable {r : Reception} {stream : UInt8} {now : Time}

/-- A header that announces payload leaves nothing of the transfer before it. -/
theorem announce_forget {length : Nat} (h : length ≠ 0) :
    r.forget.announce now stream length = r.announce now stream length := by
  unfold announce forget
  simp only [if_neg h]

theorem turn_forget_of_announces {c : Cycle} {m : Message} {length : UInt16}
    (hc : c.received? = some m) (hs : stream ∈ r.streams) (hm : Announces stream length m)
    (h : length ≠ 0 ∨ r.inbound = none) : r.forget.turn c = r.turn c := by
  rcases h with h | h
  · have hne : length.toNat ≠ 0 := fun hzero => h (UInt16.toNat_inj.1 hzero)
    have hs' : stream ∈ r.forget.streams := hs
    rw [turn_of_received hc, turn_of_received hc, receive_of_announces hs hm,
      receive_of_announces hs' hm, announce_forget hne]
  · rw [forget_of_none h]

theorem getLast?_receipts_complete (r : Reception) (stream : UInt8) (length : Nat) :
    (r.complete stream length).receipts.items.getLast? =
      some { stream, length, status := if r.capacity < length then .truncated else .complete } :=
  Backlog.getLast?_put _ _ (by decide)

theorem inbound_abort {i : Inbound} (hi : r.inbound = some i) (status : ReceiveStatus) :
    (r.abort status).inbound = none := by
  unfold abort leave
  rw [hi]

theorem getLast?_receipts_abort {i : Inbound} (hi : r.inbound = some i)
    (status : ReceiveStatus) :
    (r.abort status).receipts.items.getLast? =
      some { stream := i.stream, length := i.received, status } := by
  unfold abort leave
  rw [hi]
  exact Backlog.getLast?_put _ _ (by decide)

/-- The receiving side after a turn with the header of an empty payload, its sender's silence
    apart. -/
theorem turn_of_announces_zero {c : Cycle} {m : Message} (hc : c.received? = some m)
    (hs : stream ∈ r.streams) (hm : Announces stream 0 m) :
    r.turn c = (({ r with data := [] } : Reception).complete stream 0).pollTimeout c.now := by
  rw [turn_of_received hc, receive_of_announces hs hm]
  rfl

theorem turn_of_received_none {c : Cycle} (h : c.received? = none) :
    r.turn c = r.pollTimeout c.now := by
  unfold turn react
  rw [h]

/-- After the header of an empty payload the transfer before it still counts: at the latest when
    its time is over, the application learns of it. -/
theorem getLast?_receipts_of_announces_zero {c d : Cycle} {m : Message} {i : Inbound}
    (hc : c.received? = some m) (hs : stream ∈ r.streams) (hm : Announces stream 0 m)
    (hi : r.inbound = some i) (hd : d.received? = none)
    (hlate : r.timeout < Time.elapsed d.now i.latest) :
    ((r.turn c).turn d).receipts.items.getLast? =
      some { stream := i.stream, length := i.received, status := .timeout } := by
  rw [turn_of_received_none hd, turn_of_announces_zero hc hs hm]
  generalize hq : ({ r with data := [] } : Reception).complete stream 0 = q
  have hqi : q.inbound = some i := by rw [← hq]; exact hi
  have hqt : q.timeout = r.timeout := by rw [← hq]; rfl
  -- the old transfer is given up in the turn of the header, or else in the later one
  by_cases hnow : r.timeout < Time.elapsed c.now i.latest
  · rw [pollTimeout_of_lt hqi (hqt ▸ hnow), pollTimeout_of_none (inbound_abort hqi _)]
    exact getLast?_receipts_abort hqi _
  · rw [pollTimeout_of_le hqi (hqt ▸ Nat.le_of_not_lt hnow), pollTimeout_of_lt hqi (hqt ▸ hlate)]
    exact getLast?_receipts_abort hqi _

/-- Without a transfer the receipt of the empty payload stays the last one. -/
theorem getLast?_receipts_forget {c d : Cycle} {m : Message} (hc : c.received? = some m)
    (hs : stream ∈ r.streams) (hm : Announces stream 0 m) (hd : d.received? = none) :
    ((r.forget.turn c).turn d).receipts.items.getLast? =
      some { stream, length := 0, status := .complete } := by
  have hs' : stream ∈ r.forget.streams := hs
  rw [turn_of_received_none hd, turn_of_announces_zero hc hs' hm]
  generalize hq : ({ r.forget with data := [] } : Reception).complete stream 0 = q
  have hqi : q.inbound = none := by rw [← hq]; rfl
  rw [pollTimeout_of_none hqi, pollTimeout_of_none hqi, ← hq, getLast?_receipts_complete]
  rfl

end Reception

/-! ## The service -/

variable {s : LongMessage} {v : Visit} {m : Message} {stream : UInt8} {length : UInt16}

theorem after_forget (hc : v.cycle.received? = some m) (hs : stream ∈ s.reception.streams)
    (hm : Announces stream length m) (h : length ≠ 0 ∨ s.reception.inbound = none)
    (later : List Visit) : s.forget.after (v :: later) = s.after (v :: later) := by
  have hturn : s.forget.reception.turn v.cycle = s.reception.turn v.cycle :=
    Reception.turn_forget_of_announces hc hs hm h
  rw [after_cons, after_cons, self_visit, self_visit, hturn]
  rfl

theorem seen_after (s : LongMessage) (visits : List Visit) :
    (s.after visits).seen =
      ((visits.map Visit.cycle).foldl (fun r c => r.turn c) s.reception).seen := by
  unfold seen
  rw [reception_after]

/-- A visit in which nothing comes in. -/
def Visit.quietAt (now : Time) (v : Visit) : Visit :=
  { v with cycle := { v.cycle with now, action := none } }

/-- The header of an empty payload does not take the place of a transfer: the application can tell,
    at the latest when the time of the transfer is over. -/
theorem seen_forget_ne {i : Inbound} (hc : v.cycle.received? = some m)
    (hs : stream ∈ s.reception.streams) (hm : Announces stream 0 m)
    (hi : s.reception.inbound = some i) :
    ∃ later, (s.after (v :: later)).seen ≠ (s.forget.after (v :: later)).seen := by
  let w := v.quietAt (i.latest + s.reception.timeout + 1)
  have hw : w.cycle.received? = none := rfl
  have hlate : s.reception.timeout < Time.elapsed w.cycle.now i.latest := by
    show s.reception.timeout < i.latest + s.reception.timeout + 1 - i.latest
    rw [Nat.add_assoc, Nat.add_sub_cancel_left]
    exact Nat.lt_succ_self _
  refine ⟨[w], fun h => ?_⟩
  rw [seen_after, seen_after] at h
  have hreceipts := congrArg (fun x : List Receipt × List UInt8 => x.1.getLast?) h
  have h₁ := Reception.getLast?_receipts_of_announces_zero hc hs hm hi hw hlate
  have h₂ := Reception.getLast?_receipts_forget hc hs hm hw
  have heq := h₁.symm.trans (hreceipts.trans h₂)
  have hstatus := congrArg Receipt.status (Option.some.inj heq)
  contradiction

/-- A header on a subscribed stream starts anew, as if no transfer had been coming in, unless it
    announces an empty payload in the middle of a transfer. While no transfer is coming in, as
    after the last fragment of one, only such a header changes what the application sees. -/
theorem header_restarts (s : LongMessage) :
    (∀ (v : Visit) (m : Message) (stream : UInt8) (length : UInt16),
      v.cycle.received? = some m → stream ∈ s.reception.streams → Announces stream length m →
        ((∀ later, (s.after (v :: later)).seen = (s.forget.after (v :: later)).seen) ↔
          length ≠ 0 ∨ s.reception.inbound = none)) ∧
    (s.reception.inbound = none → ∀ later : List Visit,
      (∀ w ∈ later, ∀ m ∈ w.cycle.received?, ∀ stream ∈ s.reception.streams,
        ¬ IsHeader stream m) → (s.after later).seen = s.seen) := by
  constructor
  · intro v m stream length hc hs hm
    constructor
    · intro h
      by_contra hne
      obtain ⟨hzero, hsome⟩ := not_or.1 hne
      have hzero : length = 0 := Decidable.of_not_not hzero
      obtain ⟨i, hi⟩ := Option.ne_none_iff_exists'.1 hsome
      obtain ⟨later, hlater⟩ := seen_forget_ne hc hs (hzero ▸ hm) hi
      exact hlater (h later)
    · intro h later
      rw [after_forget hc hs hm h]
  · intro hnone later hquiet
    rw [seen_after]
    refine congrArg Reception.seen (Reception.foldl_turn_of_none hnone ?_)
    intro c hc m hm
    obtain ⟨w, hw, rfl⟩ := List.mem_map.1 hc
    exact hquiet w hw m hm

/-! ## A header in the middle of a transfer -/

/-- A receiver that keeps 64 bytes, after five of the seven bytes of a payload. -/
def sampleMidway : LongMessage :=
  let s := ofCapacities .standard 64 0
  { s with reception := { s.reception with streams := [3] } }.after
    [sampleVisit 0 (header 3 7), sampleVisit 0 (fragment 3 1 1 2 3 4 5)]

/-- A header that announces payload puts an end to the transfer before it: its last fragment does
    not count any more. -/
theorem header_restarts_sample :
    (sampleMidway.after [sampleVisit 0 (header 3 2), sampleVisit 0 (fragment 3 2 6 7 0 0 0)]).seen =
      (sampleMidway.forget.after
        [sampleVisit 0 (header 3 2), sampleVisit 0 (fragment 3 2 6 7 0 0 0)]).seen := by
  have hm : Announces 3 2 (header 3 2) := by decide
  exact ((header_restarts sampleMidway).1 _ _ 3 2 (by decide) (by decide) hm).2 (Or.inl (by decide))
    [sampleVisit 0 (fragment 3 2 6 7 0 0 0)]

/-- After the header of an empty payload the last fragment of the transfer before it is kept, and
    completes it. -/
theorem empty_header_continues :
    (sampleMidway.after [sampleVisit 0 (header 3 0), sampleVisit 0 (fragment 3 2 6 7 0 0 0)]).seen =
        ([{ stream := 3, length := 0, status := .complete },
          { stream := 3, length := 7, status := .complete }], [1, 2, 3, 4, 5, 6, 7]) ∧
      (sampleMidway.forget.after
          [sampleVisit 0 (header 3 0), sampleVisit 0 (fragment 3 2 6 7 0 0 0)]).seen =
        ([{ stream := 3, length := 0, status := .complete }], []) := by
  constructor <;> decide

end RailNode.LongMessage
