import RailNode.Proofs.Checked.Turn
import RailNode.Service.LongMessage.Reception

/-
  The receiving side of the long message service over a buffer of fixed size. The machine counts
  what has come against what was announced and writes each fragment into the buffer, as far as it
  has room; `Reception.view` reads off the buffer what has been kept. Less has come than was
  announced as long as a transfer goes on (`Reception.Sound`), so what is still to come is never
  less than nothing, and every place that is written is in the buffer.
-/
namespace RailNode.Checked.LongMessage

open RailNode.LongMessage (Receipt ReceiveStatus receiptCapacity)

/-- The sequence number after another. -/
def nextSequence (n : UInt8) : Except Halt UInt8 :=
  if n = 255 then return 1
  else do
    let next ← add byteLimit n.toNat 1
    return UInt8.ofNat next

theorem nextSequence_eq (n : UInt8) :
    nextSequence n = .ok (RailNode.LongMessage.nextSequence n) := by
  unfold nextSequence RailNode.LongMessage.nextSequence
  split_ifs with h
  · rfl
  · have hne : n.toNat ≠ 255 := fun hn => h (UInt8.toNat_inj.1 hn)
    have hlt := n.toNat_lt
    rw [add_eq (by unfold byteLimit; omega), ok_bind, pure_eq_ok, UInt8.ofNat_add,
      UInt8.ofNat_toNat]
    rfl

/-- A transfer that is coming in. -/
structure Inbound where
  stream : UInt8
  /-- The length that was announced. -/
  expected : Nat
  /-- The bytes of the payload that have come. -/
  received : Nat
  next : UInt8
  latest : Time
deriving DecidableEq, Repr

structure Reception where
  /-- What is kept of a payload stands at the start of the buffer. -/
  buffer : List UInt8
  timeout : Time
  streams : List UInt8 := []
  inbound : Option Inbound := none
  /-- How many bytes of the buffer the application sees. -/
  length : Nat := 0
  receipts : Backlog Receipt receiptCapacity := .mk [] {} (Nat.zero_le receiptCapacity)
  completed : UInt16 := 0
  failed : UInt16 := 0
deriving DecidableEq, Repr

/-- A transfer as it is without the buffer. -/
def Inbound.view (buffer : List UInt8) (i : Inbound) : RailNode.LongMessage.Inbound where
  stream := i.stream
  received := i.received
  remaining := i.expected - i.received
  next := i.next
  latest := i.latest
  kept := buffer.take i.received

namespace Reception

variable {r : Reception} {now : Time} {m : Message} {i : Inbound}

/-- The receiving side as it is without the buffer. -/
def view (r : Reception) : RailNode.LongMessage.Reception where
  capacity := r.buffer.length
  timeout := r.timeout
  streams := r.streams
  inbound := r.inbound.map (Inbound.view r.buffer)
  data := r.buffer.take r.length
  receipts := r.receipts
  completed := r.completed
  failed := r.failed

theorem streams_view (r : Reception) : r.view.streams = r.streams := rfl

theorem inbound_view (r : Reception) :
    r.view.inbound = r.inbound.map (Inbound.view r.buffer) := rfl

/-- A transfer goes on until all has come that was announced, in a word of 16 bits; what the
    application sees is in the buffer. -/
structure Sound (r : Reception) : Prop where
  received_lt : ∀ i ∈ r.inbound, i.received < i.expected
  expected_le : ∀ i ∈ r.inbound, i.expected ≤ wordLimit
  length_le : r.length ≤ r.buffer.length

/-- A step that leaves the receiving side `r` does what `r'` says. -/
def Leads (step : Except Halt Reception) (r' : RailNode.LongMessage.Reception) : Prop :=
  ∃ r, step = .ok r ∧ r.view = r' ∧ r.Sound

theorem leads_ok (h : r.Sound) : Leads (.ok r) r.view := ⟨r, rfl, rfl, h⟩

theorem leads_ite {p : Prop} [Decidable p] {s₁ s₂ : Except Halt Reception}
    {r₁ r₂ : RailNode.LongMessage.Reception} (h₁ : Leads s₁ r₁) (h₂ : Leads s₂ r₂) :
    Leads (if p then s₁ else s₂) (if p then r₁ else r₂) := by
  by_cases h : p
  · rw [if_pos h, if_pos h]
    exact h₁
  · rw [if_neg h, if_neg h]
    exact h₂

/-! ## The application -/

def subscribe? (stream : UInt8) (r : Reception) : Option Reception :=
  if r.streams.contains stream then some r
  else if r.streams.length < RailNode.LongMessage.Reception.maxStreams then
    some { r with streams := r.streams ++ [stream] }
  else none

/-- The payload that the application sees. -/
def received (r : Reception) : Except Halt (List UInt8) := slice 0 r.length r.buffer

theorem view_subscribe? (stream : UInt8) (r : Reception) :
    (r.subscribe? stream).map view = r.view.subscribe? stream := by
  unfold subscribe? RailNode.LongMessage.Reception.subscribe?
  rw [streams_view]
  split_ifs <;> rfl

theorem sound_subscribe? {stream : UInt8} {r' : Reception} (hr : r.Sound)
    (h : r.subscribe? stream = some r') : r'.Sound := by
  unfold subscribe? at h
  split_ifs at h
  · exact Option.some.inj h ▸ hr
  · rw [← Option.some.inj h]
    exact ⟨hr.received_lt, hr.expected_le, hr.length_le⟩

theorem received_eq (h : r.Sound) : r.received = .ok r.view.data := by
  rw [received, slice_eq (Nat.zero_le _) h.length_le]
  rfl

/-! ## The end of a transfer -/

def leave (receipt : Receipt) (r : Reception) : Except Halt Reception := do
  let receipts ← Backlog.put receipt r.receipts
  return { r with receipts }

def complete (stream : UInt8) (length : Nat) (r : Reception) : Except Halt Reception :=
  leave { stream, length, status := if r.buffer.length < length then .truncated else .complete }
    { r with completed := r.completed + 1 }

def abort (status : ReceiveStatus) (r : Reception) : Except Halt Reception :=
  match r.inbound with
  | none => return r
  | some i =>
    leave { stream := i.stream, length := i.received, status }
      { r with inbound := none, failed := r.failed + 1 }

theorem leave_eq (receipt : Receipt) (h : r.Sound) :
    Leads (r.leave receipt) (r.view.leave receipt) := by
  refine ⟨{ r with receipts := r.receipts.put receipt }, ?_, rfl, ?_⟩
  · rw [leave, Backlog.put_eq _ _ (by decide)]
    rfl
  · exact ⟨h.received_lt, h.expected_le, h.length_le⟩

theorem complete_eq (stream : UInt8) (length : Nat) (h : r.Sound) :
    Leads (r.complete stream length) (r.view.complete stream length) :=
  leave_eq _ ⟨h.received_lt, h.expected_le, h.length_le⟩

theorem abort_eq (status : ReceiveStatus) (h : r.Sound) :
    Leads (r.abort status) (r.view.abort status) := by
  unfold abort RailNode.LongMessage.Reception.abort
  rw [inbound_view]
  rcases r.inbound with _ | i
  · exact leads_ok h
  · exact leave_eq _ (r := { r with inbound := none, failed := r.failed + 1 })
      ⟨nofun, nofun, h.length_le⟩

/-! ## The buffer -/

section Buffer

variable {xs ys : List UInt8} {n : Nat}

/-- Puts bytes in a buffer from the place `n` on, as far as it has room. -/
def fill (n : Nat) (ys xs : List UInt8) : Except Halt (List UInt8) := do
  let start := min n xs.length
  let next ← add sizeLimit n ys.length
  let stop := min next xs.length
  let size ← sub stop start
  let fitting ← slice 0 size ys
  overwrite start stop fitting xs

/-- A buffer with bytes from the place `n` on, as far as it has room. -/
def filled (n : Nat) (ys xs : List UInt8) : List UInt8 :=
  let start := min n xs.length
  let stop := min (n + ys.length) xs.length
  xs.take start ++ ys.take (stop - start) ++ xs.drop stop

theorem fill_eq (h : n + ys.length ≤ sizeLimit) : fill n ys xs = .ok (filled n ys xs) := by
  have hstart : min n xs.length ≤ min (n + ys.length) xs.length := by omega
  have hsize : min (n + ys.length) xs.length - min n xs.length ≤ ys.length := by omega
  have hfitting : (ys.take (min (n + ys.length) xs.length - min n xs.length)).length =
      min (n + ys.length) xs.length - min n xs.length := by
    rw [List.length_take, Nat.min_eq_left hsize]
  rw [fill, add_eq h, ok_bind]
  dsimp only
  rw [sub_eq hstart, ok_bind, slice_eq (Nat.zero_le _) hsize, ok_bind,
    List.drop_zero, overwrite_eq hstart (Nat.min_le_right _ _) hfitting]
  rfl

@[simp]
theorem length_filled : (filled n ys xs).length = xs.length := by
  simp only [filled, List.length_append, List.length_take, List.length_drop]
  omega

/-- What the buffer holds then is what was before the place `n` and what has come, as far as there
    is room. -/
theorem take_filled :
    (filled n ys xs).take (min (n + ys.length) xs.length) = (xs.take n ++ ys).take xs.length := by
  have hfront : (xs.take (min n xs.length) ++
      ys.take (min (n + ys.length) xs.length - min n xs.length)).length =
      min (n + ys.length) xs.length := by
    simp only [List.length_append, List.length_take]
    omega
  have hsize : ys.take (min (n + ys.length) xs.length - min n xs.length) =
      ys.take (xs.length - min n xs.length) := by
    rw [List.take_eq_take_iff]
    omega
  rw [filled, List.take_left' hfront, hsize, List.take_append, List.take_take, List.length_take,
    Nat.min_comm n]

theorem take_filled_add :
    (filled n ys xs).take (n + ys.length) = (xs.take n ++ ys).take xs.length := by
  rw [List.take_eq_take_min, length_filled, take_filled]

end Buffer

/-! ## The messages of a transfer -/

def announce (now : Time) (stream : UInt8) (length : Nat) (r : Reception) :
    Except Halt Reception :=
  let r := { r with length := 0 }
  if length = 0 then r.complete stream 0
  else
    .ok
      { r with
        inbound := some { stream, expected := length, received := 0, next := 1, latest := now } }

/-- Of a fragment those bytes count that are still to come. -/
def extend (now : Time) (i : Inbound) (m : Message) (r : Reception) : Except Halt Reception := do
  let remaining ← sub i.expected i.received
  let bytes ← slice 3 m.bytes.length m.bytes
  let payload ← slice 0 (min bytes.length remaining) bytes
  let buffer ← fill i.received payload r.buffer
  let received ← add sizeLimit i.received payload.length
  let next ← nextSequence i.next
  let r := { r with buffer, length := min received r.buffer.length }
  if i.expected ≤ received then complete i.stream received { r with inbound := none }
  else return { r with inbound := some { i with received, next, latest := now } }

def receive (now : Time) (m : Message) (r : Reception) : Except Halt Reception :=
  if m.opcode? ≠ some .dtxc then return r
  else
    match m.byte? 1, m.byte? 2 with
    | some stream, some sequence =>
      if !r.streams.contains stream then return r
      else if sequence = 0 then
        match m.word? 3 with
        | none => return r
        | some length => r.announce now stream length.toNat
      else
        match r.inbound with
        | none => return r
        | some i =>
          if i.stream ≠ stream then return r
          else if sequence ≠ i.next then r.abort .sequenceError
          else r.extend now i m
    | _, _ => return r

def pollTimeout (now : Time) (r : Reception) : Except Halt Reception :=
  match r.inbound with
  | none => return r
  | some i => if r.timeout < Time.elapsed now i.latest then r.abort .timeout else return r

theorem announce_eq (now : Time) (stream : UInt8) {length : Nat} (hlength : length ≤ wordLimit)
    (h : r.Sound) : Leads (r.announce now stream length) (r.view.announce now stream length) := by
  unfold announce RailNode.LongMessage.Reception.announce
  dsimp only
  split_ifs with hzero
  · exact complete_eq (r := { r with length := 0 }) stream 0
      ⟨h.received_lt, h.expected_le, Nat.zero_le _⟩
  · refine leads_ok ⟨?_, ?_, Nat.zero_le _⟩
    · rintro i ⟨⟩
      exact Nat.pos_of_ne_zero hzero
    · rintro i ⟨⟩
      exact hlength

theorem length_of_byte? {k : Nat} {b : UInt8} (h : m.byte? k = some b) : k + 1 ≤ m.bytes.length :=
  (List.getElem?_eq_some_iff.1 h).1

theorem extend_eq (now : Time) (hi : i ∈ r.inbound) (hm : 3 ≤ m.bytes.length) (h : r.Sound) :
    Leads (r.extend now i m) (r.view.extend now (i.view r.buffer) (m.bytes.drop 3)) := by
  have hlt := h.received_lt i hi
  have hle := h.expected_le i hi
  rw [extend, sub_eq (Nat.le_of_lt hlt), ok_bind, slice_end hm, ok_bind, slice_front, ok_bind]
  generalize hpayload : (m.bytes.drop 3).take (i.expected - i.received) = payload
  have hsum : i.received + payload.length ≤ i.expected := by
    rw [← hpayload, List.length_take]
    omega
  have hlimit : i.received + payload.length ≤ sizeLimit := by
    unfold sizeLimit
    unfold wordLimit at hle
    omega
  rw [fill_eq hlimit, ok_bind, add_eq hlimit, ok_bind, nextSequence_eq, ok_bind]
  have hlength : min (i.received + payload.length) r.buffer.length ≤
      (filled i.received payload r.buffer).length := by
    rw [length_filled]
    exact Nat.min_le_right _ _
  unfold RailNode.LongMessage.Reception.extend
  by_cases hdone : i.expected ≤ i.received + payload.length
  · have hzero : i.expected - i.received - payload.length = 0 := by omega
    rw [if_pos hdone]
    simpa only [view, Inbound.view, hpayload, hzero, if_true, length_filled, take_filled,
      Option.map_none]
      using complete_eq i.stream (i.received + payload.length)
        (r := { r with
          buffer := filled i.received payload r.buffer
          length := min (i.received + payload.length) r.buffer.length
          inbound := none }) ⟨nofun, nofun, hlength⟩
  · have hmore : i.expected - (i.received + payload.length) ≠ 0 := by omega
    rw [if_neg hdone]
    refine ⟨_, rfl, ?_, ?_, ?_, hlength⟩
    · simp only [view, Inbound.view, hpayload, hmore, if_false, length_filled, take_filled,
        take_filled_add, Nat.sub_sub, Option.map_some]
    · rintro j ⟨⟩
      exact Nat.not_le.1 hdone
    · rintro j ⟨⟩
      exact hle

theorem receive_eq (now : Time) (m : Message) (h : r.Sound) :
    Leads (r.receive now m) (r.view.receive now m) := by
  unfold receive RailNode.LongMessage.Reception.receive
  split_ifs
  · exact leads_ok h
  rcases h1 : m.byte? 1 with _ | stream
  · exact leads_ok h
  rcases h2 : m.byte? 2 with _ | sequence
  · exact leads_ok h
  dsimp only
  refine leads_ite (leads_ok h) (leads_ite ?_ ?_)
  · rcases m.word? 3 with _ | length
    · exact leads_ok h
    · exact announce_eq now stream (Nat.le_of_lt_succ length.toNat_lt) h
  · rw [inbound_view]
    rcases hi : r.inbound with _ | i
    · exact leads_ok h
    · exact leads_ite (leads_ok h)
        (leads_ite (abort_eq _ h) (extend_eq now hi (length_of_byte? h2) h))

theorem pollTimeout_eq (now : Time) (h : r.Sound) :
    Leads (r.pollTimeout now) (r.view.pollTimeout now) := by
  unfold pollTimeout RailNode.LongMessage.Reception.pollTimeout
  rw [inbound_view]
  rcases r.inbound with _ | i
  · exact leads_ok h
  · exact leads_ite (abort_eq _ h) (leads_ok h)

end Reception

end RailNode.Checked.LongMessage
