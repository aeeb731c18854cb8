import RailNode.Proofs.Checked.Basic
import RailNode.Series

/-
  What the services share, under bounds: messages that must fit a frame, the queue, and series of
  replies, which are counted in words of 16 bits while the numbers of the replies are bytes. No
  series goes beyond the number 255 (`Series.Short`), so a number is what its low byte says.
-/
namespace RailNode.Checked

/-! ## Messages -/

namespace Message

/-- The most bytes of a message. -/
def capacity : Nat := 8

/-- An opcode byte, a node number and more bytes, put in the places of a frame. -/
def addressed (opcode : UInt8) (node : UInt16) (args : List UInt8) : Except Halt Message := do
  let frame := List.replicate capacity (0 : UInt8)
  let length ← add sizeLimit 3 args.length
  ensure (length ≤ frame.length)
  let frame ← assign 0 opcode frame
  let frame ← overwrite 1 3 (Word.bytes node) frame
  let frame ← overwrite 3 length args frame
  let bytes ← slice 0 length frame
  trust (Message.ofBytes? bytes)

/-- An opcode with bytes behind it. -/
def ofOpcode (o : Opcode) (args : List UInt8) : Except Halt Message := do
  let bytes ← push capacity o.byte []
  ensure (bytes.length + args.length ≤ capacity)
  trust (Message.ofBytes? (bytes ++ args))

/-- Whether every byte is there that the opcode asks for. -/
def isComplete (m : Message) : Except Halt Bool :=
  match m.opcodeByte? with
  | none => return false
  | some b => do
    let length ← add sizeLimit (Opcode.dataLength b) 1
    return length ≤ m.length

/-- A byte that there must be. -/
def byte (m : Message) (i : Nat) : Except Halt UInt8 := trust (m.byte? i)

/-- The event that a message must have in the bytes 1 to 4. -/
def event (m : Message) : Except Halt EventId := do
  let node ← trust (m.word? 1)
  let number ← trust (m.word? 3)
  return ⟨node, number⟩

@[simp]
theorem addressed_eq (opcode : UInt8) (node : UInt16) {args : List UInt8} (h : args.length ≤ 5) :
    addressed opcode node args = .ok (.addressed opcode node args h) := by
  match args, h with
  | [], _ => rfl
  | [_], _ => rfl
  | [_, _], _ => rfl
  | [_, _, _], _ => rfl
  | [_, _, _, _], _ => rfl
  | [_, _, _, _, _], _ => rfl
  | _ :: _ :: _ :: _ :: _ :: _ :: _, h => exact absurd h (by simp)

@[simp]
theorem ofOpcode_eq (o : Opcode) {args : List UInt8} (h : args.length ≤ 7) :
    ofOpcode o args = .ok (.ofOpcode o args h) := by
  have hlen : (o.byte :: args).length ≤ 8 := Nat.succ_le_succ h
  have hroom : [o.byte].length + args.length ≤ capacity := by
    show 1 + args.length ≤ 8
    omega
  rw [ofOpcode, push_eq _ (by decide), ok_bind, List.nil_append, ensure_eq hroom, ok_bind,
    List.singleton_append, Message.ofBytes?, dif_pos hlen]
  rfl

@[simp]
theorem isComplete_eq (m : Message) : isComplete m = .ok m.isComplete := by
  unfold isComplete RailNode.Message.isComplete
  cases m.opcodeByte? with
  | none => rfl
  | some b =>
    have hlen : Opcode.dataLength b + 1 ≤ sizeLimit := by
      have := Opcode.dataLength_le b
      unfold sizeLimit
      omega
    dsimp only
    rw [add_eq hlen]
    rfl

/-- A complete message has every byte that its opcode asks for. -/
theorem byte?_of_isComplete {m : Message} {o : Opcode} {i : Nat} (ho : m.opcode? = some o)
    (h : m.isComplete = true) (hi : i < Opcode.messageLength o.byte) :
    ∃ b, m.byte? i = some b := by
  unfold RailNode.Message.opcode? at ho
  obtain ⟨b, hb, hob⟩ := Option.bind_eq_some_iff.1 ho
  rw [RailNode.Message.isComplete, hb, ← Opcode.byte_of_ofByte? hob] at h
  have hlen : Opcode.messageLength o.byte ≤ m.length := by simpa using h
  have hlt : i < m.bytes.length := Nat.lt_of_lt_of_le hi hlen
  exact ⟨m.bytes[i], List.getElem?_eq_getElem hlt⟩

/-- A message with a byte that its opcode asks for last is complete. -/
theorem isComplete_of_byte? {m : Message} {o : Opcode} {i : Nat} {b : UInt8}
    (ho : m.opcode? = some o) (hb : m.byte? i = some b)
    (hi : Opcode.messageLength o.byte ≤ i + 1) : m.isComplete = true := by
  unfold RailNode.Message.opcode? at ho
  obtain ⟨b', hb', hob⟩ := Option.bind_eq_some_iff.1 ho
  have hlt : i < m.bytes.length := (List.getElem?_eq_some_iff.1 hb).1
  rw [RailNode.Message.isComplete, hb', ← Opcode.byte_of_ofByte? hob, Option.any_some,
    decide_eq_true_eq]
  exact Nat.le_trans hi hlt

@[simp]
theorem event_eq (m : Message) : event m = trust m.event? := by
  unfold event RailNode.Message.event?
  cases m.word? 1 with
  | none => rfl
  | some node => cases m.word? 3 <;> rfl

theorem event?_of_isComplete {m : Message} {o : Opcode} (ho : m.opcode? = some o)
    (h : m.isComplete = true) (hlen : 5 ≤ Opcode.messageLength o.byte) :
    ∃ e, m.event? = some e := by
  obtain ⟨b₁, h₁⟩ := byte?_of_isComplete (i := 1) ho h (by omega)
  obtain ⟨b₂, h₂⟩ := byte?_of_isComplete (i := 2) ho h (by omega)
  obtain ⟨b₃, h₃⟩ := byte?_of_isComplete (i := 3) ho h (by omega)
  obtain ⟨b₄, h₄⟩ := byte?_of_isComplete (i := 4) ho h (by omega)
  exact ⟨⟨Word.join b₁ b₂, Word.join b₃ b₄⟩, by
    simp [RailNode.Message.event?, RailNode.Message.word?, h₁, h₂, h₃, h₄]⟩

/-- A message that is not complete lacks the last byte that its opcode asks for. -/
theorem byte?_eq_none {m : Message} {o : Opcode} {i : Nat} (ho : m.opcode? = some o)
    (h : m.isComplete = false) (hi : Opcode.messageLength o.byte ≤ i + 1) :
    m.byte? i = none := by
  refine Option.eq_none_iff_forall_ne_some.2 fun b hb => ?_
  rw [isComplete_of_byte? ho hb hi] at h
  contradiction

end Message

/-! ## The queue -/

/-- Puts an item in a queue. A full queue gives its oldest item away first, so that there must be
    room. -/
def Backlog.put {α : Type} {capacity : Nat} (a : α) (q : Backlog α capacity) :
    Except Halt (Backlog α capacity) :=
  let items := if q.isFull then q.items.tail else q.items
  if h : items.length < capacity then
    .ok
      { items := items ++ [a]
        stats :=
          { q.stats with
            puts := q.stats.puts + 1
            overflows := if q.isFull then q.stats.overflows + 1 else q.stats.overflows
            highWater := max q.stats.highWater (items ++ [a]).length }
        length_le := by rw [List.length_append]; exact h }
  else .error .fault

theorem Backlog.put_eq {α : Type} {capacity : Nat} (a : α) (q : Backlog α capacity)
    (hpos : 0 < capacity) : Backlog.put a q = .ok (q.put a) := by
  have hitems : (if q.isFull then q.items.tail else q.items) ++ [a] = (q.put a).items := by
    rcases Nat.lt_or_eq_of_le q.length_le with h | h
    · rw [RailNode.Backlog.items_put_of_length_lt a h, if_neg]
      exact fun hfull => Nat.not_le.2 h (of_decide_eq_true hfull)
    · rw [RailNode.Backlog.items_put_of_length_eq a h hpos, if_pos]
      exact decide_eq_true (Nat.le_of_eq h.symm)
  have hroom : (if q.isFull then q.items.tail else q.items).length < capacity := by
    have hlen := congrArg List.length hitems
    rw [List.length_append, List.length_singleton] at hlen
    have := (q.put a).length_le
    omega
  unfold Backlog.put
  rw [dif_pos hroom]
  simp only [hitems]
  rfl

/-! ## Answers -/

namespace Turn

variable {σ : Type}

/-- Queues an action. -/
def put (a : Action) (t : Turn σ) : Except Halt (Turn σ) := do
  let queue ← Backlog.put a t.shared.queue
  return { t with
    shared.queue := queue
    trace.queued := t.trace.queued ++ [⟨a, t.config⟩] }

def send (m : Message) (t : Turn σ) : Except Halt (Turn σ) := put (.transmit m) t

def reply (o : Opcode) (args : List UInt8) (t : Turn σ) : Except Halt (Turn σ) := do
  let m ← Message.addressed o.byte t.config.nodeNumber args
  send m t

def respond (command : Opcode) (service : ServiceId) (result : ResponseCode) (t : Turn σ) :
    Except Halt (Turn σ) :=
  reply .grsp [command.byte, service.byte, result.byte] t

def refuse (command : Opcode) (service : ServiceId) (e : CommandError) (t : Turn σ) :
    Except Halt (Turn σ) := do
  let t ← reply .cmderr [e.byte] t
  respond command service (.ofError e) t

def confirm (command : Opcode) (service : ServiceId) (t : Turn σ) : Except Halt (Turn σ) := do
  let t ← reply .wrack [] t
  respond command service .ok t

/-- Changes the configuration. -/
def configure (f : Configuration → Except Halt Configuration) (t : Turn σ) :
    Except Halt (Turn σ) := do
  let config ← f t.config
  return { t with shared.config := config }

@[simp]
theorem put_eq (a : Action) (t : Turn σ) : put a t = .ok (t.put a) := by
  rw [put, Backlog.put_eq _ _ (by decide)]
  rfl

@[simp]
theorem send_eq (m : Message) (t : Turn σ) : send m t = .ok (t.send m) := put_eq _ t

@[simp]
theorem reply_eq (o : Opcode) (args : List UInt8) (t : Turn σ) (h : args.length ≤ 5) :
    reply o args t = .ok (t.reply o args h) := by
  rw [reply, Message.addressed_eq _ _ h, ok_bind, send_eq]
  rfl

@[simp]
theorem respond_eq (o : Opcode) (service : ServiceId) (r : ResponseCode) (t : Turn σ) :
    respond o service r t = .ok (t.respond o service r) :=
  reply_eq _ _ _ _

@[simp]
theorem refuse_eq (o : Opcode) (service : ServiceId) (e : CommandError) (t : Turn σ) :
    refuse o service e t = .ok (t.refuse o service e) := by
  rw [refuse, reply_eq .cmderr [_] t (by simp), ok_bind, respond_eq]
  rfl

@[simp]
theorem confirm_eq (o : Opcode) (service : ServiceId) (t : Turn σ) :
    confirm o service t = .ok (t.confirm o service) := by
  rw [confirm, reply_eq .wrack [] t Message.length_noArgs_le, ok_bind, respond_eq]
  rfl

theorem configure_eq {f : Configuration → Except Halt Configuration}
    {g : Configuration → Configuration} {t : Turn σ} (h : f t.config = .ok (g t.config)) :
    configure f t = .ok (t.configure g) := by
  rw [configure, h]
  rfl

end Turn

/-! ## Series of replies -/

namespace Series

variable {κ : Type} {s : Series κ} {now gap : Time}

/-- The series with the numbers from 1 to `count`. -/
def start (now : Time) (kind : κ) (count : Nat) : Except Halt (Series κ) := do
  let stop ← add wordLimit count 1
  return .start now kind 1 stop

/-- The number of a reply, which is a byte. -/
def lowByte (n : Nat) : Nat := n % 256

/-- Passes over `n` numbers at most. -/
def skipFrom (p : Nat → Bool) : Nat → Nat → Except Halt Nat
  | 0, next => return next
  | n + 1, next =>
    if p (lowByte next) then do
      let next ← add wordLimit next 1
      skipFrom p n next
    else return next

/-- Passes over the numbers for which there is no reply. -/
def skip (p : Nat → Bool) (s : Series κ) : Except Halt (Series κ) := do
  let next ← skipFrom p (s.stop - s.next) s.next
  return { s with next }

/-- The number of the reply that is due, if any, and what is left of the series. -/
def poll (now gap : Time) (s : Series κ) : Except Halt (Option Nat × Option (Series κ)) :=
  if s.isDone then return (none, none)
  else if now < s.due then return (none, some s)
  else do
    let next ← add wordLimit s.next 1
    let rest := { s with next, due := Time.deadline now gap }
    return (some (lowByte s.next), if rest.isDone then none else some rest)

/-- The numbers of a series that is going on are bytes. -/
def Short (listing : Option (Series κ)) : Prop := ∀ s ∈ listing, s.stop ≤ 256

theorem short_none : Short (none : Option (Series κ)) := nofun

theorem short_start {stop : Nat} (kind : κ) (first : Nat) (h : stop ≤ 256) :
    Short (some (.start now kind first stop)) := by
  rintro s ⟨⟩
  exact h

theorem short_poll (h : s.stop ≤ 256) : Short (s.poll now gap).2 := by
  intro rest hrest
  unfold RailNode.Series.poll RailNode.Series.advance at hrest
  split_ifs at hrest with hdone hdue
  · contradiction
  · rw [← Option.some.inj hrest]
    exact h
  · dsimp only at hrest
    split_ifs at hrest
    · contradiction
    · rw [← Option.some.inj hrest]
      exact h

theorem start_eq {count : Nat} (now : Time) (kind : κ) (h : count ≤ 255) :
    start now kind count = .ok (.start now kind 1 (count + 1)) := by
  rw [start, add_eq (by unfold wordLimit; omega)]
  rfl

theorem lowByte_eq {n : Nat} (h : n < 256) : lowByte n = n := Nat.mod_eq_of_lt h

theorem skipFrom_eq (p : Nat → Bool) {n next : Nat} (h : next + n ≤ 256) :
    skipFrom p n next = .ok (((List.range' next n).find? (!p ·)).getD (next + n)) := by
  induction n generalizing next with
  | zero => rfl
  | succ n ih =>
    rw [skipFrom, List.range'_succ, List.find?, lowByte_eq (by omega)]
    cases p next with
    | true =>
      rw [if_pos rfl, add_eq (by unfold wordLimit; omega), ok_bind, ih (by omega),
        Nat.add_right_comm]
      rfl
    | false => rfl

theorem skip_eq (p : Nat → Bool) (h : s.stop ≤ 256) : skip p s = .ok (s.skip p) := by
  unfold skip RailNode.Series.skip
  rcases Nat.le_total s.stop s.next with hle | hle
  · rw [Nat.sub_eq_zero_of_le hle, Nat.max_eq_left hle]
    rfl
  · rw [skipFrom_eq p (by omega), Nat.add_sub_cancel' hle, Nat.max_eq_right hle]
    rfl

theorem poll_eq (now gap : Time) (h : s.stop ≤ 256) : poll now gap s = .ok (s.poll now gap) := by
  unfold poll RailNode.Series.poll
  split_ifs with hdone hdue
  · rfl
  · rfl
  · have hnext : s.next < s.stop := by simpa [RailNode.Series.isDone] using hdone
    rw [add_eq (by unfold wordLimit; omega), lowByte_eq (by omega)]
    rfl

end Series

end RailNode.Checked
