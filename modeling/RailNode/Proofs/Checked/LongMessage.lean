import RailNode.Proofs.Checked.LongMessage.Transmission
import RailNode.Service.LongMessage

/-
  The service for long messages over its two buffers, and what the application asks of it.
-/
namespace RailNode.Checked

structure LongMessage where
  reception : LongMessage.Reception
  transmission : LongMessage.Transmission
deriving DecidableEq, Repr

namespace LongMessage

/-- A service over two buffers, whatever is in them. -/
def ofBuffers (timing : LongMessageTiming) (received sent : List UInt8) : LongMessage where
  reception := { buffer := received, timeout := timing.receiveTimeout }
  transmission := { buffer := sent, delay := timing.fragmentDelay }

/-- The service does with its buffers what `s` does without them. -/
structure Represents (b : LongMessage) (s : RailNode.LongMessage) : Prop where
  reception : b.reception.view = s.reception
  sound : b.reception.Sound
  transmission : b.transmission.Represents s.transmission

variable {b : LongMessage} {s : RailNode.LongMessage}

theorem represents_ofBuffers (timing : LongMessageTiming) (received sent : List UInt8) :
    (ofBuffers timing received sent).Represents
      (.ofCapacities timing received.length sent.length) where
  reception := by
    rw [ofBuffers, Reception.view, List.take_zero]
    rfl
  sound := ⟨nofun, nofun, Nat.zero_le _⟩
  transmission := ⟨rfl, rfl, rfl, nofun, nofun⟩

/-! ## The application -/

def subscribe? (stream : UInt8) (b : LongMessage) : Option LongMessage :=
  (b.reception.subscribe? stream).map fun reception => { b with reception }

def send (stream : UInt8) (payload : List UInt8) (b : LongMessage) :
    Except Halt (Except RailNode.LongMessage.SendError LongMessage) := do
  let sent ← b.transmission.send stream payload
  return sent.map fun transmission => { b with transmission }

def takeReceipt? (b : LongMessage) : Option (RailNode.LongMessage.Receipt × LongMessage) :=
  b.reception.receipts.pop?.map fun (receipt, receipts) =>
    (receipt, { b with reception.receipts := receipts })

theorem subscribe?_rel (stream : UInt8) (h : b.Represents s) :
    Option.Rel Represents (b.subscribe? stream) (s.subscribe? stream) := by
  have hview := Reception.view_subscribe? stream b.reception
  unfold subscribe? RailNode.LongMessage.subscribe?
  rw [← h.reception, ← hview]
  rcases hr : b.reception.subscribe? stream with _ | r
  · exact .none
  · exact .some ⟨rfl, Reception.sound_subscribe? h.sound hr, h.transmission⟩

/-- A payload is accepted if it is without the buffers. -/
theorem send_rel (stream : UInt8) (payload : List UInt8) (h : b.Represents s) :
    ∃ sent, b.send stream payload = .ok sent ∧
      Option.Rel Represents sent.toOption (s.send stream payload).toOption := by
  unfold send RailNode.LongMessage.send
  rcases Transmission.send_eq stream payload h.transmission with
    ⟨e, hb, hs⟩ | ⟨b', s', hb, hs, ht⟩
  · rw [hb, hs]
    exact ⟨_, rfl, .none⟩
  · rw [hb, hs]
    exact ⟨_, rfl, .some ⟨h.reception, h.sound, ht⟩⟩

theorem takeReceipt?_rel (h : b.Represents s) :
    Option.Rel (fun r r' => r.1 = r'.1 ∧ r.2.Represents r'.2) b.takeReceipt? s.takeReceipt? := by
  obtain ⟨reception, transmission⟩ := s
  obtain ⟨hreception, hsound, htransmission⟩ := h
  obtain rfl : b.reception.view = reception := hreception
  unfold takeReceipt? RailNode.LongMessage.takeReceipt?
    RailNode.LongMessage.Reception.takeReceipt?
  have hreceipts : b.reception.view.receipts = b.reception.receipts := rfl
  dsimp only
  rw [hreceipts]
  rcases b.reception.receipts.pop? with _ | ⟨receipt, receipts⟩
  · exact .none
  · exact .some ⟨rfl, rfl, ⟨hsound.received_lt, hsound.expected_le, hsound.length_le⟩,
      htransmission⟩

theorem received_eq (h : b.Represents s) : b.reception.received = .ok s.reception.data := by
  rw [Reception.received_eq h.sound, h.reception]

/-! ## The turn -/

def react (c : Cycle) (r : Reception) : Except Halt Reception :=
  match c.received? with
  | none => return r
  | some m => r.receive c.now m

def turn (c : Cycle) (t : Turn LongMessage) : Except Halt (Turn LongMessage) := do
  let reception ← react c t.self.reception
  let reception ← reception.pollTimeout c.now
  let (message, transmission) ← t.self.transmission.poll c.now
  let t := { t with self := { reception, transmission } }
  match message with
  | none => return t
  | some m => Turn.send m t

theorem reception_eq (c : Cycle) {r : Reception} (h : r.Sound) :
    ∃ r₁ r₂, react c r = .ok r₁ ∧ r₁.pollTimeout c.now = .ok r₂ ∧
      r₂.view = (RailNode.LongMessage.react c r.view).pollTimeout c.now ∧ r₂.Sound := by
  have hreact : Reception.Leads (react c r) (RailNode.LongMessage.react c r.view) := by
    unfold react RailNode.LongMessage.react
    rcases c.received? with _ | m
    · exact Reception.leads_ok h
    · exact Reception.receive_eq c.now m h
  obtain ⟨r₁, h₁, hview₁, hsound₁⟩ := hreact
  obtain ⟨r₂, h₂, hview₂, hsound₂⟩ := Reception.pollTimeout_eq c.now hsound₁
  exact ⟨r₁, r₂, h₁, h₂, by rw [hview₂, hview₁], hsound₂⟩

/-- A turn over the buffers is the turn without them: it queues the same message and leaves what
    represents the same state. -/
theorem turn_eq (c : Cycle) {t : Turn LongMessage} (h : t.self.Represents s) :
    ∃ b', turn c t = .ok ((RailNode.LongMessage.turn c (t.withSelf s)).withSelf b') ∧
      b'.Represents (RailNode.LongMessage.turn c (t.withSelf s)).self := by
  obtain ⟨r₁, r₂, h₁, h₂, hview, hsound⟩ := reception_eq c h.sound
  obtain ⟨s₂, hs₂, htransmission⟩ := Transmission.poll_eq c.now h.transmission
  rcases hpoll : s.transmission.poll c.now with ⟨message, s'⟩
  rw [hpoll] at hs₂ htransmission
  have hrepresents : Represents ⟨r₂, s₂⟩
      ⟨(RailNode.LongMessage.react c s.reception).pollTimeout c.now, s'⟩ :=
    ⟨by rw [hview, h.reception], hsound, htransmission⟩
  rw [turn, h₁, ok_bind, h₂, ok_bind, hs₂, ok_bind]
  unfold RailNode.LongMessage.turn
  dsimp only [Turn.withSelf]
  rw [hpoll]
  cases message with
  | none => exact ⟨⟨r₂, s₂⟩, rfl, hrepresents⟩
  | some m => exact ⟨⟨r₂, s₂⟩, Turn.send_eq m _, hrepresents⟩

end LongMessage

end RailNode.Checked
