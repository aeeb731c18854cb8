import RailNode.Proofs.Checked.BusAccess
import RailNode.Proofs.Checked.Events
import RailNode.Proofs.Checked.LongMessage
import RailNode.Proofs.Checked.MinimumNode
import RailNode.Proofs.Checked.Teaching
import RailNode.Proofs.Checked.VariableAccess
import RailNode.Service.Reporter

/-
  The services of a node under bounds, and the reporters of their diagnostics. Only the service for
  long messages is not what it is without bounds: it works on buffers.
-/
namespace RailNode.Checked

/-- A service of a node. -/
inductive Service where
  | minimumNode (s : MinimumNode)
  | busAccess (s : BusAccess)
  | nodeVariables (s : VariableAccess)
  | teaching (s : Teaching)
  | consumer (s : EventConsumer)
  | producer (s : EventProducer)
  | acknowledge (s : EventAcknowledge)
  | longMessage (s : LongMessage)
deriving DecidableEq, Repr

namespace Service

/-- A service does what `s'` does. -/
inductive Represents : Service → RailNode.Service → Prop
  | minimumNode (s : MinimumNode) : Represents (.minimumNode s) (.minimumNode s)
  | busAccess (s : BusAccess) : Represents (.busAccess s) (.busAccess s)
  | nodeVariables (s : VariableAccess) : Represents (.nodeVariables s) (.nodeVariables s)
  | teaching (s : Teaching) : Represents (.teaching s) (.teaching s)
  | consumer (s : EventConsumer) : Represents (.consumer s) (.consumer s)
  | producer (s : EventProducer) : Represents (.producer s) (.producer s)
  | acknowledge (s : EventAcknowledge) : Represents (.acknowledge s) (.acknowledge s)
  | longMessage {b : LongMessage} {s : RailNode.LongMessage} :
      b.Represents s → Represents (.longMessage b) (.longMessage s)

/-- What a node tells about a service, for which its buffers do not count. -/
def face : Service → RailNode.Service
  | minimumNode s => .minimumNode s
  | busAccess s => .busAccess s
  | nodeVariables s => .nodeVariables s
  | teaching s => .teaching s
  | consumer s => .consumer s
  | producer s => .producer s
  | acknowledge s => .acknowledge s
  | longMessage b =>
    .longMessage
      { reception := b.reception.view
        transmission :=
          { capacity := b.transmission.buffer.length, delay := b.transmission.delay } }

/-- The numbers of a long answer that is going on are bytes. -/
def Short : RailNode.Service → Prop
  | .minimumNode s => Series.Short s.listing
  | .teaching s => Series.Short s.listing
  | _ => True

variable {c : Cycle} {s : Service} {s' : RailNode.Service}

theorem Represents.info_eq (h : s.Represents s') : s.face.info = s'.info := by
  cases h <;> rfl

theorem Represents.id_eq (h : s.Represents s') : s.face.id = s'.id := by
  cases h <;> rfl

theorem Represents.flags_eq (h : s.Represents s') : s.face.flags = s'.flags := by
  cases h <;> rfl

theorem Represents.diagnosticCount_eq (h : s.Represents s') :
    s.face.diagnosticCount = s'.diagnosticCount := by
  cases h <;> rfl

theorem Represents.diagnostic?_eq (h : s.Represents s') (shared : Shared) (code : Nat) :
    s.face.diagnostic? c shared code = s'.diagnostic? c shared code := by
  cases h with
  | longMessage h =>
    show RailNode.LongMessage.diagnostic? _ code = RailNode.LongMessage.diagnostic? _ code
    unfold RailNode.LongMessage.diagnostic?
    rw [← h.reception]
  | _ => rfl

/-! ## The turn -/

def turn (c : Cycle) (t : Turn Service) : Except Halt (Turn Service) :=
  match t.self with
  | minimumNode s => (MinimumNode.turn c (t.withSelf s)).map (·.map minimumNode)
  | busAccess s => (BusAccess.turn c (t.withSelf s)).map (·.map busAccess)
  | nodeVariables s => (VariableAccess.turn c (t.withSelf s)).map (·.map nodeVariables)
  | teaching s => (Teaching.turn c (t.withSelf s)).map (·.map teaching)
  | consumer s => (EventConsumer.turn c (t.withSelf s)).map (·.map consumer)
  | producer _ => return t
  | acknowledge s => (EventAcknowledge.turn c (t.withSelf s)).map (·.map acknowledge)
  | longMessage s => (LongMessage.turn c (t.withSelf s)).map (·.map longMessage)

/-- The turn of a service that represents another: the same is shared and has been given out. -/
structure Continues (t : Turn Service) (t' : Turn RailNode.Service) : Prop where
  shared : t.shared = t'.shared
  trace : t.trace = t'.trace
  self : t.self.Represents t'.self
  short : Short t'.self

/-- As long as what is still to be reported is there and is short, a turn under bounds is the turn
    without them. -/
theorem turn_agrees {t : Turn Service} {t' : Turn RailNode.Service}
    (hc : c.services.length ≤ 255) (h : Continues t t')
    (hsound : t'.self.Sound c.services.length t'.config.layout) :
    Agree Continues (turn c t) (RailNode.Service.turn c t') := by
  obtain ⟨s, shared, trace⟩ := t
  obtain ⟨s', shared', trace'⟩ := t'
  obtain ⟨hshared, htrace, hself, hshort⟩ := h
  obtain rfl : shared = shared' := hshared
  obtain rfl : trace = trace' := htrace
  cases hself with
  | minimumNode s =>
    obtain ⟨heq, hkept⟩ := MinimumNode.turn_eq (t := ⟨s, shared, trace⟩) hc hsound hshort
    refine (Agree.of_eq heq fun u hu => ⟨rfl, hkept u hu⟩).map
      (R := fun a b => a = b ∧ Series.Short b.self.listing) ?_
    rintro u _ - ⟨rfl, hu⟩
    exact ⟨rfl, rfl, .minimumNode _, hu⟩
  | nodeVariables s =>
    have heq := VariableAccess.turn_eq (c := c) (t := ⟨s, shared, trace⟩) hsound
    refine (Agree.of_eq (R := Eq) heq fun _ _ => rfl).map ?_
    rintro u _ - rfl
    exact ⟨rfl, rfl, .nodeVariables _, trivial⟩
  | teaching s =>
    obtain ⟨heq, hkept⟩ := Teaching.turn_eq (c := c) (t := ⟨s, shared, trace⟩) hshort
    refine (Agree.of_eq heq fun u hu => ⟨rfl, hkept u hu⟩).map
      (R := fun a b => a = b ∧ Series.Short b.self.listing) ?_
    rintro u _ - ⟨rfl, hu⟩
    exact ⟨rfl, rfl, .teaching _, hu⟩
  | busAccess s =>
    show Agree _ ((BusAccess.turn c ⟨s, shared, trace⟩).map _) _
    rw [BusAccess.turn_eq]
    exact .ok ⟨rfl, rfl, .busAccess _, trivial⟩
  | consumer s =>
    show Agree _ ((EventConsumer.turn c ⟨s, shared, trace⟩).map _) _
    rw [EventConsumer.turn_eq]
    exact .ok ⟨rfl, rfl, .consumer _, trivial⟩
  | producer s => exact .ok ⟨rfl, rfl, .producer s, trivial⟩
  | acknowledge s =>
    show Agree _ ((EventAcknowledge.turn c ⟨s, shared, trace⟩).map _) _
    rw [EventAcknowledge.turn_eq]
    exact .ok ⟨rfl, rfl, .acknowledge _, trivial⟩
  | @longMessage b s h =>
    obtain ⟨b', heq, h'⟩ := LongMessage.turn_eq c (t := ⟨b, shared, trace⟩) h
    show Agree _ ((LongMessage.turn c ⟨b, shared, trace⟩).map _) _
    rw [heq]
    exact .ok ⟨rfl, rfl, .longMessage h', trivial⟩

/-! ## Diagnostics -/

/-- The diagnostic value with a code. -/
def diagnostic (c : Cycle) (shared : Shared) (code : Nat) (s : Service) :
    Except Halt (Option UInt16) :=
  match s, code with
  | .teaching _, 2 => do
    let free ← Configuration.freeCount shared.config
    return some (UInt16.ofNat free)
  | s, code => return s.face.diagnostic? c shared code

theorem diagnostic_eq (h : s.Represents s') (shared : Shared) (code : Nat) :
    diagnostic c shared code s = .ok (s'.diagnostic? c shared code) := by
  unfold diagnostic
  split
  · cases h
    rw [Configuration.freeCount_eq]
    rfl
  · rw [h.diagnostic?_eq]
    rfl

end Service

/-! ## The reporters -/

namespace Reporter

def sendValue (c : Cycle) (service : Service) (position code : Nat) (t : Turn Reporter) :
    Except Halt (Turn Reporter) := do
  let value ← service.diagnostic c t.shared code
  let value := value.getD 0
  Turn.reply .dgn [UInt8.ofNat position, UInt8.ofNat code, Word.high value, Word.low value] t

def answer (c : Cycle) (service : Service) (position index code : Nat) (t : Turn Reporter) :
    Except Halt (Turn Reporter) :=
  if index ≠ 0 ∧ index ≠ position then return t
  else if code = 0 then
    if service.face.diagnosticCount = 0 then return t
    else do
      let listing ← Series.start c.now () service.face.diagnosticCount
      return { t with self.listing := some listing }
  else if code ≤ service.face.diagnosticCount then sendValue c service position code t
  else if index = 0 then return t
  else Turn.respond .rdgn service.face.id .invalidDiagnostic t

def handle (c : Cycle) (service : Service) (position : Nat) (m : Message) (t : Turn Reporter) :
    Except Halt (Turn Reporter) :=
  if m.opcode? = some .rdgn ∧ t.isNamedBy m then do
    let complete ← Message.isComplete m
    if !complete then return t
    else
      let index ← Message.byte m 3
      let code ← Message.byte m 4
      answer c service position index.toNat code.toNat t
  else return t

def pollListing (c : Cycle) (service : Service) (position : Nat) (t : Turn Reporter) :
    Except Halt (Turn Reporter) :=
  match t.self.listing with
  | none => return t
  | some s => do
    let (number, rest) ← Series.poll c.now c.timing.replyGap s
    let t := { t with self.listing := rest }
    match number with
    | none => return t
    | some code => sendValue c service position code t

def turn (c : Cycle) (service : Service) (position : Nat) (t : Turn Reporter) :
    Except Halt (Turn Reporter) :=
  match c.received? with
  | some m => do
    let t ← handle c service position m t
    pollListing c service position t
  | none => pollListing c service position t

variable {c : Cycle} {s : Service} {s' : RailNode.Service} {position : Nat} {t : Turn Reporter}

theorem sendValue_eq (h : s.Represents s') (position code : Nat) (t : Turn Reporter) :
    sendValue c s position code t =
      .ok (RailNode.Reporter.sendValue c s' position code t) := by
  rw [sendValue, Service.diagnostic_eq h, ok_bind]
  exact Turn.reply_eq _ _ _ _

theorem diagnosticCount_le (s : RailNode.Service) : s.diagnosticCount ≤ 255 := by
  cases s <;> exact Nat.le_of_ble_eq_true rfl

theorem answer_eq (h : s.Represents s') (position index code : Nat) (t : Turn Reporter) :
    answer c s position index code t =
      .ok (RailNode.Reporter.answer c s' position index code t) := by
  unfold answer RailNode.Reporter.answer
  rw [h.diagnosticCount_eq, h.id_eq]
  split_ifs
  · rfl
  · rfl
  · rw [Series.start_eq _ _ (diagnosticCount_le s')]
    rfl
  · exact sendValue_eq h position code t
  · rfl
  · exact Turn.respond_eq _ _ _ t

theorem handle_eq (h : s.Represents s') (position : Nat) (m : Message) (t : Turn Reporter) :
    handle c s position m t = .ok (RailNode.Reporter.handle c s' position m t) := by
  unfold handle RailNode.Reporter.handle
  split_ifs with hnamed
  · rw [Message.isComplete_eq, ok_bind]
    rcases hcomplete : m.isComplete with _ | _
    · rw [Message.byte?_eq_none (i := 4) hnamed.1 hcomplete (by decide)]
      cases m.byte? 3 <;> rfl
    · obtain ⟨index, hindex⟩ :=
        Message.byte?_of_isComplete (i := 3) hnamed.1 hcomplete (by decide)
      obtain ⟨code, hcode⟩ :=
        Message.byte?_of_isComplete (i := 4) hnamed.1 hcomplete (by decide)
      rw [if_neg (by decide), Message.byte, Message.byte, hindex, hcode, trust_some, ok_bind]
      exact answer_eq h position _ _ t
  · rfl

theorem pollListing_eq (h : s.Represents s') (position : Nat)
    (ht : Series.Short t.self.listing) :
    pollListing c s position t = .ok (RailNode.Reporter.pollListing c s' position t) := by
  unfold pollListing RailNode.Reporter.pollListing
  rcases hs : t.self.listing with _ | listing
  · rfl
  dsimp only
  rw [Series.poll_eq _ _ (ht listing hs), ok_bind]
  rcases (listing.poll c.now c.timing.replyGap).1 with _ | code
  · rfl
  · exact sendValue_eq h position code _

theorem short_handle {m : Message} (ht : Series.Short t.self.listing) :
    Series.Short (RailNode.Reporter.handle c s' position m t).self.listing := by
  unfold RailNode.Reporter.handle
  split_ifs
  · split
    · unfold RailNode.Reporter.answer RailNode.Reporter.sendValue
      split_ifs
      · exact ht
      · exact ht
      · exact Series.short_start () 1 (Nat.succ_le_succ (diagnosticCount_le s'))
      · simpa using ht
      · exact ht
      · simpa using ht
    · exact ht
  · exact ht

theorem short_pollListing (ht : Series.Short t.self.listing) :
    Series.Short (RailNode.Reporter.pollListing c s' position t).self.listing := by
  unfold RailNode.Reporter.pollListing RailNode.Reporter.sendValue
  rcases hs : t.self.listing with _ | listing
  · dsimp only
    rw [hs]
    exact Series.short_none
  · dsimp only
    split
    · exact Series.short_poll (ht listing hs)
    · rw [Turn.self_reply]
      exact Series.short_poll (ht listing hs)

/-- As long as its series is short, no bound is passed in the turn of a reporter, and the series
    stays short. -/
theorem turn_eq (h : s.Represents s') (position : Nat) (ht : Series.Short t.self.listing) :
    turn c s position t = .ok (RailNode.Reporter.turn c s' position t) ∧
      Series.Short (RailNode.Reporter.turn c s' position t).self.listing := by
  unfold turn RailNode.Reporter.turn
  rcases c.received? with _ | m
  · exact ⟨pollListing_eq h position ht, short_pollListing ht⟩
  · have hshort := @short_handle c s' position t m ht
    dsimp only
    rw [handle_eq h, ok_bind]
    exact ⟨pollListing_eq h position hshort, short_pollListing hshort⟩

end Reporter

end RailNode.Checked
