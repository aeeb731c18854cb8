import RailNode.Proofs.Configuration.Transfer
import RailNode.Proofs.Service.Turn
import RailNode.Service.Reporter

/-
  Turns over stores that move several bytes in different ways. A service sees of the store what the
  configuration tells, which is the same for both ways, so every turn commutes with a change of the
  way: it does the same and gives the same out (`Service.turn_moving`, `Reporter.turn_moving`).
-/
namespace RailNode

variable {k : Transfer}

/-! ## Turns -/

/-- The same with a store that moves several bytes in this way. -/
def Shared.moving (k : Transfer) (s : Shared) : Shared := { s with config := s.config.moving k }

def Emission.moving {α : Type} (k : Transfer) (e : Emission α) : Emission α :=
  { e with config := e.config.moving k }

def Trace.moving (k : Transfer) (t : Trace) : Trace where
  queued := t.queued.map (·.moving k)
  offered := t.offered.map (·.moving k)

def Halt.moving (k : Transfer) : Halt → Halt
  | .restart left trace => .restart (left.moving k) (trace.moving k)
  | .fault => .fault

@[simp]
theorem Shared.config_moving (s : Shared) : (s.moving k).config = s.config.moving k := rfl

@[simp]
theorem Shared.link_moving (s : Shared) : (s.moving k).link = s.link := rfl

namespace Turn

variable {σ τ : Type} {t : Turn σ}

def moving (k : Transfer) (t : Turn σ) : Turn σ where
  self := t.self
  shared := t.shared.moving k
  trace := t.trace.moving k

@[simp]
theorem self_moving : (t.moving k).self = t.self := rfl

@[simp]
theorem shared_moving : (t.moving k).shared = t.shared.moving k := rfl

@[simp]
theorem trace_moving : (t.moving k).trace = t.trace.moving k := rfl

@[simp]
theorem config_moving : (t.moving k).config = t.config.moving k := rfl

@[simp]
theorem isNamedBy_moving : (t.moving k).isNamedBy = t.isNamedBy := rfl

@[simp]
theorem hasRoom_moving : (t.moving k).hasRoom = t.hasRoom := rfl

/-- A turn that goes on with another state of the service. -/
@[simp]
theorem mk_moving (self : τ) (shared : Shared) (trace : Trace) :
    Turn.mk self (shared.moving k) (trace.moving k) = (Turn.mk self shared trace).moving k := rfl

theorem configure_moving {f : Configuration → Configuration}
    (h : ∀ c : Configuration, f (c.moving k) = (f c).moving k) :
    (t.moving k).configure f = (t.configure f).moving k := by
  simp only [configure, shared_moving, Shared.config_moving, h]
  rfl

@[simp]
theorem put_moving (a : Action) : (t.moving k).put a = (t.put a).moving k := by
  unfold put moving Trace.moving
  rw [List.map_append]
  rfl

@[simp]
theorem offer_moving (f : Frame) : (t.moving k).offer f = (t.offer f).moving k := by
  unfold offer moving Trace.moving
  rw [List.map_append]
  rfl

@[simp]
theorem offerMessage_moving (m : Message) :
    (t.moving k).offerMessage m = (t.offerMessage m).moving k :=
  offer_moving _

@[simp]
theorem send_moving (m : Message) : (t.moving k).send m = (t.send m).moving k := put_moving _

@[simp]
theorem reply_moving (o : Opcode) (args : List UInt8) (h : args.length ≤ 5) :
    (t.moving k).reply o args h = (t.reply o args h).moving k :=
  put_moving _

@[simp]
theorem acknowledgeWrite_moving : (t.moving k).acknowledgeWrite = t.acknowledgeWrite.moving k :=
  reply_moving _ _ _

@[simp]
theorem respond_moving (o : Opcode) (service : ServiceId) (r : ResponseCode) :
    (t.moving k).respond o service r = (t.respond o service r).moving k :=
  reply_moving _ _ _

@[simp]
theorem refuse_moving (o : Opcode) (service : ServiceId) (e : CommandError) :
    (t.moving k).refuse o service e = (t.refuse o service e).moving k := by
  simp only [refuse, reply_moving, respond_moving]

@[simp]
theorem confirm_moving (o : Opcode) (service : ServiceId) :
    (t.moving k).confirm o service = (t.confirm o service).moving k := by
  simp only [confirm, acknowledgeWrite_moving, respond_moving]

end Turn

/-! ## Results -/

/-- The same result over stores that move several bytes in this way. -/
def carry {α β : Type} (k : Transfer) (g : α → β) : Except Halt α → Except Halt β
  | .ok a => .ok (g a)
  | .error x => .error (x.moving k)

section Carry

variable {α β γ δ : Type} {g : α → β} {g' : γ → δ}

theorem carry_bind {f : α → Except Halt γ} {f' : β → Except Halt δ}
    (h : ∀ a, f' (g a) = carry k g' (f a)) (x : Except Halt α) :
    (carry k g x >>= f') = carry k g' (x >>= f) := by
  rcases x with x | a
  · rfl
  · exact h a

theorem carry_map {f : α → γ} {f' : β → δ} (h : ∀ a, f' (g a) = g' (f a)) (x : Except Halt α) :
    (carry k g x).map f' = carry k g' (x.map f) := by
  rcases x with x | a
  · rfl
  · exact congrArg Except.ok (h a)

theorem trust_toOption_map {ε : Type} (g : α → β) (x : Except ε α) :
    trust (x.map g).toOption = carry k g (trust x.toOption) := by
  rcases x with _ | a <;> rfl

end Carry

/-! ## The minimum node -/

namespace MinimumNode

variable {c : Cycle} {m : Message} {t : Turn MinimumNode}

theorem inMode_moving (mode : Mode) (d : Configuration) :
    inMode mode (d.moving k) = (inMode mode d).moving k := by
  unfold inMode
  split_ifs <;> rfl

@[simp]
theorem switchMode_moving (mode : Mode) :
    switchMode mode (t.moving k) = (switchMode mode t).moving k := by
  simp only [switchMode, Turn.self_moving, Turn.shared_moving, Turn.trace_moving, Turn.mk_moving,
    Turn.configure_moving (inMode_moving mode), Turn.put_moving]

theorem setNodeNumber_moving (w : UInt16) :
    (t.moving k).configure (·.setNodeNumber w) = (t.configure (·.setNodeNumber w)).moving k :=
  Turn.configure_moving fun _ => Configuration.setNodeNumber_moving w

@[simp]
theorem beginNegotiation_moving (now : Time) :
    beginNegotiation now (t.moving k) = (beginNegotiation now t).moving k := by
  simp [beginNegotiation]

@[simp]
theorem cancelNegotiation_moving :
    cancelNegotiation (t.moving k) = (cancelNegotiation t).moving k := by
  unfold cancelNegotiation
  rw [Turn.self_moving]
  split
  · rfl
  · dsimp only
    split_ifs <;> simp [setNodeNumber_moving]

theorem acceptNumber_moving (number : UInt16) :
    acceptNumber number (t.moving k) = (acceptNumber number t).moving k := by
  unfold acceptNumber
  rw [Turn.config_moving, Configuration.nodeNumber_moving]
  simp [setNodeNumber_moving]

theorem obeyAssignment_moving (m : Message) :
    obeyAssignment m (t.moving k) = (obeyAssignment m t).moving k := by
  unfold obeyAssignment
  rw [Turn.config_moving, Configuration.mode_moving]
  split_ifs
  · split
    · rfl
    · split_ifs
      · rfl
      · exact acceptNumber_moving _
  · rfl

@[simp]
theorem renegotiate_moving (now : Time) :
    renegotiate now (t.moving k) = (renegotiate now t).moving k := by
  unfold renegotiate
  rw [Turn.config_moving, Configuration.mode_moving]
  split_ifs
  · simp
  · rfl

theorem advanceMode_moving (now : Time) :
    advanceMode now (t.moving k) = (advanceMode now t).moving k := by
  unfold advanceMode
  rw [Turn.config_moving, Configuration.mode_moving]
  split <;> simp

theorem resume_moving : resume (t.moving k) = (resume t).moving k := by
  unfold resume
  rw [Turn.config_moving, Configuration.mode_moving, Configuration.nodeNumber_moving]
  split_ifs
  · simp
  · rfl

theorem obeyMode_moving (now : Time) (command : UInt8) :
    obeyMode now command (t.moving k) = (obeyMode now command t).moving k := by
  unfold obeyMode
  split
  · exact renegotiate_moving now
  · exact resume_moving
  · exact Turn.configure_moving fun _ => rfl
  · exact Turn.configure_moving fun _ => rfl
  · rfl
  · exact Turn.respond_moving _ _ _

/-! ### Answers -/

theorem answerParameter_moving :
    answerParameter c m (t.moving k) = (answerParameter c m t).moving k := by
  unfold answerParameter sendParameter
  split
  · simp
  · split_ifs <;> simp [parameter]

theorem answerServices_moving :
    answerServices c m (t.moving k) = (answerServices c m t).moving k := by
  unfold answerServices
  split
  · rfl
  · split_ifs
    · simp
    · split <;> simp

theorem answerDiagnostics_moving :
    answerDiagnostics c m (t.moving k) = (answerDiagnostics c m t).moving k := by
  unfold answerDiagnostics
  split
  · rfl
  · split_ifs <;> simp

theorem resetNode_moving : resetNode (t.moving k) = (resetNode t).moving k := by
  simp [resetNode, Turn.configure_moving Configuration.factoryReset_moving]

theorem handleNamed_moving (o : Opcode) :
    handleNamed c m o (t.moving k) = carry k (Turn.moving k) (handleNamed c m o t) := by
  unfold handleNamed
  split
  · exact congrArg Except.ok answerParameter_moving
  · rfl
  · exact congrArg (fun t : Turn MinimumNode => Except.error t.restart) resetNode_moving
  · split
    · rfl
    · exact congrArg Except.ok (obeyMode_moving _ _)
  · exact congrArg Except.ok answerServices_moving
  · exact congrArg Except.ok answerDiagnostics_moving
  · rfl

theorem handle_moving : handle c m (t.moving k) = carry k (Turn.moving k) (handle c m t) := by
  unfold handle
  rw [Turn.config_moving, Configuration.mode_moving, Turn.isNamedBy_moving]
  split
  · rfl
  · refine congrArg Except.ok ?_
    split_ifs
    · rfl
    · exact Turn.reply_moving _ _ _
  · refine congrArg Except.ok ?_
    split_ifs
    · exact Turn.send_moving _
    · rfl
  · refine congrArg Except.ok ?_
    split_ifs
    · exact Turn.send_moving _
    · rfl
  · exact congrArg Except.ok (obeyAssignment_moving m)
  · split_ifs
    · exact handleNamed_moving _
    · rfl

theorem react_moving : react c (t.moving k) = carry k (Turn.moving k) (react c t) := by
  unfold react
  split
  · exact congrArg Except.ok (advanceMode_moving _)
  · exact congrArg Except.ok (renegotiate_moving _)
  · exact handle_moving
  · rfl

/-! ### What is due -/

theorem pollNegotiation_moving (now limit : Time) :
    pollNegotiation now limit (t.moving k) = (pollNegotiation now limit t).moving k := by
  unfold pollNegotiation
  rw [Turn.self_moving]
  split
  · rfl
  · split_ifs <;> simp

theorem pollHeartbeat_moving (now interval : Time) :
    pollHeartbeat now interval (t.moving k) = (pollHeartbeat now interval t).moving k := by
  have hbeating : isBeating (t.moving k).config = isBeating t.config := rfl
  unfold pollHeartbeat beat
  rw [hbeating]
  split_ifs
  · dsimp only [Turn.self_moving]
    split_ifs <;> simp
  · simp

theorem report_moving (kind : Listing) (number : Nat) :
    report c kind number (t.moving k) = carry k (Turn.moving k) (report c kind number t) := by
  unfold report
  split
  · exact congrArg Except.ok (Turn.reply_moving _ _ _)
  · rcases c.services[number - 1]? with _ | info
    · rfl
    · exact congrArg Except.ok (Turn.reply_moving _ _ _)

theorem pollListing_moving :
    pollListing c (t.moving k) = carry k (Turn.moving k) (pollListing c t) := by
  unfold pollListing
  rw [Turn.self_moving]
  split
  · rfl
  · dsimp only
    split
    · rfl
    · exact report_moving (t := { t with self.listing := _ }) _ _

theorem turn_moving : turn c (t.moving k) = carry k (Turn.moving k) (turn c t) := by
  unfold turn
  simp only [Turn.self_moving, Turn.shared_moving, Turn.trace_moving, Turn.mk_moving, react_moving]
  refine carry_bind (fun u => ?_) _
  unfold poll
  rw [pollNegotiation_moving, pollHeartbeat_moving, pollListing_moving]

end MinimumNode

/-! ## Variable access -/

namespace VariableAccess

variable {c : Cycle} {m : Message} {t : Turn VariableAccess}

theorem sendVariable_moving (index : Nat) :
    sendVariable index (t.moving k) = carry k (Turn.moving k) (sendVariable index t) := by
  unfold sendVariable
  rw [Turn.config_moving, Configuration.nodeVariable?_moving]
  rcases t.config.nodeVariable? index with _ | value
  · rfl
  · exact congrArg Except.ok (Turn.reply_moving _ _ _)

theorem answerRead_moving : answerRead c m (t.moving k) = (answerRead c m t).moving k := by
  unfold answerRead sendValue
  rw [Turn.config_moving]
  split
  · simp
  · split_ifs
    · simp
    · rw [Configuration.nodeVariable?_moving]
      split <;> simp

theorem obeyWrite_moving {command : Opcode}
    {andThen : Nat → Turn VariableAccess → Except Halt (Turn VariableAccess)}
    (h : ∀ index u, andThen index (u.moving k) = carry k (Turn.moving k) (andThen index u)) :
    obeyWrite command m andThen (t.moving k) =
      carry k (Turn.moving k) (obeyWrite command m andThen t) := by
  unfold obeyWrite
  split
  · rw [Turn.config_moving, Configuration.setNodeVariable?_moving]
    rcases t.config.setNodeVariable? _ _ with _ | d
    · exact congrArg Except.ok (Turn.refuse_moving _ _ _)
    · exact h _ { t with shared.config := d }
  · exact congrArg Except.ok (Turn.refuse_moving _ _ _)

theorem handle_moving : handle c m (t.moving k) = carry k (Turn.moving k) (handle c m t) := by
  unfold handle
  rw [Turn.isNamedBy_moving]
  split_ifs
  · split
    · exact congrArg Except.ok answerRead_moving
    · exact obeyWrite_moving fun _ _ => congrArg Except.ok Turn.acknowledgeWrite_moving
    · exact obeyWrite_moving fun index _ => sendVariable_moving index
    · rfl
  · rfl

theorem pollListing_moving :
    pollListing c (t.moving k) = carry k (Turn.moving k) (pollListing c t) := by
  unfold pollListing
  rw [Turn.self_moving]
  split
  · rfl
  · dsimp only
    split
    · rfl
    · exact sendVariable_moving (t := { t with self.listing := _ }) _

theorem turn_moving : turn c (t.moving k) = carry k (Turn.moving k) (turn c t) := by
  unfold turn
  split
  · rw [handle_moving]
    exact carry_bind (fun _ => pollListing_moving) _
  · exact pollListing_moving

end VariableAccess

/-! ## Teaching -/

namespace Teaching

variable {c : Cycle} {m : Message} {t : Turn Teaching}

@[simp]
theorem sendEvent_moving (slot : Nat) :
    sendEvent slot (t.moving k) = (sendEvent slot t).moving k := by
  unfold sendEvent
  rw [Turn.config_moving, Configuration.event_moving]
  split <;> simp

@[simp]
theorem sendVariable_moving (slot : Nat) (index value : UInt8) :
    sendVariable slot index value (t.moving k) = (sendVariable slot index value t).moving k := by
  unfold sendVariable
  rw [Turn.config_moving, Configuration.event_moving]
  split <;> simp

@[simp]
theorem startListing_moving (now : Time) (kind : EventListing) (first stop : Nat) :
    startListing now kind first stop (t.moving k) =
      (startListing now kind first stop t).moving k := rfl

/-! ### Learning -/

theorem yieldLearning_moving : yieldLearning m (t.moving k) = (yieldLearning m t).moving k := by
  unfold yieldLearning
  rw [Turn.isNamedBy_moving]
  split_ifs <;> rfl

theorem obeyMode_moving : obeyMode m (t.moving k) = (obeyMode m t).moving k := by
  unfold obeyMode
  split <;> rfl

/-- Goes on with the configuration that a write of the event table leaves. -/
theorem trust_write_moving {f f' : Configuration → Turn Teaching}
    (h : ∀ d : Configuration, f' (d.moving k) = (f d).moving k)
    {x x' : Except EventError Configuration} (hx : x' = x.map (Configuration.moving k)) :
    (trust x'.toOption >>= fun d => Except.ok (f' d)) =
      carry k (Turn.moving k) (trust x.toOption >>= fun d => Except.ok (f d)) := by
  rw [hx, trust_toOption_map (Configuration.moving k)]
  exact carry_bind (fun d => congrArg Except.ok (h d)) _

/-- A write is confirmed and shown. -/
theorem confirm_write_moving (o : Opcode) (d : Configuration) :
    ({ t.moving k with shared.config := d.moving k }.confirm o .teaching).put .showActivity =
      (({ t with shared.config := d }.confirm o .teaching).put .showActivity).moving k := by
  rw [← Turn.put_moving, ← Turn.confirm_moving]
  rfl

theorem teachVariable_moving (slot index : Nat) (value : UInt8) :
    teachVariable slot index value (t.moving k) =
      carry k (Turn.moving k) (teachVariable slot index value t) :=
  trust_write_moving (confirm_write_moving .evlrn)
    (Configuration.setEventVariable_moving slot index value)

theorem learnEvent_moving (slot : Nat) (e : EventId) :
    learnEvent slot e (t.moving k) = carry k (Turn.moving k) (learnEvent slot e t) :=
  trust_write_moving
    (f := fun d => { t with shared.config := d, self.learned := t.self.learned + 1 })
    (fun _ => rfl) (Configuration.insertEvent_moving slot e)

theorem learn_moving : learn m (t.moving k) = carry k (Turn.moving k) (learn m t) := by
  unfold learn
  rw [Turn.config_moving, Configuration.layout_moving, Configuration.findFree_moving]
  split
  · split_ifs
    · exact congrArg Except.ok (Turn.refuse_moving _ _ _)
    · rw [Configuration.find_moving]
      split
      · exact teachVariable_moving _ _ _
      · split
        · rw [learnEvent_moving]
          exact carry_bind (fun _ => teachVariable_moving _ _ _) _
        · exact congrArg Except.ok (Turn.refuse_moving _ _ _)
  · exact congrArg Except.ok (Turn.refuse_moving _ _ _)

theorem unlearn_moving : unlearn m (t.moving k) = carry k (Turn.moving k) (unlearn m t) := by
  unfold unlearn
  split
  · rw [Turn.config_moving, Configuration.find_moving]
    split
    · exact trust_write_moving (confirm_write_moving .evuln)
        (Configuration.removeEvent_moving _)
    · exact congrArg Except.ok (Turn.refuse_moving _ _ _)
  · exact congrArg Except.ok (Turn.refuse_moving _ _ _)

theorem clear_moving : clear (t.moving k) = (clear t).moving k := by
  unfold clear
  rw [Turn.config_moving, Configuration.learning_moving,
    Turn.configure_moving Configuration.clearEvents_moving]
  split_ifs <;> simp

/-! ### Reading -/

theorem answerVariable_moving :
    answerVariable c m (t.moving k) = (answerVariable c m t).moving k := by
  unfold answerVariable
  rw [Turn.config_moving]
  split
  · rw [Configuration.find_moving]
    split
    · simp
    · split_ifs
      · simp
      · rw [Configuration.eventVariable_moving]
        split <;> simp
  · simp

theorem answerEvent_moving : answerEvent m (t.moving k) = (answerEvent m t).moving k := by
  unfold answerEvent
  rw [Turn.config_moving, Configuration.isFree_moving]
  split
  · simp
  · split_ifs <;> simp

theorem answerSlotVariable_moving :
    answerSlotVariable c m (t.moving k) = (answerSlotVariable c m t).moving k := by
  unfold answerSlotVariable sendSlotVariable
  rw [Turn.config_moving, Configuration.isFree_moving]
  split
  · split_ifs
    · simp
    · simp
    · rw [Configuration.eventVariable_moving]
      split <;> simp
  · simp

theorem handleNamed_moving (o : Opcode) :
    handleNamed c m o (t.moving k) = (handleNamed c m o t).moving k := by
  unfold handleNamed
  split
  · rfl
  · exact obeyMode_moving
  · exact clear_moving
  · exact Turn.reply_moving _ _ _
  · exact Turn.reply_moving _ _ _
  · rfl
  · exact answerEvent_moving
  · exact answerSlotVariable_moving
  · rfl

theorem handle_moving : handle c m (t.moving k) = carry k (Turn.moving k) (handle c m t) := by
  unfold handle
  rw [Turn.config_moving, Configuration.learning_moving, Turn.isNamedBy_moving]
  split
  · rfl
  · exact congrArg Except.ok yieldLearning_moving
  · split_ifs
    · exact learn_moving
    · rfl
  · split_ifs
    · exact unlearn_moving
    · rfl
  · refine congrArg Except.ok ?_
    split_ifs
    · exact answerVariable_moving
    · rfl
  · refine congrArg Except.ok ?_
    split_ifs
    · exact handleNamed_moving _
    · rfl

theorem report_moving (kind : EventListing) (number : Nat) :
    report kind number (t.moving k) = (report kind number t).moving k := by
  unfold report sendSlotVariable
  dsimp only
  split <;> simp

theorem pollListing_moving : pollListing c (t.moving k) = (pollListing c t).moving k := by
  unfold pollListing
  rw [Turn.self_moving, Turn.config_moving, Configuration.isFree_moving]
  split
  · rfl
  · dsimp only
    split
    · rfl
    · exact report_moving (t := { t with self.listing := _ }) _ _

theorem turn_moving : turn c (t.moving k) = carry k (Turn.moving k) (turn c t) := by
  unfold turn
  split
  · rw [handle_moving]
    exact carry_map (fun _ => pollListing_moving) _
  · exact congrArg Except.ok pollListing_moving

end Teaching

/-! ## The other services -/

theorem EventConsumer.turn_moving {c : Cycle} {t : Turn EventConsumer} :
    turn c (t.moving k) = (turn c t).moving k := by
  have hrecognise : (t.config.moving k).recognise? = t.config.recognise? :=
    funext fun _ => Configuration.recognise?_moving _
  unfold turn
  rw [Turn.config_moving, Configuration.mode_moving, Turn.self_moving, hrecognise]
  split_ifs
  · split <;> rfl
  · rfl

namespace EventAcknowledge

variable {c : Cycle} {m : Message} {t : Turn EventAcknowledge}

theorem obeyMode_moving : obeyMode m (t.moving k) = (obeyMode m t).moving k := by
  unfold obeyMode
  split <;> rfl

theorem acknowledge_moving : acknowledge m (t.moving k) = (acknowledge m t).moving k := by
  have hacknowledge : (t.config.moving k).acknowledge = t.config.acknowledge := rfl
  unfold acknowledge
  rw [Turn.config_moving, Configuration.mode_moving, hacknowledge,
    Configuration.recognise?_moving]
  split_ifs
  · split <;> simp
  · rfl

theorem turn_moving : turn c (t.moving k) = (turn c t).moving k := by
  unfold turn
  rw [Turn.isNamedBy_moving]
  split
  · rfl
  · split_ifs
    · exact obeyMode_moving
    · exact acknowledge_moving

end EventAcknowledge

theorem LongMessage.turn_moving {c : Cycle} {t : Turn LongMessage} :
    turn c (t.moving k) = (turn c t).moving k := by
  unfold turn
  rw [Turn.self_moving]
  dsimp only
  split <;> simp

/-! ## Bus access -/

namespace BusAccess

variable {c : Cycle} {m : Message} {t : Turn BusAccess}

theorem transmit_moving : transmit m (t.moving k) = (transmit m t).moving k := by
  unfold transmit
  rw [Turn.self_moving, Turn.hasRoom_moving]
  simp

@[simp]
theorem adopt_moving (a : BusAddress) : adopt a (t.moving k) = (adopt a t).moving k := by
  unfold adopt
  rw [Turn.config_moving, Configuration.address_moving, Turn.self_moving]
  rfl

theorem obeyAssignment_moving : obeyAssignment m (t.moving k) = (obeyAssignment m t).moving k := by
  unfold obeyAssignment
  split <;> simp

theorem handle_moving : handle m (t.moving k) = (handle m t).moving k := by
  unfold handle
  rw [Turn.isNamedBy_moving]
  split
  · split_ifs
    · exact Turn.put_moving _
    · rfl
  · split_ifs
    · exact obeyAssignment_moving
    · rfl
  · rfl

@[simp]
theorem startSearch_moving (now : Time) (forPeer : Bool) :
    startSearch now forPeer (t.moving k) = (startSearch now forPeer t).moving k := by
  unfold startSearch
  rw [Turn.self_moving]
  split <;> simp

theorem startRequired_moving (now : Time) :
    startRequired now (t.moving k) = (startRequired now t).moving k := by
  unfold startRequired
  rw [Turn.self_moving]
  split_ifs <;> simp

theorem finishSearch_moving (now window : Time) :
    finishSearch now window (t.moving k) = (finishSearch now window t).moving k := by
  unfold finishSearch
  rw [Turn.self_moving]
  split
  · rfl
  · dsimp only
    split_ifs <;> simp

/-! ### Frames -/

theorem handleEmpty_moving (remote : Bool) (sender : BusAddress) :
    handleEmpty remote sender (t.moving k) = (handleEmpty remote sender t).moving k := by
  unfold handleEmpty
  rw [Turn.self_moving]
  dsimp only
  simp only [Turn.shared_moving, Turn.trace_moving, Turn.mk_moving, Turn.config_moving,
    Configuration.address_moving, Turn.offer_moving]
  split_ifs <;> rfl

theorem handleData_moving (sender : BusAddress) (m : Message) :
    handleData sender m (t.moving k) = (handleData sender m t).moving k := by
  unfold handleData
  rw [Turn.self_moving, Turn.config_moving, Configuration.address_moving]
  simp

theorem receive_moving : receive (t.moving k) = (receive t).moving k := by
  unfold receive handleFrame
  rw [Turn.shared_moving, Shared.link_moving]
  split
  · rfl
  · rename_i f link _
    dsimp only
    split
    · rfl
    · split_ifs
      · exact handleEmpty_moving (t := { t with shared.link := link }) _ _
      · rfl
      · exact handleData_moving (t := { t with shared.link := link }) _ _

theorem react_moving : react c (t.moving k) = (react c t).moving k := by
  unfold react
  split
  · exact transmit_moving
  · exact startSearch_moving _ _
  · exact handle_moving
  · rfl

theorem turn_moving : turn c (t.moving k) = (turn c t).moving k := by
  unfold turn
  rw [react_moving, startRequired_moving, receive_moving, finishSearch_moving]

end BusAccess

/-! ## Reporters -/

theorem Service.diagnostic?_moving (s : Service) (c : Cycle) (shared : Shared) (code : Nat) :
    s.diagnostic? c (shared.moving k) code = s.diagnostic? c shared code := by
  cases s <;> rfl

namespace Reporter

variable {c : Cycle} {service : Service} {position : Nat} {t : Turn Reporter}

@[simp]
theorem sendValue_moving (code : Nat) :
    sendValue c service position code (t.moving k) =
      (sendValue c service position code t).moving k := by
  unfold sendValue
  simp only [Turn.shared_moving, Service.diagnostic?_moving, Turn.reply_moving]

theorem answer_moving (index code : Nat) :
    answer c service position index code (t.moving k) =
      (answer c service position index code t).moving k := by
  unfold answer
  split_ifs <;> simp

theorem handle_moving (m : Message) :
    handle c service position m (t.moving k) = (handle c service position m t).moving k := by
  unfold handle
  rw [Turn.isNamedBy_moving]
  split_ifs
  · split
    · exact answer_moving _ _
    · rfl
  · rfl

theorem pollListing_moving :
    pollListing c service position (t.moving k) = (pollListing c service position t).moving k := by
  unfold pollListing
  rw [Turn.self_moving]
  split
  · rfl
  · dsimp only
    split <;> simp

theorem turn_moving :
    turn c service position (t.moving k) = (turn c service position t).moving k := by
  unfold turn
  split
  · rw [handle_moving, pollListing_moving]
  · exact pollListing_moving

end Reporter

/-! ## All services -/

/-- A turn does the same over any store, and gives the same out. -/
theorem Service.turn_moving {c : Cycle} {t : Turn Service} :
    turn c (t.moving k) = carry k (Turn.moving k) (turn c t) := by
  have hself : ∀ {σ : Type} (s : σ), (t.moving k).withSelf s = (t.withSelf s).moving k :=
    fun _ => rfl
  have hmap : ∀ {σ : Type} (f : σ → Service) (u : Turn σ),
      (u.moving k).map f = (u.map f).moving k := fun _ _ => rfl
  unfold turn
  rw [Turn.self_moving]
  split
  · rw [hself, MinimumNode.turn_moving]
    exact carry_map (hmap _) _
  · rw [hself, BusAccess.turn_moving]
    rfl
  · rw [hself, VariableAccess.turn_moving]
    exact carry_map (hmap _) _
  · rw [hself, Teaching.turn_moving]
    exact carry_map (hmap _) _
  · rw [hself, EventConsumer.turn_moving]
    rfl
  · rfl
  · rw [hself, EventAcknowledge.turn_moving]
    rfl
  · rw [hself, LongMessage.turn_moving]
    rfl

end RailNode
