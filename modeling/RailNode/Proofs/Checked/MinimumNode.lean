import RailNode.Proofs.Checked.Start
import RailNode.Proofs.Checked.Turn
import RailNode.Proofs.Service.Safety

/-
  The service that every node has, under bounds. Its long answers run over the parameters or over
  the services of the node, of which there are fewer than 256; a service that is reported is there
  because the answer is sound (`MinimumNode.Sound`).
-/
namespace RailNode.Checked.MinimumNode

variable {c : Cycle} {m : Message} {t t' : Turn MinimumNode}

/-! ## Mode and number -/

def inMode (mode : Mode) (c : Configuration) : Except Halt Configuration := do
  let c ← Configuration.setMode mode c
  return if mode = .normal then c else c.setLearning false

def switchMode (mode : Mode) (t : Turn MinimumNode) : Except Halt (Turn MinimumNode) := do
  let t ← Turn.configure (inMode mode) { t with self.heartbeatDue := none }
  Turn.put (.showMode mode) t

def beginNegotiation (now : Time) (t : Turn MinimumNode) : Except Halt (Turn MinimumNode) :=
  switchMode .setup
    { t with
      self.negotiation := some
        { started := now
          previousMode := t.config.mode
          previousNumber := t.config.nodeNumber } }

def cancelNegotiation (t : Turn MinimumNode) : Except Halt (Turn MinimumNode) :=
  match t.self.negotiation with
  | none => return t
  | some n =>
    let t := { t with self.negotiation := none }
    if n.previousMode = .normal then do
      let t ← Turn.configure (Configuration.setNodeNumber n.previousNumber) t
      let t ← switchMode .normal t
      Turn.reply .nnack [] t
    else switchMode n.previousMode t

def acceptNumber (number : UInt16) (t : Turn MinimumNode) : Except Halt (Turn MinimumNode) := do
  let changes :=
    if number = t.config.nodeNumber then t.self.numberChanges else t.self.numberChanges + 1
  let t ← Turn.configure (Configuration.setNodeNumber number)
    { t with self.negotiation := none, self.numberChanges := changes }
  let t ← switchMode .normal t
  let t ← Turn.reply .nnack [] t
  Turn.put .showActivity t

def obeyAssignment (m : Message) (t : Turn MinimumNode) : Except Halt (Turn MinimumNode) :=
  if t.config.mode = .setup then
    match m.nodeNumber? with
    | none => return t
    | some number => if number = 0 then return t else acceptNumber number t
  else return t

def renegotiate (now : Time) (t : Turn MinimumNode) : Except Halt (Turn MinimumNode) :=
  if t.config.mode = .normal then do
    let t ← beginNegotiation now t
    Turn.reply .rqnn [] t
  else return t

def advanceMode (now : Time) (t : Turn MinimumNode) : Except Halt (Turn MinimumNode) :=
  match t.config.mode with
  | .uninitialised => do
    let t ← beginNegotiation now t
    let t ← Turn.put (.searchAddress false) t
    Turn.reply .rqnn [] t
  | .normal => do
    let t ← Turn.reply .nnrel [] t
    let t ← beginNegotiation now t
    Turn.reply .rqnn [] t
  | .setup => cancelNegotiation t

def resume (t : Turn MinimumNode) : Except Halt (Turn MinimumNode) :=
  if t.config.mode = .setup ∧ t.config.nodeNumber ≠ 0 then
    switchMode .normal { t with self.negotiation := none }
  else return t

def obeyMode (now : Time) (command : UInt8) (t : Turn MinimumNode) :
    Except Halt (Turn MinimumNode) :=
  match ModeCommand.ofByte? command with
  | some .setup => renegotiate now t
  | some .normal => resume t
  | some .heartbeatOn =>
    Turn.configure (Configuration.setFlag RailNode.Configuration.heartbeatFlag true) t
  | some .heartbeatOff =>
    Turn.configure (Configuration.setFlag RailNode.Configuration.heartbeatFlag false) t
  | some _ => return t
  | none => Turn.respond .mode .minimumNode .invalidMode t

def pollNegotiation (now limit : Time) (t : Turn MinimumNode) :
    Except Halt (Turn MinimumNode) :=
  match t.self.negotiation with
  | none => return t
  | some n => if limit ≤ Time.elapsed now n.started then cancelNegotiation t else return t

@[simp]
theorem inMode_eq (mode : Mode) (c : Configuration) :
    inMode mode c = .ok (RailNode.MinimumNode.inMode mode c) := by
  rw [inMode, Configuration.setMode_eq, ok_bind, RailNode.MinimumNode.inMode]
  split_ifs <;> rfl

@[simp]
theorem switchMode_eq (mode : Mode) (t : Turn MinimumNode) :
    switchMode mode t = .ok (RailNode.MinimumNode.switchMode mode t) := by
  rw [switchMode, Turn.configure_eq (inMode_eq _ _), ok_bind, Turn.put_eq]
  rfl

@[simp]
theorem beginNegotiation_eq (now : Time) (t : Turn MinimumNode) :
    beginNegotiation now t = .ok (RailNode.MinimumNode.beginNegotiation now t) :=
  switchMode_eq _ _

theorem cancelNegotiation_eq (t : Turn MinimumNode) :
    cancelNegotiation t = .ok (RailNode.MinimumNode.cancelNegotiation t) := by
  unfold cancelNegotiation RailNode.MinimumNode.cancelNegotiation
  rcases t.self.negotiation with _ | n
  · rfl
  dsimp only
  split_ifs
  · rw [Turn.configure_eq (Configuration.setNodeNumber_eq _ _), ok_bind, switchMode_eq, ok_bind]
    exact Turn.reply_eq _ _ _ _
  · exact switchMode_eq _ _

theorem acceptNumber_eq (number : UInt16) (t : Turn MinimumNode) :
    acceptNumber number t = .ok (RailNode.MinimumNode.acceptNumber number t) := by
  rw [acceptNumber, Turn.configure_eq (Configuration.setNodeNumber_eq _ _), ok_bind,
    switchMode_eq, ok_bind, Turn.reply_eq .nnack [] _ Message.length_noArgs_le, ok_bind,
    Turn.put_eq]
  rfl

theorem obeyAssignment_eq (m : Message) (t : Turn MinimumNode) :
    obeyAssignment m t = .ok (RailNode.MinimumNode.obeyAssignment m t) := by
  unfold obeyAssignment RailNode.MinimumNode.obeyAssignment
  split_ifs
  · rcases m.nodeNumber? with _ | number
    · rfl
    · dsimp only
      split_ifs
      · rfl
      · exact acceptNumber_eq number t
  · rfl

theorem renegotiate_eq (now : Time) (t : Turn MinimumNode) :
    renegotiate now t = .ok (RailNode.MinimumNode.renegotiate now t) := by
  unfold renegotiate RailNode.MinimumNode.renegotiate
  split_ifs
  · rw [beginNegotiation_eq, ok_bind]
    exact Turn.reply_eq _ _ _ _
  · rfl

theorem advanceMode_eq (now : Time) (t : Turn MinimumNode) :
    advanceMode now t = .ok (RailNode.MinimumNode.advanceMode now t) := by
  unfold advanceMode RailNode.MinimumNode.advanceMode
  rcases t.config.mode with _ | _ | _
  · dsimp only
    rw [beginNegotiation_eq, ok_bind, Turn.put_eq, ok_bind]
    exact Turn.reply_eq _ _ _ _
  · exact cancelNegotiation_eq t
  · dsimp only
    rw [Turn.reply_eq .nnrel [] _ Message.length_noArgs_le, ok_bind, beginNegotiation_eq, ok_bind]
    exact Turn.reply_eq _ _ _ _

theorem resume_eq (t : Turn MinimumNode) :
    resume t = .ok (RailNode.MinimumNode.resume t) := by
  unfold resume RailNode.MinimumNode.resume
  split_ifs
  · exact switchMode_eq _ _
  · rfl

theorem obeyMode_eq (now : Time) (command : UInt8) (t : Turn MinimumNode) :
    obeyMode now command t = .ok (RailNode.MinimumNode.obeyMode now command t) := by
  unfold obeyMode RailNode.MinimumNode.obeyMode
  rcases ModeCommand.ofByte? command with _ | k
  · exact Turn.respond_eq _ _ _ t
  cases k with
  | setup => exact renegotiate_eq now t
  | normal => exact resume_eq t
  | heartbeatOn => exact Turn.configure_eq (Configuration.setFlag_eq _ _ _)
  | heartbeatOff => exact Turn.configure_eq (Configuration.setFlag_eq _ _ _)
  | _ => rfl

theorem pollNegotiation_eq (now limit : Time) (t : Turn MinimumNode) :
    pollNegotiation now limit t = .ok (RailNode.MinimumNode.pollNegotiation now limit t) := by
  unfold pollNegotiation RailNode.MinimumNode.pollNegotiation
  rcases t.self.negotiation with _ | n
  · rfl
  dsimp only
  split_ifs
  · exact cancelNegotiation_eq t
  · rfl

/-! ## The heartbeat -/

def beat (now interval due : Time) (t : Turn MinimumNode) : Except Halt (Turn MinimumNode) :=
  let number := t.self.heartbeatNumber
  Turn.reply .heartb [number, 0, 0]
    { t with
      self.heartbeatNumber := number + 1
      self.heartbeatDue := some (max (Time.deadline due interval) now) }

def pollHeartbeat (now interval : Time) (t : Turn MinimumNode) :
    Except Halt (Turn MinimumNode) :=
  if RailNode.MinimumNode.isBeating t.config then
    let due := RailNode.MinimumNode.nextBeat now interval t.self
    if now < due then return { t with self.heartbeatDue := some due } else beat now interval due t
  else return { t with self.heartbeatDue := none }

theorem pollHeartbeat_eq (now interval : Time) (t : Turn MinimumNode) :
    pollHeartbeat now interval t = .ok (RailNode.MinimumNode.pollHeartbeat now interval t) := by
  unfold pollHeartbeat RailNode.MinimumNode.pollHeartbeat
  split_ifs
  · dsimp only
    split_ifs
    · rfl
    · exact Turn.reply_eq _ _ _ _
  · rfl

/-! ## What the node tells about itself -/

def introduce (c : Cycle) (t : Turn MinimumNode) : Except Halt (Turn MinimumNode) :=
  Turn.reply .pnn
    [c.parameters.info.manufacturer, c.parameters.info.moduleId,
      c.parameters.flags t.config.mode t.config.learning] t

def parametersMessage (c : Cycle) (config : Configuration) : Except Halt Message :=
  Message.ofOpcode .params ((List.range' 1 7).map (RailNode.MinimumNode.parameter c config))

def nameMessage (c : Cycle) : Except Halt Message :=
  Message.ofOpcode .name c.parameters.info.name.toList

def sendParameter (c : Cycle) (index : Nat) (t : Turn MinimumNode) :
    Except Halt (Turn MinimumNode) :=
  Turn.reply .paran [UInt8.ofNat index, RailNode.MinimumNode.parameter c t.config index] t

/-- Starts a long answer of `count` replies with a first one of its own. -/
def startListing (now : Time) (kind : Listing) (count : Nat) (o : Opcode) (args : List UInt8)
    (t : Turn MinimumNode) : Except Halt (Turn MinimumNode) := do
  let listing ← Series.start now kind count
  Turn.reply o args { t with self.listing := some listing }

def answerParameter (c : Cycle) (m : Message) (t : Turn MinimumNode) :
    Except Halt (Turn MinimumNode) :=
  match m.byte? 3 with
  | none => Turn.refuse .rqnpn .minimumNode .invalidCommand t
  | some index =>
    if index = 0 then
      startListing c.now .parameters Parameters.count .paran [0, UInt8.ofNat Parameters.count] t
    else if index.toNat ≤ Parameters.count then sendParameter c index.toNat t
    else Turn.refuse .rqnpn .minimumNode .invalidParameterIndex t

/-- The service at a position; the first has the position 1. -/
def service? (c : Cycle) (position : Nat) : Except Halt (Option ServiceInfo) := do
  let i ← sub position 1
  return c.services[i]?

def answerServices (c : Cycle) (m : Message) (t : Turn MinimumNode) :
    Except Halt (Turn MinimumNode) :=
  match m.byte? 3 with
  | none => return t
  | some index =>
    if index = 0 then
      startListing c.now .services (Series.lowByte c.services.length) .sd
        [0, 0, UInt8.ofNat c.services.length] t
    else do
      match ← service? c index.toNat with
      | some info => Turn.reply .esd [index, info.id.byte, 0, 0, 0] t
      | none => Turn.respond .rqsd .minimumNode .invalidService t

def answerDiagnostics (c : Cycle) (m : Message) (t : Turn MinimumNode) :
    Except Halt (Turn MinimumNode) :=
  match m.byte? 3 with
  | none => return t
  | some index =>
    if c.services.length < index.toNat then Turn.respond .rdgn .minimumNode .invalidService t
    else return t

def report (c : Cycle) (kind : Listing) (number : Nat) (t : Turn MinimumNode) :
    Except Halt (Turn MinimumNode) :=
  match kind with
  | .parameters => sendParameter c number t
  | .services => do
    let found ← service? c number
    let info ← trust found
    Turn.reply .sd [UInt8.ofNat number, info.id.byte, info.version] t

def pollListing (c : Cycle) (t : Turn MinimumNode) : Except Halt (Turn MinimumNode) :=
  match t.self.listing with
  | none => return t
  | some s => do
    let (number, rest) ← Series.poll c.now c.timing.replyGap s
    let t := { t with self.listing := rest }
    match number with
    | none => return t
    | some i => report c s.kind i t

theorem parametersMessage_eq (c : Cycle) (config : Configuration) :
    parametersMessage c config = .ok (RailNode.MinimumNode.parametersMessage c config) :=
  Message.ofOpcode_eq _ (by simp)

theorem nameMessage_eq (c : Cycle) :
    nameMessage c = .ok (RailNode.MinimumNode.nameMessage c) :=
  Message.ofOpcode_eq _ (by simp)

theorem sendParameter_eq (c : Cycle) (index : Nat) (t : Turn MinimumNode) :
    sendParameter c index t = .ok (RailNode.MinimumNode.sendParameter c index t) :=
  Turn.reply_eq _ _ _ _

theorem startListing_eq {count : Nat} (now : Time) (kind : Listing) (hcount : count ≤ 255)
    (o : Opcode) (args : List UInt8) (t : Turn MinimumNode) (h : args.length ≤ 5) :
    startListing now kind count o args t =
      .ok (({ t with self.listing := some (.start now kind 1 (count + 1)) } :
        Turn MinimumNode).reply o args h) := by
  rw [startListing, Series.start_eq _ _ hcount, ok_bind]
  exact Turn.reply_eq o args _ h

theorem answerParameter_eq (c : Cycle) (m : Message) (t : Turn MinimumNode) :
    answerParameter c m t = .ok (RailNode.MinimumNode.answerParameter c m t) := by
  unfold answerParameter RailNode.MinimumNode.answerParameter
  rcases m.byte? 3 with _ | index
  · exact Turn.refuse_eq _ _ _ t
  dsimp only
  split_ifs
  · exact startListing_eq _ _ (by decide) .paran [_, _] t (by simp)
  · exact sendParameter_eq _ _ t
  · exact Turn.refuse_eq _ _ _ t

theorem service?_eq {position : Nat} (h : 1 ≤ position) :
    service? c position = .ok c.services[position - 1]? := by
  rw [service?, sub_eq h]
  rfl

theorem answerServices_eq (hc : c.services.length ≤ 255) (m : Message) (t : Turn MinimumNode) :
    answerServices c m t = .ok (RailNode.MinimumNode.answerServices c m t) := by
  unfold answerServices RailNode.MinimumNode.answerServices
  rcases m.byte? 3 with _ | index
  · rfl
  dsimp only
  split_ifs with hindex
  · rw [Series.lowByte_eq (Nat.lt_succ_of_le hc)]
    exact startListing_eq _ _ hc .sd [_, _, _] t (by simp)
  · have hpos : 1 ≤ index.toNat :=
      Nat.pos_of_ne_zero fun h => hindex (UInt8.toNat_inj.1 h)
    rw [service?_eq hpos, ok_bind]
    rcases c.services[index.toNat - 1]? with _ | info
    · exact Turn.respond_eq _ _ _ t
    · exact Turn.reply_eq _ _ _ _

theorem answerDiagnostics_eq (c : Cycle) (m : Message) (t : Turn MinimumNode) :
    answerDiagnostics c m t = .ok (RailNode.MinimumNode.answerDiagnostics c m t) := by
  unfold answerDiagnostics RailNode.MinimumNode.answerDiagnostics
  rcases m.byte? 3 with _ | index
  · rfl
  dsimp only
  split_ifs
  · exact Turn.respond_eq _ _ _ t
  · rfl

theorem report_eq {kind : Listing} {number : Nat} (h : kind = .services → 1 ≤ number)
    (t : Turn MinimumNode) :
    report c kind number t = RailNode.MinimumNode.report c kind number t := by
  cases kind with
  | parameters => exact sendParameter_eq c number t
  | services =>
    unfold report RailNode.MinimumNode.report
    dsimp only
    rw [service?_eq (h rfl), ok_bind]
    rcases c.services[number - 1]? with _ | info
    · rfl
    · rw [trust_some, ok_bind, map_ok]
      exact Turn.reply_eq _ _ _ _

theorem pollListing_eq (hsound : MinimumNode.Sound c.services.length t.self.listing)
    (hshort : Series.Short t.self.listing) :
    pollListing c t = RailNode.MinimumNode.pollListing c t := by
  unfold pollListing RailNode.MinimumNode.pollListing
  rcases hs : t.self.listing with _ | s
  · rfl
  dsimp only
  rw [Series.poll_eq _ _ (hshort s hs), ok_bind]
  rcases hi : (s.poll c.now c.timing.replyGap).1 with _ | i
  · rfl
  · exact report_eq (fun hkind => (Series.within_of_poll_fst (hsound s hs hkind) hi).1) _

/-! ## The turn -/

def resetNode (t : Turn MinimumNode) : Except Halt (Turn MinimumNode) := do
  let release ← Message.addressed Opcode.nnrel.byte t.config.nodeNumber []
  Turn.configure Configuration.factoryReset (t.offerMessage release)

def handleNamed (c : Cycle) (m : Message) (o : Opcode) (t : Turn MinimumNode) :
    Except Halt (Turn MinimumNode) :=
  match o with
  | .rqnpn => answerParameter c m t
  | .nnrst => .error t.restart
  | .nnrsm => do
    let t ← resetNode t
    .error t.restart
  | .mode =>
    match m.byte? 3 with
    | none => return t
    | some command => obeyMode c.now command t
  | .rqsd => answerServices c m t
  | .rdgn => answerDiagnostics c m t
  | _ => return t

def sendParameters (c : Cycle) (t : Turn MinimumNode) : Except Halt (Turn MinimumNode) := do
  let m ← parametersMessage c t.config
  Turn.send m t

def sendName (c : Cycle) (t : Turn MinimumNode) : Except Halt (Turn MinimumNode) := do
  let m ← nameMessage c
  Turn.send m t

def handle (c : Cycle) (m : Message) (t : Turn MinimumNode) : Except Halt (Turn MinimumNode) :=
  match m.opcode? with
  | none => return t
  | some .qnn => if t.config.mode = .uninitialised then return t else introduce c t
  | some .rqnp => if t.config.mode = .setup then sendParameters c t else return t
  | some .rqmn => if t.config.mode = .setup then sendName c t else return t
  | some .snn => obeyAssignment m t
  | some o => if t.isNamedBy m then handleNamed c m o t else return t

def react (c : Cycle) (t : Turn MinimumNode) : Except Halt (Turn MinimumNode) :=
  match c.action with
  | some .advanceMode => advanceMode c.now t
  | some .renegotiate => renegotiate c.now t
  | some (.received m) => handle c m t
  | _ => return t

def turn (c : Cycle) (t : Turn MinimumNode) : Except Halt (Turn MinimumNode) := do
  let t ← react c (RailNode.MinimumNode.noteStart c t)
  let t ← pollNegotiation c.now c.timing.negotiationLimit t
  let t ← pollHeartbeat c.now c.timing.heartbeatInterval t
  pollListing c t

theorem resetNode_eq (t : Turn MinimumNode) :
    resetNode t = .ok (RailNode.MinimumNode.resetNode t) := by
  rw [resetNode, Message.addressed_eq _ _ Message.length_noArgs_le, ok_bind]
  exact Turn.configure_eq (Configuration.factoryReset_eq _)

theorem handleNamed_eq (hc : c.services.length ≤ 255) (m : Message) (o : Opcode)
    (t : Turn MinimumNode) :
    handleNamed c m o t = RailNode.MinimumNode.handleNamed c m o t := by
  cases o with
  | rqnpn => exact answerParameter_eq c m t
  | nnrsm =>
    rw [handleNamed, resetNode_eq]
    rfl
  | mode =>
    unfold handleNamed RailNode.MinimumNode.handleNamed
    rcases m.byte? 3 with _ | command
    · rfl
    · exact obeyMode_eq _ _ t
  | rqsd => exact answerServices_eq hc m t
  | rdgn => exact answerDiagnostics_eq c m t
  | _ => rfl

theorem handle_eq (hc : c.services.length ≤ 255) (m : Message) (t : Turn MinimumNode) :
    handle c m t = RailNode.MinimumNode.handle c m t := by
  unfold handle RailNode.MinimumNode.handle
  rcases m.opcode? with _ | o
  · rfl
  cases o with
  | qnn =>
    dsimp only
    split_ifs
    · rfl
    · exact Turn.reply_eq _ _ _ _
  | rqnp =>
    dsimp only
    split_ifs
    · rw [sendParameters, parametersMessage_eq, ok_bind, Turn.send_eq]
    · rfl
  | rqmn =>
    dsimp only
    split_ifs
    · rw [sendName, nameMessage_eq, ok_bind, Turn.send_eq]
    · rfl
  | snn => exact obeyAssignment_eq m t
  | _ =>
    dsimp only
    split_ifs
    · exact handleNamed_eq hc m _ t
    · rfl

theorem react_eq (hc : c.services.length ≤ 255) (t : Turn MinimumNode) :
    react c t = RailNode.MinimumNode.react c t := by
  unfold react RailNode.MinimumNode.react
  rcases c.action with _ | a
  · rfl
  cases a with
  | advanceMode => exact advanceMode_eq _ t
  | renegotiate => exact renegotiate_eq _ t
  | received m => exact handle_eq hc m t
  | _ => rfl

/-! ## The length of a long answer -/

theorem short_react (hc : c.services.length ≤ 255) (ht : Series.Short t.self.listing)
    (h : RailNode.MinimumNode.react c t = .ok t') : Series.Short t'.self.listing := by
  rcases RailNode.MinimumNode.renewed_react h with hl | ⟨kind, hl⟩
  · rw [hl]
    exact ht
  · rw [hl]
    refine Series.short_start kind 1 (Nat.succ_le_succ ?_)
    cases kind with
    | parameters => exact (by decide : Parameters.count ≤ 255)
    | services => exact hc

theorem self_report {kind : Listing} {number : Nat}
    (h : RailNode.MinimumNode.report c kind number t = .ok t') : t'.self = t.self := by
  cases kind with
  | parameters =>
    rw [← Except.ok.inj h]
    exact Turn.self_reply _ _ t _
  | services =>
    obtain ⟨info, _, rfl⟩ := map_eq_ok_iff.1 h
    exact Turn.self_reply _ _ t _

theorem short_pollListing (ht : Series.Short t.self.listing)
    (h : RailNode.MinimumNode.pollListing c t = .ok t') : Series.Short t'.self.listing := by
  unfold RailNode.MinimumNode.pollListing at h
  rcases hs : t.self.listing with _ | s
  · rw [hs] at h
    rw [← Except.ok.inj h, hs]
    exact Series.short_none
  · rw [hs] at h
    dsimp only at h
    split at h
    · rw [← Except.ok.inj h]
      exact Series.short_poll (ht s hs)
    · rw [self_report h]
      exact Series.short_poll (ht s hs)

/-- As long as its long answer is sound and short, no bound is passed in a turn, and the answer
    stays short. -/
theorem turn_eq (hc : c.services.length ≤ 255)
    (hsound : MinimumNode.Sound c.services.length t.self.listing)
    (hshort : Series.Short t.self.listing) :
    turn c t = RailNode.MinimumNode.turn c t ∧
      ∀ t', RailNode.MinimumNode.turn c t = .ok t' → Series.Short t'.self.listing := by
  rw [turn, react_eq hc, RailNode.MinimumNode.turn_eq]
  rcases hu : RailNode.MinimumNode.react c (RailNode.MinimumNode.noteStart c t) with x | u
  · rw [error_bind, error_bind]
    exact ⟨rfl, fun t' h => by contradiction⟩
  · have hlisting : (RailNode.MinimumNode.pollHeartbeat c.now c.timing.heartbeatInterval
        (RailNode.MinimumNode.pollNegotiation c.now c.timing.negotiationLimit u)).self.listing =
        u.self.listing := by simp
    have hsound' := RailNode.MinimumNode.sound_react
      (t := RailNode.MinimumNode.noteStart c t) hsound hu
    have hshort' := short_react (t := RailNode.MinimumNode.noteStart c t) hc hshort hu
    rw [← hlisting] at hsound' hshort'
    rw [ok_bind, pollNegotiation_eq, ok_bind, pollHeartbeat_eq, ok_bind, ok_bind]
    exact ⟨pollListing_eq hsound' hshort', fun t' h => short_pollListing hshort' h⟩

end RailNode.Checked.MinimumNode
