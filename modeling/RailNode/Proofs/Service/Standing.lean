import RailNode.Proofs.Configuration.Start
import RailNode.Proofs.Service.MinimumNode

/-
  Where a node stands with its number: its mode, its number, what is stored of both, and the
  negotiation that it remembers. `Standing.Moves` says once how a message or a wish of the user can
  change this, and `Standing.Consistent` is what every change keeps: in setup a node remembers
  where it came from, and its store spells what a cancelled negotiation goes back to.
-/
namespace RailNode

/-- The mode of a node with this number that negotiates nothing. -/
def homeMode (number : UInt16) : Mode := if number = 0 then .uninitialised else .normal

theorem homeMode_ne_setup (number : UInt16) : homeMode number ≠ .setup := by
  unfold homeMode
  split_ifs <;> decide

theorem homeMode_eq_uninitialised_iff {number : UInt16} :
    homeMode number = .uninitialised ↔ number = 0 := by
  unfold homeMode
  split_ifs with h
  · exact iff_of_true rfl h
  · exact iff_of_false (by decide) h

theorem homeMode_eq_normal_iff {number : UInt16} : homeMode number = .normal ↔ number ≠ 0 := by
  unfold homeMode
  split_ifs with h
  · exact iff_of_false (by decide) (not_not_intro h)
  · exact iff_of_true rfl h

/-- A stored setup byte is read as the mode that the node would go back to. -/
theorem startMode_setup (number : UInt16) :
    Configuration.startMode Mode.setup.byte number = homeMode number := rfl

theorem startMode_homeMode (number : UInt16) :
    Configuration.startMode (homeMode number).byte number = homeMode number := by
  unfold homeMode
  split_ifs <;> rfl

/-- Where a node stands with its number. -/
structure Standing where
  mode : Mode
  number : UInt16
  storedMode : UInt8
  storedNumber : UInt16
  negotiation : Option Negotiation

namespace Standing

/-- Where a node with this service and this configuration stands. -/
def of (s : MinimumNode) (c : Configuration) : Standing where
  mode := c.mode
  number := c.nodeNumber
  storedMode := c.storedMode
  storedNumber := c.storedNumber
  negotiation := s.negotiation

theorem of_eq_of_changesOnly {A : List Configuration.Part} {c d : Configuration}
    (s : MinimumNode) (h : Configuration.ChangesOnly A c d)
    (hA : .mode ∉ A ∧ .number ∉ A) : of s d = of s c := by
  unfold of
  rw [h.mode hA.1, h.nodeNumber hA.2, h.storedMode hA.1, h.storedNumber hA.2]

/-! ## Moves -/

variable {now : Time} {action : Option Action} {x y : Standing}

/-- A negotiation has begun. -/
def enter (now : Time) (x : Standing) : Standing :=
  { x with
    mode := .setup
    storedMode := Mode.setup.byte
    negotiation := some ⟨now, x.mode, x.number⟩ }

/-- A negotiation has been given up. -/
def leave (n : Negotiation) (x : Standing) : Standing :=
  if n.previousMode = .normal then
    ⟨.normal, n.previousNumber, Mode.normal.byte, n.previousNumber, none⟩
  else { x with mode := n.previousMode, storedMode := n.previousMode.byte, negotiation := none }

/-- The node has taken a number. -/
def settle (number : UInt16) : Standing := ⟨.normal, number, Mode.normal.byte, number, none⟩

/-- The node has gone back to normal mode with the number that it has. -/
def resume (x : Standing) : Standing :=
  { x with mode := .normal, storedMode := Mode.normal.byte, negotiation := none }

/-- The action is a MODE message with this command for a node with this number. -/
def Commands (k : ModeCommand) (number : UInt16) (action : Option Action) : Prop :=
  ∃ m, action = some (.received m) ∧ m.opcode? = some .mode ∧ m.nodeNumber? = some number ∧
    m.byte? 3 = some k.byte

/-- The action is an SNN message with this number. -/
def Assigns (number : UInt16) (action : Option Action) : Prop :=
  ∃ m, action = some (.received m) ∧ m.opcode? = some .snn ∧ m.nodeNumber? = some number

/-- The action makes a node in this mode and with this number enter setup. -/
def Opens (action : Option Action) (number : UInt16) : Mode → Prop
  | .uninitialised => action = some .advanceMode
  | .normal =>
    action = some .advanceMode ∨ action = some .renegotiate ∨ Commands .setup number action
  | .setup => False

/-- What the action of a cycle can do to the standing of a node. -/
inductive Moves (now : Time) (action : Option Action) (x : Standing) : Standing → Prop
  | stay : Moves now action x x
  | enter : Opens action x.number x.mode → Moves now action x (x.enter now)
  | leave {n : Negotiation} : x.mode = .setup → action = some .advanceMode →
      x.negotiation = some n → Moves now action x (x.leave n)
  | settle {number : UInt16} : x.mode = .setup → Assigns number action → number ≠ 0 →
      Moves now action x (settle number)
  | resume : x.mode = .setup → x.number ≠ 0 → Commands .normal x.number action →
      Moves now action x x.resume

/-- What a cycle can do: its action moves the standing, and then a negotiation that is open may
    have taken too long. -/
def Passes (now limit : Time) (action : Option Action) (x z : Standing) : Prop :=
  ∃ y, Moves now action x y ∧
    (z = y ∨ ∃ n, y.negotiation = some n ∧ limit ≤ Time.elapsed now n.started ∧ z = y.leave n)

/-! ## Consistency -/

/-- The mode fits the number, the store spells both, and a negotiation is remembered in setup
    only, together with what was before it. -/
structure Consistent (x : Standing) : Prop where
  storedNumber : x.storedNumber = x.number
  /-- A node that starts over this store is not in setup. -/
  storedMode : Configuration.startMode x.storedMode x.number = homeMode x.number
  mode : x.mode = .setup ∧ (∃ t, x.negotiation = some ⟨t, homeMode x.number, x.number⟩) ∨
    x.mode = homeMode x.number ∧ x.negotiation = none

namespace Consistent

theorem of_mode_ne_setup (h : x.Consistent) (hm : x.mode ≠ .setup) :
    x.mode = homeMode x.number ∧ x.negotiation = none :=
  h.mode.resolve_left fun hsetup => hm hsetup.1

theorem of_negotiation (h : x.Consistent) {n : Negotiation} (hn : x.negotiation = some n) :
    x.mode = .setup ∧ n.previousMode = homeMode x.number ∧ n.previousNumber = x.number := by
  rcases h.mode with ⟨hm, t, ht⟩ | ⟨_, hnone⟩
  · rw [hn] at ht
    rw [Option.some.inj ht]
    exact ⟨hm, rfl, rfl⟩
  · rw [hn] at hnone
    contradiction

theorem negotiation_isSome_iff (h : x.Consistent) : x.negotiation.isSome ↔ x.mode = .setup := by
  rcases h.mode with ⟨hm, t, ht⟩ | ⟨hm, hnone⟩
  · rw [ht, hm]
    exact iff_of_true rfl rfl
  · rw [hnone, hm]
    exact iff_of_false (by decide) (homeMode_ne_setup _)

theorem number_of_uninitialised (h : x.Consistent) (hm : x.mode = .uninitialised) :
    x.number = 0 := by
  have hhome := (h.of_mode_ne_setup (by rw [hm]; decide)).1
  rw [hm] at hhome
  exact homeMode_eq_uninitialised_iff.1 hhome.symm

theorem number_of_normal (h : x.Consistent) (hm : x.mode = .normal) : x.number ≠ 0 := by
  have hhome := (h.of_mode_ne_setup (by rw [hm]; decide)).1
  rw [hm] at hhome
  exact homeMode_eq_normal_iff.1 hhome.symm

/-- Entering setup writes the setup byte and leaves the number; the byte will be read as the mode
    that is being remembered. -/
theorem enter (h : x.Consistent) (hm : x.mode ≠ .setup) : (x.enter now).Consistent where
  storedNumber := h.storedNumber
  storedMode := startMode_setup x.number
  mode := by
    have hhome := (h.of_mode_ne_setup hm).1
    refine Or.inl ⟨rfl, now, ?_⟩
    show some (Negotiation.mk now x.mode x.number) = _
    rw [hhome]
    rfl

/-- Giving a negotiation up leads to the home mode of the number, which is the number before. -/
theorem leave_eq (h : x.Consistent) {n : Negotiation} (hn : x.negotiation = some n) :
    x.leave n = { x with
      mode := homeMode x.number
      storedMode := (homeMode x.number).byte
      negotiation := none } := by
  obtain ⟨_, hmode, hnumber⟩ := h.of_negotiation hn
  unfold Standing.leave
  rw [hmode, hnumber]
  split_ifs with hnormal
  · rw [hnormal, ← h.storedNumber]
  · rfl

theorem leave (h : x.Consistent) {n : Negotiation} (hn : x.negotiation = some n) :
    (x.leave n).Consistent := by
  rw [h.leave_eq hn]
  exact ⟨h.storedNumber, startMode_homeMode x.number, Or.inr ⟨rfl, rfl⟩⟩

theorem settle {number : UInt16} (h : number ≠ 0) : (Standing.settle number).Consistent where
  storedNumber := rfl
  storedMode := (homeMode_eq_normal_iff.2 h).symm
  mode := Or.inr ⟨(homeMode_eq_normal_iff.2 h).symm, rfl⟩

theorem resume (h : x.Consistent) (hn : x.number ≠ 0) : x.resume.Consistent where
  storedNumber := h.storedNumber
  storedMode := (homeMode_eq_normal_iff.2 hn).symm
  mode := Or.inr ⟨(homeMode_eq_normal_iff.2 hn).symm, rfl⟩

/-- A standing stays consistent whatever the action is. -/
theorem moves (h : x.Consistent) (hxy : Moves now action x y) : y.Consistent := by
  cases hxy with
  | stay => exact h
  | enter hopens =>
    refine h.enter fun hm => ?_
    rw [hm] at hopens
    exact hopens
  | leave _ _ hn => exact h.leave hn
  | settle _ _ hne => exact settle hne
  | resume _ hne _ => exact h.resume hne

variable {limit : Time} {z : Standing}

theorem passes (h : x.Consistent) (hxz : Passes now limit action x z) : z.Consistent := by
  obtain ⟨y, hmoves, hend⟩ := hxz
  have hy := h.moves hmoves
  rcases hend with rfl | ⟨n, hn, _, rfl⟩
  · exact hy
  · exact hy.leave hn

/-- The number changes only when a message assigns one in setup, and then to that number. -/
theorem settle_of_passes (h : x.Consistent) (hxz : Passes now limit action x z)
    (hne : z.number ≠ x.number) :
    ∃ number, x.mode = .setup ∧ Assigns number action ∧ number ≠ 0 ∧
      z = Standing.settle number := by
  obtain ⟨y, hmoves, hend⟩ := hxz
  have hy := h.moves hmoves
  have hnumber : z.number = y.number := by
    rcases hend with rfl | ⟨n, hn, _, rfl⟩
    · rfl
    · rw [hy.leave_eq hn]
  rw [hnumber] at hne
  cases hmoves with
  | stay => exact absurd rfl hne
  | enter _ => exact absurd rfl hne
  | leave _ _ hn =>
    rw [h.leave_eq hn] at hne
    exact absurd rfl hne
  | @settle number hmode hassigns hzero =>
    refine ⟨number, hmode, hassigns, hzero, ?_⟩
    rcases hend with hz | ⟨n, hn, _⟩
    · exact hz
    · exact absurd hn nofun
  | resume _ _ _ => exact absurd rfl hne

/-- A node leaves another mode than setup only on an action that opens a negotiation. -/
theorem opens_of_passes (h : x.Consistent) (hxz : Passes now limit action x z)
    (hm : x.mode ≠ .setup) (hne : z.mode ≠ x.mode) : Opens action x.number x.mode := by
  obtain ⟨y, hmoves, hend⟩ := hxz
  cases hmoves with
  | stay =>
    rcases hend with rfl | ⟨n, hn, _⟩
    · exact absurd rfl hne
    · exact absurd (h.of_negotiation hn).1 hm
  | enter hopens => exact hopens
  | leave hsetup _ _ => exact absurd hsetup hm
  | settle hsetup _ _ => exact absurd hsetup hm
  | resume hsetup _ _ => exact absurd hsetup hm

end Consistent

/-! ## What a negotiation goes back to -/

theorem negotiation_leave (n : Negotiation) (x : Standing) : (x.leave n).negotiation = none := by
  unfold leave
  split_ifs <;> rfl

theorem mode_leave (n : Negotiation) (x : Standing) : (x.leave n).mode = n.previousMode := by
  unfold leave
  split_ifs with h
  · exact h.symm
  · rfl

theorem not_assigns_none (number : UInt16) : ¬ Assigns number none := by
  rintro ⟨_, h, _⟩
  contradiction

/-- A negotiation remembers the number that the node has. -/
def Recalls (x : Standing) : Prop :=
  ∀ n, x.negotiation = some n → n.previousNumber = x.number

namespace Recalls

theorem of_negotiation (h : x.negotiation = none) : x.Recalls := by
  intro n hn
  rw [h] at hn
  contradiction

theorem leave (n : Negotiation) (x : Standing) : (x.leave n).Recalls :=
  of_negotiation (x.negotiation_leave n)

theorem moves (h : x.Recalls) (hxy : Moves now action x y) : y.Recalls := by
  cases hxy with
  | stay => exact h
  | enter _ =>
    intro n hn
    rw [← Option.some.inj hn]
    rfl
  | @leave n _ _ _ => exact leave n x
  | settle _ _ _ => exact of_negotiation rfl
  | resume _ _ _ => exact of_negotiation rfl

variable {limit : Time} {z : Standing}

theorem passes (h : x.Recalls) (hxz : Passes now limit action x z) : z.Recalls := by
  obtain ⟨y, hmoves, hend⟩ := hxz
  rcases hend with rfl | ⟨n, _, _, rfl⟩
  · exact h.moves hmoves
  · exact leave n y

theorem number_leave (h : x.Recalls) {n : Negotiation} (hn : x.negotiation = some n) :
    (x.leave n).number = x.number := by
  unfold Standing.leave
  split_ifs
  · exact h n hn
  · rfl

/-- Only a message that assigns a number in setup changes the number. -/
theorem number_of_passes (h : x.Recalls) (hxz : Passes now limit action x z)
    (hno : x.mode = .setup → ∀ k ≠ 0, ¬ Assigns k action) : z.number = x.number := by
  obtain ⟨y, hmoves, hend⟩ := hxz
  have hy : y.number = x.number := by
    cases hmoves with
    | stay => rfl
    | enter _ => rfl
    | leave _ _ hn => exact h.number_leave hn
    | @settle number hmode hassigns hne => exact absurd hassigns (hno hmode number hne)
    | resume _ _ _ => rfl
  rw [← hy]
  rcases hend with rfl | ⟨n, hn, _, rfl⟩
  · rfl
  · exact (h.moves hmoves).number_leave hn

end Recalls

/-- A negotiation is remembered in setup only. -/
def Confined (x : Standing) : Prop := ∀ n, x.negotiation = some n → x.mode = .setup

namespace Confined

theorem of_negotiation (h : x.negotiation = none) : x.Confined := by
  intro n hn
  rw [h] at hn
  contradiction

variable {limit : Time} {z : Standing}

theorem moves (h : x.Confined) (hxy : Moves now action x y) : y.Confined := by
  cases hxy with
  | stay => exact h
  | enter _ => exact fun _ _ => rfl
  | @leave n _ _ _ => exact of_negotiation (x.negotiation_leave n)
  | settle _ _ _ => exact of_negotiation rfl
  | resume _ _ _ => exact of_negotiation rfl

theorem passes (h : x.Confined) (hxz : Passes now limit action x z) : z.Confined := by
  obtain ⟨y, hmoves, hend⟩ := hxz
  rcases hend with rfl | ⟨n, _, _, rfl⟩
  · exact h.moves hmoves
  · exact of_negotiation (y.negotiation_leave n)

end Confined

/-- What holds of a service that negotiates nothing, and goes on to hold in every cycle. -/
structure Lasts (P : Standing → Prop) : Prop where
  start : ∀ {x}, x.negotiation = none → P x
  passes : ∀ {now limit action x z}, P x → Passes now limit action x z → P z

theorem lasts_recalls : Lasts Recalls := ⟨.of_negotiation, .passes⟩

theorem lasts_confined : Lasts Confined := ⟨.of_negotiation, .passes⟩

end Standing

/-! ## The turn of the service -/

/-- Where a node stands during a turn. -/
def Turn.standing (t : Turn MinimumNode) : Standing := .of t.self t.config

namespace MinimumNode

open RailNode.Configuration Standing

theorem Unmoved.standing {t t' : Turn MinimumNode} (h : Unmoved t t') :
    t'.standing = t.standing := by
  unfold Turn.standing Standing.of
  rw [h.negotiation, h.config]

theorem of_setMode (s : MinimumNode) (c : Configuration) (mode : Mode) :
    Standing.of s (c.setMode mode) =
      { Standing.of s c with mode := mode, storedMode := mode.byte } := by
  have hch := c.changesOnly_setMode mode
  unfold Standing.of
  rw [hch.nodeNumber (by decide), hch.storedNumber (by decide), storedMode_setMode]
  rfl

theorem of_inMode (s : MinimumNode) (c : Configuration) (mode : Mode) :
    Standing.of s (inMode mode c) =
      { Standing.of s c with mode := mode, storedMode := mode.byte } := by
  unfold inMode
  split_ifs
  · exact of_setMode s c mode
  · have hch := (c.setMode mode).changesOnly_setLearning false
    rw [of_eq_of_changesOnly s hch (by decide)]
    exact of_setMode s c mode

theorem of_setNodeNumber (s : MinimumNode) (c : Configuration) (number : UInt16) :
    Standing.of s (c.setNodeNumber number) =
      { Standing.of s c with number := number, storedNumber := number } := by
  have hch := c.changesOnly_setNodeNumber number
  unfold Standing.of
  rw [hch.mode (by decide), hch.storedMode (by decide), storedNumber_setNodeNumber]
  rfl

theorem standing_mk (s : MinimumNode) (t : Turn MinimumNode) :
    Turn.standing { self := s, shared := t.shared, trace := t.trace } =
      { t.standing with negotiation := s.negotiation } := rfl

theorem standing_put (a : Action) (t : Turn MinimumNode) : (t.put a).standing = t.standing :=
  (Unmoved.put ⟨rfl, rfl⟩ a).standing

theorem standing_reply (o : Opcode) (args : List UInt8) (t : Turn MinimumNode)
    (h : args.length ≤ 5) : (t.reply o args h).standing = t.standing :=
  standing_put _ t

theorem standing_setNodeNumber (number : UInt16) (t : Turn MinimumNode) :
    (t.configure (·.setNodeNumber number)).standing =
      { t.standing with number := number, storedNumber := number } :=
  of_setNodeNumber t.self t.config number

theorem standing_setHeartbeat (on : Bool) (t : Turn MinimumNode) :
    (t.configure (·.setHeartbeat on)).standing = t.standing :=
  of_eq_of_changesOnly t.self (t.config.changesOnly_setFlags _) (by decide)

theorem standing_switchMode (mode : Mode) (t : Turn MinimumNode) :
    (switchMode mode t).standing =
      { t.standing with mode := mode, storedMode := mode.byte } := by
  unfold switchMode
  rw [standing_put]
  exact of_inMode { t.self with heartbeatDue := none } t.config mode

theorem standing_beginNegotiation (now : Time) (t : Turn MinimumNode) :
    (beginNegotiation now t).standing = t.standing.enter now := by
  unfold beginNegotiation
  rw [standing_switchMode]
  rfl

theorem standing_cancelNegotiation {t : Turn MinimumNode} {n : Negotiation}
    (h : t.self.negotiation = some n) : (cancelNegotiation t).standing = t.standing.leave n := by
  unfold cancelNegotiation Standing.leave
  rw [h]
  dsimp only
  split_ifs
  · rw [standing_reply, standing_switchMode, standing_setNodeNumber, standing_mk]
  · rw [standing_switchMode, standing_mk]

theorem standing_acceptNumber (number : UInt16) (t : Turn MinimumNode) :
    (acceptNumber number t).standing = .settle number := by
  unfold acceptNumber
  dsimp only
  rw [standing_put, standing_reply, standing_switchMode, standing_setNodeNumber, standing_mk]
  rfl

/-! ### What moves it -/

theorem byte_of_modeCommand {b : UInt8} {k : ModeCommand} (h : ModeCommand.ofByte? b = some k) :
    b = k.byte := by
  have hfound := List.find?_some h
  exact (beq_iff_eq.1 hfound).symm

section Moves

variable {c : Cycle} {now : Time} {action : Option Action} {m : Message}
  {t t' : Turn MinimumNode}

theorem moves_advanceMode (h : action = some .advanceMode) :
    Moves now action t.standing (advanceMode now t).standing := by
  unfold advanceMode
  split
  · rename_i hmode
    rw [standing_reply, standing_put, standing_beginNegotiation]
    refine .enter ?_
    show Opens action t.standing.number t.config.mode
    rw [hmode]
    exact h
  · rename_i hmode
    rw [standing_reply, standing_beginNegotiation, standing_reply]
    refine .enter ?_
    show Opens action t.standing.number t.config.mode
    rw [hmode]
    exact Or.inl h
  · rename_i hmode
    rcases hn : t.self.negotiation with _ | n
    · rw [cancelNegotiation, hn]
      exact .stay
    · rw [standing_cancelNegotiation hn]
      exact .leave hmode h hn

theorem moves_renegotiate
    (h : action = some .renegotiate ∨ Commands .setup t.config.nodeNumber action) :
    Moves now action t.standing (renegotiate now t).standing := by
  unfold renegotiate
  split_ifs with hmode
  · rw [standing_reply, standing_beginNegotiation]
    refine .enter ?_
    show Opens action t.config.nodeNumber t.config.mode
    rw [hmode]
    exact Or.inr h
  · exact .stay

theorem moves_resume (h : Commands .normal t.config.nodeNumber action) :
    Moves now action t.standing (resume t).standing := by
  unfold resume
  split_ifs with hmode
  · rw [standing_switchMode]
    exact .resume hmode.1 hmode.2 h
  · exact .stay

theorem moves_obeyMode {command : UInt8} (hm : action = some (.received m))
    (ho : m.opcode? = some .mode) (hn : m.nodeNumber? = some t.config.nodeNumber)
    (hcommand : m.byte? 3 = some command) :
    Moves now action t.standing (obeyMode now command t).standing := by
  have hcommands : ∀ k, ModeCommand.ofByte? command = some k →
      Commands k t.config.nodeNumber action := by
    intro k hk
    rw [byte_of_modeCommand hk] at hcommand
    exact ⟨m, hm, ho, hn, hcommand⟩
  unfold obeyMode
  split
  · rename_i hk
    exact moves_renegotiate (Or.inr (hcommands .setup hk))
  · rename_i hk
    exact moves_resume (hcommands .normal hk)
  · rw [standing_setHeartbeat]
    exact .stay
  · rw [standing_setHeartbeat]
    exact .stay
  · exact .stay
  · rw [(Unmoved.respond ⟨rfl, rfl⟩ _ _ _).standing]
    exact .stay

theorem moves_obeyAssignment (hm : action = some (.received m)) (ho : m.opcode? = some .snn) :
    Moves now action t.standing (obeyAssignment m t).standing := by
  unfold obeyAssignment
  split_ifs with hmode
  · split
    · exact .stay
    · rename_i number hnumber
      split_ifs with hzero
      · exact .stay
      · rw [standing_acceptNumber]
        exact .settle hmode ⟨m, hm, ho, hnumber⟩ hzero
  · exact .stay

theorem moves_handleNamed {o : Opcode} (hm : action = some (.received m))
    (ho : m.opcode? = some o) (hn : m.nodeNumber? = some t.config.nodeNumber)
    (h : handleNamed c m o t = .ok t') : Moves c.now action t.standing t'.standing := by
  unfold handleNamed at h
  split at h
  · rw [← Except.ok.inj h, unmoved_answerParameter.standing]
    exact .stay
  · contradiction
  · contradiction
  · split at h
    · rw [← Except.ok.inj h]
      exact .stay
    · rename_i command hcommand
      rw [← Except.ok.inj h]
      exact moves_obeyMode hm ho hn hcommand
  · rw [← Except.ok.inj h, unmoved_answerServices.standing]
    exact .stay
  · rw [← Except.ok.inj h, unmoved_answerDiagnostics.standing]
    exact .stay
  · rw [← Except.ok.inj h]
    exact .stay

theorem moves_handle (hm : action = some (.received m)) (h : handle c m t = .ok t') :
    Moves c.now action t.standing t'.standing := by
  unfold handle at h
  split at h
  · rw [← Except.ok.inj h]
    exact .stay
  · rw [← Except.ok.inj h]
    split_ifs
    · exact .stay
    · rw [unmoved_introduce.standing]
      exact .stay
  · rw [← Except.ok.inj h]
    split_ifs
    · rw [Turn.send, standing_put]
      exact .stay
    · exact .stay
  · rw [← Except.ok.inj h]
    split_ifs
    · rw [Turn.send, standing_put]
      exact .stay
    · exact .stay
  · rename_i ho
    rw [← Except.ok.inj h]
    exact moves_obeyAssignment hm ho
  · rename_i ho
    split_ifs at h with hnamed
    · exact moves_handleNamed hm ho (beq_iff_eq.1 hnamed) h
    · rw [← Except.ok.inj h]
      exact .stay

/-- The action of the cycle moves the standing in one of the five ways. -/
theorem moves_react (h : react c t = .ok t') :
    Moves c.now c.action t.standing t'.standing := by
  unfold react at h
  split at h
  · rename_i ha
    rw [← Except.ok.inj h]
    exact moves_advanceMode ha
  · rename_i ha
    rw [← Except.ok.inj h]
    exact moves_renegotiate (Or.inl ha)
  · rename_i m ha
    exact moves_handle ha h
  · rw [← Except.ok.inj h]
    exact .stay

/-- Time can only end a negotiation that has taken too long. -/
theorem standing_poll (h : poll c t = .ok t') :
    t'.standing = t.standing ∨ ∃ n, t.standing.negotiation = some n ∧
      c.timing.negotiationLimit ≤ Time.elapsed c.now n.started ∧
      t'.standing = t.standing.leave n := by
  have hlisting := (unmoved_pollListing h).standing
  rw [unmoved_pollHeartbeat.standing] at hlisting
  rw [hlisting]
  unfold pollNegotiation
  split
  · exact Or.inl rfl
  · rename_i n hn
    split_ifs with hlate
    · exact Or.inr ⟨n, hn, hlate, standing_cancelNegotiation hn⟩
    · exact Or.inl rfl

/-- In a turn the action moves the standing, and then a negotiation may run out of time. -/
theorem passes_turn (h : turn c t = .ok t') :
    Passes c.now c.timing.negotiationLimit c.action t.standing t'.standing := by
  rw [turn_eq] at h
  obtain ⟨u, hu, hpoll⟩ := bind_eq_ok_iff.1 h
  have hnote : (noteStart c t).standing = t.standing := rfl
  refine ⟨u.standing, ?_, standing_poll hpoll⟩
  rw [← hnote]
  exact moves_react hu

end Moves

end MinimumNode

end RailNode
