import RailNode.Proofs.Service.Listings.Basic
import RailNode.Proofs.Service.Standing

/-
  How long a negotiation lasts. The action of a cycle begins a negotiation (`Standing.Opens`), ends
  one (`Standing.Ends`) or leaves it (`Responds`), and then the time that the negotiation has may be
  over (`Expires`). A turn of the service is the one after the other (`responds_turn`). Together
  with the standing it says which confirmations of a number go out.
-/
namespace RailNode

/-- What confirms a negotiation that is given up: the number before it, if the node had one. -/
def Negotiation.confirmations (g : Negotiation) : List Action :=
  if g.previousMode = .normal then
    [.transmit (.addressed Opcode.nnack.byte g.previousNumber [])]
  else []

namespace Standing

variable {now limit : Time} {action : Option Action} {x y z : Standing} {g : Negotiation}
  {acks : List Action}

/-! ## Negotiations and setup -/

/-- In setup and only there a node remembers a negotiation, and that it comes from another mode. -/
structure Tied (x : Standing) : Prop where
  isSome_iff : x.negotiation.isSome ↔ x.mode = .setup
  previousMode : ∀ g, x.negotiation = some g → g.previousMode ≠ .setup

namespace Tied

theorem negotiation_of_ne (h : x.Tied) (hm : x.mode ≠ .setup) : x.negotiation = none := by
  rw [Ne, ← h.isSome_iff, Option.not_isSome_iff_eq_none] at hm
  exact hm

theorem exists_of_setup (h : x.Tied) (hm : x.mode = .setup) : ∃ g, x.negotiation = some g :=
  Option.isSome_iff_exists.1 (h.isSome_iff.2 hm)

/-- A node that negotiates nothing and is not in setup. -/
theorem of_none (hn : x.negotiation = none) (hm : x.mode ≠ .setup) : x.Tied where
  isSome_iff := by
    rw [hn]
    exact iff_of_false (by decide) hm
  previousMode g hg := by
    rw [hn] at hg
    contradiction

theorem enter (hm : x.mode ≠ .setup) : (x.enter now).Tied where
  isSome_iff := iff_of_true rfl rfl
  previousMode g hg := by
    rw [← Option.some.inj hg]
    exact hm

end Tied

theorem Opens.mode_ne (h : Opens action x.number x.mode) : x.mode ≠ .setup := by
  intro hm
  rw [hm] at h
  exact h

/-! ## What becomes of a negotiation -/

/-- The action ends the negotiation of a node with this number: the user gives it up, a number is
    assigned, or a command makes the node go back to normal mode with the number it has. -/
def Ends (action : Option Action) (number : UInt16) : Prop :=
  action = some .advanceMode ∨ (∃ k, k ≠ 0 ∧ Assigns k action) ∨
    number ≠ 0 ∧ Commands .normal number action

/-- What the action of a cycle does to a negotiation, and what it confirms. -/
inductive Responds (now : Time) (action : Option Action) (x : Standing) :
    Standing → List Action → Prop
  | idle : x.mode ≠ .setup → ¬ Opens action x.number x.mode → Responds now action x x []
  | opens : Opens action x.number x.mode → Responds now action x (x.enter now) []
  | goesOn : x.mode = .setup → ¬ Ends action x.number → Responds now action x x []
  | ends {y : Standing} {acks : List Action} : x.mode = .setup → Ends action x.number →
      y.mode ≠ .setup → y.negotiation = none → Responds now action x y acks

/-- What time does to a negotiation, and what is confirmed then. -/
inductive Expires (now limit : Time) (y : Standing) : Standing → List Action → Prop
  | nothing : y.negotiation = none → Expires now limit y y []
  | inTime {g : Negotiation} : y.negotiation = some g → Time.elapsed now g.started < limit →
      Expires now limit y y []
  | late {g : Negotiation} : y.negotiation = some g → limit ≤ Time.elapsed now g.started →
      Expires now limit y (y.leave g) g.confirmations

/-- What a turn does to a negotiation, and what it confirms. -/
def Negotiates (now limit : Time) (action : Option Action) (x z : Standing)
    (acks : List Action) : Prop :=
  ∃ y first last, Responds now action x y first ∧ Expires now limit y z last ∧
    acks = first ++ last

theorem Expires.eq_of_none (h : Expires now limit y z acks) (hy : y.negotiation = none) :
    z = y ∧ acks = [] := by
  cases h with
  | nothing _ => exact ⟨rfl, rfl⟩
  | inTime hg _ =>
    rw [hy] at hg
    contradiction
  | late hg _ =>
    rw [hy] at hg
    contradiction

theorem Expires.eq_of_inTime (h : Expires now limit y z acks) (hy : y.negotiation = some g)
    (ht : Time.elapsed now g.started < limit) : z = y ∧ acks = [] := by
  cases h with
  | nothing _ => exact ⟨rfl, rfl⟩
  | inTime _ _ => exact ⟨rfl, rfl⟩
  | late hg hlate =>
    rw [hy] at hg
    rw [Option.some.inj hg] at ht
    exact absurd hlate (Nat.not_le.2 ht)

theorem Expires.eq_of_late (h : Expires now limit y z acks) (hy : y.negotiation = some g)
    (ht : limit ≤ Time.elapsed now g.started) : z = y.leave g ∧ acks = g.confirmations := by
  cases h with
  | nothing hnone =>
    rw [hy] at hnone
    contradiction
  | inTime hg hlt =>
    rw [hy] at hg
    rw [Option.some.inj hg] at ht
    exact absurd ht (Nat.not_le.2 hlt)
  | late hg _ =>
    rw [hy] at hg
    rw [Option.some.inj hg]
    exact ⟨rfl, rfl⟩

namespace Negotiates

/-- A negotiation that begins. -/
theorem of_opens (h : Negotiates now limit action x z acks)
    (hopens : Opens action x.number x.mode) : Expires now limit (x.enter now) z acks := by
  obtain ⟨y, first, last, hresponds, hexpires, rfl⟩ := h
  cases hresponds with
  | idle _ hnot => exact absurd hopens hnot
  | opens _ => exact hexpires
  | goesOn hm _ => exact absurd hm hopens.mode_ne
  | ends hm _ _ _ => exact absurd hm hopens.mode_ne

/-- A negotiation that nothing but time can end. -/
theorem of_not_ends (h : Negotiates now limit action x z acks) (hm : x.mode = .setup)
    (hends : ¬ Ends action x.number) : Expires now limit x z acks := by
  obtain ⟨y, first, last, hresponds, hexpires, rfl⟩ := h
  cases hresponds with
  | idle hne _ => exact absurd hm hne
  | opens hopens => exact absurd hm hopens.mode_ne
  | goesOn _ _ => exact hexpires
  | ends _ hdone _ _ => exact absurd hdone hends

/-- A negotiation that is ended. -/
theorem of_ends (h : Negotiates now limit action x z acks) (hm : x.mode = .setup)
    (hends : Ends action x.number) : z.mode ≠ .setup := by
  obtain ⟨y, first, last, hresponds, hexpires, rfl⟩ := h
  cases hresponds with
  | idle hne _ => exact absurd hm hne
  | opens hopens => exact absurd hm hopens.mode_ne
  | goesOn _ hnot => exact absurd hends hnot
  | ends _ _ hmode hnone =>
    rw [(hexpires.eq_of_none hnone).1]
    exact hmode

/-- A node that is not in setup stays out of it when nothing begins. -/
theorem of_idle (h : Negotiates now limit action x z acks) (hx : x.Tied)
    (hm : x.mode ≠ .setup) (hopens : ¬ Opens action x.number x.mode) : z = x ∧ acks = [] := by
  obtain ⟨y, first, last, hresponds, hexpires, rfl⟩ := h
  cases hresponds with
  | idle _ _ => exact hexpires.eq_of_none (hx.negotiation_of_ne hm)
  | opens hdoes => exact absurd hdoes hopens
  | goesOn hsetup _ => exact absurd hsetup hm
  | ends hsetup _ _ _ => exact absurd hsetup hm

theorem tied (h : Negotiates now limit action x z acks) (hx : x.Tied) : z.Tied := by
  obtain ⟨y, first, last, hresponds, hexpires, rfl⟩ := h
  have hy : y.Tied := by
    cases hresponds with
    | idle _ _ => exact hx
    | opens hopens => exact .enter hopens.mode_ne
    | goesOn _ _ => exact hx
    | ends _ _ hmode hnone => exact .of_none hnone hmode
  cases hexpires with
  | nothing _ => exact hy
  | inTime _ _ => exact hy
  | @late g hg _ =>
    refine .of_none (negotiation_leave g y) ?_
    rw [mode_leave]
    exact hy.previousMode g hg

end Negotiates

end Standing

/-! ## The turn of the service -/

open Turn

namespace MinimumNode

open Standing

variable {c : Cycle} {m : Message} {k : ModeCommand} {t t' u : Turn MinimumNode}

/-! ### The action -/

theorem sent_nnack_reply {o : Opcode} {args : List UInt8} {hargs : args.length ≤ 5}
    (ho : o ≠ .nnack) (t : Turn MinimumNode) :
    (t.reply o args hargs).sent .nnack = t.sent .nnack := by
  have hspeaks : Speaks [o] t (t.reply o args hargs) :=
    (Speaks.refl t).reply o args hargs (List.mem_append_left _ (List.mem_singleton.2 rfl))
  refine hspeaks.sent_eq ?_
  simp [Opcode.responses, ho.symm]

/-- A MODE message for the node with a command. -/
theorem handle_of_mode (ho : m.opcode? = some .mode)
    (hn : m.nodeNumber? = some t.config.nodeNumber) (hk : m.byte? 3 = some k.byte) :
    handle c m t = .ok (obeyMode c.now k.byte t) := by
  have hnamed : t.isNamedBy m = true := by
    rw [isNamedBy, hn]
    exact beq_self_eq_true _
  rw [handle, ho]
  simp only [hnamed, if_true, handleNamed, hk]

/-- What opens a negotiation begins it now, and the heart stops. -/
theorem begins_of_opens (h : react c t = .ok u)
    (hopens : Opens c.action t.config.nodeNumber t.config.mode) :
    u.standing = t.standing.enter c.now ∧ u.self.heartbeatDue = none := by
  have hrenegotiate : t.config.mode = .normal →
      (renegotiate c.now t).standing = t.standing.enter c.now ∧
        (renegotiate c.now t).self.heartbeatDue = none := by
    intro hmode
    rw [renegotiate, if_pos hmode, standing_reply, standing_beginNegotiation]
    exact ⟨rfl, rfl⟩
  cases hmode : t.config.mode with
  | uninitialised =>
    rw [hmode] at hopens
    have haction : c.action = some .advanceMode := hopens
    rw [react, haction] at h
    rw [← Except.ok.inj h, advanceMode, hmode]
    refine ⟨?_, rfl⟩
    show (Turn.reply _ _ _ _).standing = _
    rw [standing_reply, standing_put, standing_beginNegotiation]
  | setup =>
    rw [hmode] at hopens
    exact hopens.elim
  | normal =>
    rw [hmode] at hopens
    rcases hopens with haction | haction | ⟨m, haction, ho, hn, hk⟩
    · rw [react, haction] at h
      rw [← Except.ok.inj h, advanceMode, hmode]
      refine ⟨?_, rfl⟩
      show (Turn.reply _ _ _ _).standing = _
      rw [standing_reply, standing_beginNegotiation, standing_reply]
    · rw [react, haction] at h
      rw [← Except.ok.inj h]
      exact hrenegotiate hmode
    · rw [react, haction] at h
      have heq : Except.ok (renegotiate c.now t) = Except.ok u :=
        (handle_of_mode ho hn hk).symm.trans h
      rw [← Except.ok.inj heq]
      exact hrenegotiate hmode

/-- What ends a negotiation leaves none, and another mode. -/
theorem standing_of_ends (h : react c t = .ok u) (ht : t.standing.Tied)
    (hm : t.config.mode = .setup) (hends : Ends c.action t.config.nodeNumber) :
    u.standing.mode ≠ .setup ∧ u.standing.negotiation = none := by
  obtain ⟨g, hg⟩ := ht.exists_of_setup hm
  have hnormal : Mode.normal ≠ .setup := by decide
  rcases hends with haction | ⟨number, hne, m, haction, ho, hn⟩ | ⟨hne, m, haction, ho, hn, hk⟩
  · rw [react, haction] at h
    rw [← Except.ok.inj h, advanceMode, hm]
    show (cancelNegotiation t).standing.mode ≠ .setup ∧ _
    rw [standing_cancelNegotiation hg, mode_leave, negotiation_leave]
    exact ⟨ht.previousMode g hg, rfl⟩
  · rw [react, haction] at h
    have heq : obeyAssignment m t = u := by
      simp only [handle, ho] at h
      exact Except.ok.inj h
    rw [← heq, obeyAssignment, if_pos hm, hn]
    dsimp only
    rw [if_neg hne, standing_acceptNumber]
    exact ⟨hnormal, rfl⟩
  · rw [react, haction] at h
    have heq : Except.ok (resume t) = Except.ok u := (handle_of_mode ho hn hk).symm.trans h
    rw [← Except.ok.inj heq, resume, if_pos ⟨hm, hne⟩, standing_switchMode]
    exact ⟨hnormal, rfl⟩

/-- An action that opens no negotiation and ends none leaves the standing as it is. -/
theorem standing_of_neither (h : react c t = .ok u)
    (hopens : ¬ Opens c.action t.config.nodeNumber t.config.mode)
    (hends : t.config.mode = .setup → ¬ Ends c.action t.config.nodeNumber) :
    u.standing = t.standing := by
  have hmoves := moves_react h
  generalize u.standing = y at hmoves
  cases hmoves with
  | stay => rfl
  | enter hdoes => exact absurd hdoes hopens
  | leave hm haction _ => exact absurd (Or.inl haction) (hends hm)
  | settle hm hassigns hne => exact absurd (Or.inr (Or.inl ⟨_, hne, hassigns⟩)) (hends hm)
  | resume hm hne hcommands => exact absurd (Or.inr (Or.inr ⟨hne, hcommands⟩)) (hends hm)

/-- Only what ends a negotiation confirms a number. -/
theorem sent_nnack_react (h : react c t = .ok u)
    (hends : t.config.mode = .setup → ¬ Ends c.action t.config.nodeNumber) :
    u.sent .nnack = t.sent .nnack := by
  unfold react at h
  split at h
  · rename_i haction
    rw [← Except.ok.inj h]
    unfold advanceMode
    split
    · rw [sent_nnack_reply (by decide)]
      exact ((speaks_beginNegotiation c.now t).put_other _ rfl rfl : Speaks [] t _).sent_eq
        (by decide)
    · rw [sent_nnack_reply (by decide),
        (speaks_beginNegotiation c.now _ : Speaks [] _ _).sent_eq (by decide),
        sent_nnack_reply (by decide)]
    · rename_i hm
      exact absurd (Or.inl haction) (hends hm)
  · rw [← Except.ok.inj h]
    exact (speaks_renegotiate c.now t).sent_eq (by decide)
  · rename_i m haction
    by_cases ho : m.opcode? = some .snn
    · have heq : obeyAssignment m t = u := by
        simp only [handle, ho] at h
        exact Except.ok.inj h
      rw [← heq]
      unfold obeyAssignment
      split_ifs with hm
      · split
        · rfl
        · rename_i number hnumber
          split_ifs with hzero
          · rfl
          · exact absurd (Or.inr (Or.inl ⟨number, hzero, m, haction, ho, hnumber⟩)) (hends hm)
      · rfl
    · refine (speaks_handle_of_ne h ho).sent_eq fun hmem => ?_
      rw [List.append_assoc] at hmem
      rcases List.mem_append.1 hmem with hmem | hmem
      · exact absurd (repliesTo_subset t.config m hmem) (by decide)
      · exact absurd hmem (by decide)
  · rw [← Except.ok.inj h]

theorem responds_react (h : react c t = .ok u) (ht : t.standing.Tied) : ∃ acks,
    Responds c.now c.action t.standing u.standing acks ∧
      u.sent .nnack = t.sent .nnack ++ acks := by
  by_cases hm : t.config.mode = .setup
  · by_cases hends : Ends c.action t.config.nodeNumber
    · obtain ⟨hmode, hnone⟩ := standing_of_ends h ht hm hends
      obtain ⟨as, has, _⟩ := (speaks_react h).adds
      refine ⟨as.filter (·.sends .nnack), .ends hm hends hmode hnone, ?_⟩
      rw [sent, has.given, List.filter_append]
      rfl
    · have hopens : ¬ Opens c.action t.config.nodeNumber t.config.mode := by
        rw [hm]
        exact id
      refine ⟨[], ?_, ?_⟩
      · rw [standing_of_neither h hopens fun _ => hends]
        exact .goesOn hm hends
      · rw [sent_nnack_react h fun _ => hends, List.append_nil]
  · have hquiet : u.sent .nnack = t.sent .nnack ++ [] := by
      rw [sent_nnack_react h fun hsetup => absurd hsetup hm, List.append_nil]
    by_cases hopens : Opens c.action t.config.nodeNumber t.config.mode
    · refine ⟨[], ?_, hquiet⟩
      rw [(begins_of_opens h hopens).1]
      exact .opens hopens
    · refine ⟨[], ?_, hquiet⟩
      rw [standing_of_neither h hopens fun hsetup => absurd hsetup hm]
      exact .idle hm hopens

/-! ### The time -/

theorem sent_cancelNegotiation {g : Negotiation} (h : t.self.negotiation = some g) :
    (cancelNegotiation t).sent .nnack = t.sent .nnack ++ g.confirmations := by
  have hswitch : ∀ (mode : Mode) (t : Turn MinimumNode),
      (switchMode mode t).sent .nnack = t.sent .nnack := fun mode t =>
    (speaks_switchMode mode t : Speaks [] _ _).sent_eq (by decide)
  unfold cancelNegotiation Negotiation.confirmations
  rw [h]
  dsimp only
  split_ifs with hmode
  · have hnumber : ∀ t : Turn MinimumNode,
        (switchMode .normal (t.configure (·.setNodeNumber g.previousNumber))).config.nodeNumber =
          g.previousNumber := fun t => by
      have hstanding := standing_switchMode .normal (t.configure (·.setNodeNumber g.previousNumber))
      exact congrArg Standing.number hstanding
    rw [sent_reply_self, hswitch, hnumber]
    rfl
  · rw [hswitch, List.append_nil]
    rfl

theorem expires_poll (h : poll c t = .ok t') : ∃ acks,
    Expires c.now c.timing.negotiationLimit t.standing t'.standing acks ∧
      t'.sent .nnack = t.sent .nnack ++ acks := by
  have hstanding : t'.standing =
      (pollNegotiation c.now c.timing.negotiationLimit t).standing := by
    rw [(unmoved_pollListing h).standing, unmoved_pollHeartbeat.standing]
  have hsent : t'.sent .nnack =
      (pollNegotiation c.now c.timing.negotiationLimit t).sent .nnack := by
    rw [(speaks_pollListing h).sent_eq (by decide),
      (speaks_pollHeartbeat _ _ _).sent_eq (by decide)]
  rw [hstanding, hsent]
  unfold pollNegotiation
  split
  · rename_i hnone
    exact ⟨[], .nothing hnone, (List.append_nil _).symm⟩
  · rename_i g hg
    split_ifs with hlate
    · refine ⟨g.confirmations, ?_, sent_cancelNegotiation hg⟩
      rw [standing_cancelNegotiation hg]
      exact .late hg hlate
    · exact ⟨[], .inTime hg (Nat.not_le.1 hlate), (List.append_nil _).symm⟩

/-- A turn is what the action does to a negotiation, and then what time does. -/
theorem negotiates_turn (h : turn c t = .ok t') (ht : t.standing.Tied) : ∃ acks,
    Negotiates c.now c.timing.negotiationLimit c.action t.standing t'.standing acks ∧
      t'.sent .nnack = t.sent .nnack ++ acks := by
  rw [turn_eq] at h
  obtain ⟨u, hu, hpoll⟩ := bind_eq_ok_iff.1 h
  obtain ⟨first, hresponds, hfirst⟩ := responds_react (t := noteStart c t) hu ht
  obtain ⟨last, hexpires, hlast⟩ := expires_poll hpoll
  refine ⟨first ++ last, ⟨u.standing, first, last, hresponds, hexpires, rfl⟩, ?_⟩
  rw [hlast, hfirst, List.append_assoc]
  rfl

end MinimumNode

end RailNode
