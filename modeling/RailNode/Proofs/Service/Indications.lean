import RailNode.Proofs.Service.Refusals.Basic

/-
  What the services show of the mode. Only the service that every node has changes the mode, and
  with every change it queues an action that shows the new one. So after any turn the mode is the
  one that was shown last in it, or the mode is as it was (`Service.shows_turn`).
-/
namespace RailNode

/-! ## Actions that show a mode -/

/-- The mode that an action shows. -/
def Action.shownMode? : Action → Option Mode
  | showMode m => some m
  | _ => none

namespace Mode

variable {m : Mode} {as bs : List Action}

/-- What is shown after these actions where a mode was shown before: the last mode among them. -/
def shownAfter (m : Mode) (as : List Action) : Mode :=
  (as.filterMap Action.shownMode?).getLast?.getD m

theorem shownAfter_append (m : Mode) (as bs : List Action) :
    m.shownAfter (as ++ bs) = (m.shownAfter as).shownAfter bs := by
  unfold shownAfter
  rw [List.filterMap_append, List.getLast?_append]
  rcases (bs.filterMap Action.shownMode?).getLast? with _ | m' <;> rfl

/-- Actions that show no mode leave what is shown. -/
theorem shownAfter_of_forall (h : ∀ a ∈ as, a.shownMode? = none) : m.shownAfter as = m := by
  rw [shownAfter, List.filterMap_eq_nil_iff.2 h]
  rfl

end Mode

/-! ## Turns -/

namespace Turn

variable {σ τ υ : Type} {t : Turn σ} {t' : Turn τ} {t'' : Turn υ}

/-- From `t` to `t'` no mode has been shown. -/
def Hides (t : Turn σ) (t' : Turn τ) : Prop := Gives (fun a => a.shownMode? = none) t t'

namespace Hides

theorem same (h : t'.trace.queued = t.trace.queued) : Hides t t' := Gives.same h

theorem refl (t : Turn σ) : Hides t t := .same rfl

theorem trans (h : Hides t t') (h' : Hides t' t'') : Hides t t'' := Gives.trans h h'

theorem put (h : Hides t t') {a : Action} (ha : a.shownMode? = none) : Hides t (t'.put a) :=
  Gives.put h ha

theorem configure (h : Hides t t') (f : Configuration → Configuration) :
    Hides t (t'.configure f) :=
  h.trans (.same rfl)

theorem offer (h : Hides t t') (f : Frame) : Hides t (t'.offer f) := h.trans (.same rfl)

theorem reply (h : Hides t t') (o : Opcode) (args : List UInt8) (hargs : args.length ≤ 5) :
    Hides t (t'.reply o args hargs) :=
  h.put rfl

theorem respond (h : Hides t t') (o : Opcode) (service : ServiceId) (r : ResponseCode) :
    Hides t (t'.respond o service r) :=
  h.reply _ _ _

theorem refuse (h : Hides t t') (o : Opcode) (service : ServiceId) (e : CommandError) :
    Hides t (t'.refuse o service e) :=
  (h.reply _ _ _).respond _ _ _

theorem confirm (h : Hides t t') (o : Opcode) (service : ServiceId) :
    Hides t (t'.confirm o service) :=
  (h.reply _ _ _).respond _ _ _

end Hides

/-- From `t` to `t'` the mode has become the one that was shown last, or is as it was. -/
def Shows (t : Turn σ) (t' : Turn τ) : Prop :=
  ∃ as, t'.given = t.given ++ as ∧ t'.config.mode = t.config.mode.shownAfter as

namespace Shows

theorem of_hides (h : Hides t t') (hmode : t'.config.mode = t.config.mode) : Shows t t' := by
  obtain ⟨as, has, hnone⟩ := h
  exact ⟨as, has, hmode.trans (Mode.shownAfter_of_forall hnone).symm⟩

theorem same (hqueued : t'.trace.queued = t.trace.queued)
    (hmode : t'.config.mode = t.config.mode) : Shows t t' :=
  of_hides (.same hqueued) hmode

theorem refl (t : Turn σ) : Shows t t := .same rfl rfl

theorem trans (h : Shows t t') (h' : Shows t' t'') : Shows t t'' := by
  obtain ⟨as, has, hmode⟩ := h
  obtain ⟨bs, hbs, hmode'⟩ := h'
  refine ⟨as ++ bs, by rw [hbs, has, List.append_assoc], ?_⟩
  rw [hmode', hmode, Mode.shownAfter_append]

/-- The mode that is shown is that of the configuration. -/
theorem show_mode (hqueued : t'.trace.queued = t.trace.queued) :
    Shows t (t'.put (.showMode t'.config.mode)) := by
  refine ⟨[.showMode t'.config.mode], ?_, rfl⟩
  rw [given_put, given, given, hqueued]

theorem reply (h : Shows t t') (o : Opcode) (args : List UInt8) (hargs : args.length ≤ 5) :
    Shows t (t'.reply o args hargs) :=
  h.trans (.of_hides ((Hides.refl t').reply _ _ _) (by rw [config_reply]))

theorem put (h : Shows t t') {a : Action} (ha : a.shownMode? = none) : Shows t (t'.put a) :=
  h.trans (.of_hides ((Hides.refl t').put ha) (by rw [config_put]))

end Shows

end Turn

open Turn

/-! ## The minimum node -/

namespace MinimumNode

variable {c : Cycle} {m : Message} {t t' : Turn MinimumNode}

theorem mode_inMode (mode : Mode) (d : Configuration) : (inMode mode d).mode = mode := by
  unfold inMode
  split_ifs <;> rfl

theorem shows_switchMode (mode : Mode) (t : Turn MinimumNode) : Shows t (switchMode mode t) := by
  have hmode : ((switchMode mode t).config).mode = mode := by
    rw [config_switchMode, mode_inMode]
  have hshown : Shows t
      (({ t with self.heartbeatDue := none }.configure (inMode mode)).put (.showMode _)) :=
    .show_mode rfl
  rw [config_configure, mode_inMode] at hshown
  exact hshown

theorem shows_beginNegotiation (now : Time) (t : Turn MinimumNode) :
    Shows t (beginNegotiation now t) := by
  refine .trans ?_ (shows_switchMode _ _)
  exact .same rfl rfl

theorem shows_cancelNegotiation (t : Turn MinimumNode) : Shows t (cancelNegotiation t) := by
  unfold cancelNegotiation
  split
  · exact .refl t
  · dsimp only
    split_ifs
    · refine .reply (.trans ?_ (shows_switchMode _ _)) _ _ _
      exact .same rfl rfl
    · refine .trans ?_ (shows_switchMode _ _)
      exact .same rfl rfl

theorem shows_obeyAssignment (m : Message) (t : Turn MinimumNode) :
    Shows t (obeyAssignment m t) := by
  unfold obeyAssignment
  split_ifs
  · split
    · exact .refl t
    · split_ifs
      · exact .refl t
      · refine .put (.reply (.trans ?_ (shows_switchMode _ _)) _ _ _) rfl
        exact .same rfl rfl
  · exact .refl t

theorem shows_renegotiate (now : Time) (t : Turn MinimumNode) : Shows t (renegotiate now t) := by
  unfold renegotiate
  split_ifs
  · exact (shows_beginNegotiation now t).reply _ _ _
  · exact .refl t

theorem shows_advanceMode (now : Time) (t : Turn MinimumNode) : Shows t (advanceMode now t) := by
  unfold advanceMode
  split
  · exact ((shows_beginNegotiation now t).put rfl).reply _ _ _
  · exact (((Shows.refl t).reply _ _ _).trans (shows_beginNegotiation now _)).reply _ _ _
  · exact shows_cancelNegotiation t

theorem shows_obeyMode (now : Time) (command : UInt8) (t : Turn MinimumNode) :
    Shows t (obeyMode now command t) := by
  unfold obeyMode resume
  split
  · exact shows_renegotiate now t
  · split_ifs
    · refine .trans ?_ (shows_switchMode _ _)
      exact .same rfl rfl
    · exact .refl t
  · exact .same rfl rfl
  · exact .same rfl rfl
  · exact .refl t
  · exact (Shows.refl t).reply _ _ _

/-! ### Answers -/

theorem hides_answerParameter : Hides t (answerParameter c m t) := by
  unfold answerParameter sendParameter
  split
  · exact (Hides.refl t).refuse _ _ _
  · split_ifs
    · refine .reply ?_ _ _ _
      exact .same rfl
    · exact (Hides.refl t).reply _ _ _
    · exact (Hides.refl t).refuse _ _ _

theorem hides_answerServices : Hides t (answerServices c m t) := by
  unfold answerServices
  split
  · exact .refl t
  · split_ifs
    · refine .reply ?_ _ _ _
      exact .same rfl
    · split
      · exact (Hides.refl t).reply _ _ _
      · exact (Hides.refl t).respond _ _ _

theorem hides_answerDiagnostics : Hides t (answerDiagnostics c m t) := by
  unfold answerDiagnostics
  split
  · exact .refl t
  · split_ifs
    · exact (Hides.refl t).respond _ _ _
    · exact .refl t

theorem shows_handle (h : handle c m t = .ok t') : Shows t t' := by
  unfold handle at h
  split at h
  · exact Except.ok.inj h ▸ .refl t
  · rw [← Except.ok.inj h]
    split_ifs
    · exact .refl t
    · exact (Shows.refl t).reply _ _ _
  · rw [← Except.ok.inj h]
    split_ifs
    · exact (Shows.refl t).put rfl
    · exact .refl t
  · rw [← Except.ok.inj h]
    split_ifs
    · exact (Shows.refl t).put rfl
    · exact .refl t
  · exact Except.ok.inj h ▸ shows_obeyAssignment m t
  · split_ifs at h
    · unfold handleNamed at h
      split at h
      · rw [← Except.ok.inj h]
        exact .of_hides hides_answerParameter (by rw [unmoved_answerParameter.config])
      · contradiction
      · contradiction
      · split at h
        · exact Except.ok.inj h ▸ .refl t
        · exact Except.ok.inj h ▸ shows_obeyMode _ _ t
      · rw [← Except.ok.inj h]
        exact .of_hides hides_answerServices (by rw [unmoved_answerServices.config])
      · rw [← Except.ok.inj h]
        exact .of_hides hides_answerDiagnostics (by rw [unmoved_answerDiagnostics.config])
      · exact Except.ok.inj h ▸ .refl t
    · exact Except.ok.inj h ▸ .refl t

theorem shows_react (h : react c t = .ok t') : Shows t t' := by
  unfold react at h
  split at h
  · exact Except.ok.inj h ▸ shows_advanceMode _ t
  · exact Except.ok.inj h ▸ shows_renegotiate _ t
  · exact shows_handle h
  · exact Except.ok.inj h ▸ .refl t

/-! ### What is due -/

theorem shows_pollNegotiation (now limit : Time) (t : Turn MinimumNode) :
    Shows t (pollNegotiation now limit t) := by
  unfold pollNegotiation
  split
  · exact .refl t
  · split_ifs
    · exact shows_cancelNegotiation t
    · exact .refl t

theorem hides_pollHeartbeat (now interval : Time) (t : Turn MinimumNode) :
    Hides t (pollHeartbeat now interval t) := by
  unfold pollHeartbeat
  split_ifs
  · dsimp only
    split_ifs
    · exact .same rfl
    · refine .reply ?_ _ _ _
      exact .same rfl
  · exact .same rfl

theorem hides_pollListing (h : pollListing c t = .ok t') : Hides t t' := by
  unfold pollListing at h
  split at h
  · exact Except.ok.inj h ▸ .refl t
  · dsimp only at h
    split at h
    · exact Except.ok.inj h ▸ .same rfl
    · unfold report at h
      split at h
      · rw [← Except.ok.inj h]
        refine .reply ?_ _ _ _
        exact .same rfl
      · obtain ⟨info, _, rfl⟩ := map_eq_ok_iff.1 h
        refine .reply ?_ _ _ _
        exact .same rfl

theorem shows_turn (h : turn c t = .ok t') : Shows t t' := by
  rw [turn_eq] at h
  obtain ⟨u, hu, h⟩ := bind_eq_ok_iff.1 h
  have hreact : Shows t u := by
    refine .trans ?_ (shows_react (t := noteStart c t) hu)
    exact .same rfl rfl
  have hheartbeat := hides_pollHeartbeat c.now c.timing.heartbeatInterval
    (pollNegotiation c.now c.timing.negotiationLimit u)
  have hnegotiation := shows_pollNegotiation c.now c.timing.negotiationLimit u
  refine (hreact.trans hnegotiation).trans ?_
  exact .of_hides (hheartbeat.trans (hides_pollListing h)) (by rw [config_poll h])

end MinimumNode

/-! ## Services that leave the mode -/

namespace VariableAccess

variable {c : Cycle} {m : Message} {t t' : Turn VariableAccess}

theorem hides_sendVariable {index : Nat} (h : sendVariable index t = .ok t') : Hides t t' := by
  obtain ⟨value, _, rfl⟩ := map_eq_ok_iff.1 h
  exact (Hides.refl t).reply _ _ _

theorem hides_answerRead : Hides t (answerRead c m t) := by
  unfold answerRead sendValue
  split
  · exact (Hides.refl t).refuse _ _ _
  · split_ifs
    · refine .reply ?_ _ _ _
      exact .same rfl
    · split
      · exact (Hides.refl t).reply _ _ _
      · exact (Hides.refl t).refuse _ _ _

theorem hides_obeyWrite {command : Opcode}
    {andThen : Nat → Turn VariableAccess → Except Halt (Turn VariableAccess)}
    (hthen : ∀ {index : Nat} {u u' : Turn VariableAccess}, andThen index u = .ok u' → Hides u u')
    (h : obeyWrite command m andThen t = .ok t') : Hides t t' := by
  unfold obeyWrite at h
  split at h
  · split at h
    · refine Hides.trans ?_ (hthen h)
      exact .same rfl
    · exact Except.ok.inj h ▸ (Hides.refl t).refuse _ _ _
  · exact Except.ok.inj h ▸ (Hides.refl t).refuse _ _ _

theorem hides_handle (h : handle c m t = .ok t') : Hides t t' := by
  unfold handle at h
  split_ifs at h
  · split at h
    · exact Except.ok.inj h ▸ hides_answerRead
    · exact hides_obeyWrite (fun h => Except.ok.inj h ▸ (Hides.refl _).reply _ _ _) h
    · exact hides_obeyWrite hides_sendVariable h
    · exact Except.ok.inj h ▸ .refl t
  · exact Except.ok.inj h ▸ .refl t

theorem hides_pollListing (h : pollListing c t = .ok t') : Hides t t' := by
  unfold pollListing at h
  split at h
  · exact Except.ok.inj h ▸ .refl t
  · dsimp only at h
    split at h
    · exact Except.ok.inj h ▸ .same rfl
    · refine Hides.trans ?_ (hides_sendVariable h)
      exact .same rfl

theorem hides_turn (h : turn c t = .ok t') : Hides t t' := by
  obtain ⟨u, hu, h⟩ := turn_eq_ok_iff.1 h
  refine Hides.trans ?_ (hides_pollListing h)
  unfold prepare at hu
  rcases hm : c.received? with _ | m
  · rw [hm] at hu
    exact Except.ok.inj hu ▸ .refl t
  · rw [hm] at hu
    exact hides_handle hu

end VariableAccess

namespace Teaching

variable {c : Cycle} {m : Message} {t t' : Turn Teaching}

theorem hides_sendEvent (slot : Nat) (t : Turn Teaching) : Hides t (sendEvent slot t) := by
  unfold sendEvent
  split
  · exact (Hides.refl t).reply _ _ _
  · exact .refl t

theorem hides_sendVariable (slot : Nat) (index value : UInt8) (t : Turn Teaching) :
    Hides t (sendVariable slot index value t) := by
  unfold sendVariable
  split
  · exact (Hides.refl t).put rfl
  · exact .refl t

theorem hides_teachVariable {slot index : Nat} {value : UInt8}
    (h : teachVariable slot index value t = .ok t') : Hides t t' := by
  obtain ⟨d, _, h⟩ := bind_eq_ok_iff.1 h
  rw [← Except.ok.inj h]
  refine .put (.confirm ?_ _ _) rfl
  exact .same rfl

theorem hides_learn (h : learn m t = .ok t') : Hides t t' := by
  unfold learn at h
  split at h
  · split_ifs at h
    · exact Except.ok.inj h ▸ (Hides.refl t).refuse _ _ _
    · split at h
      · exact hides_teachVariable h
      · split at h
        · obtain ⟨u, hu, h⟩ := bind_eq_ok_iff.1 h
          obtain ⟨d, _, hu⟩ := bind_eq_ok_iff.1 hu
          refine Hides.trans ?_ (hides_teachVariable h)
          exact Except.ok.inj hu ▸ .same rfl
        · exact Except.ok.inj h ▸ (Hides.refl t).refuse _ _ _
  · exact Except.ok.inj h ▸ (Hides.refl t).refuse _ _ _

theorem hides_unlearn (h : unlearn m t = .ok t') : Hides t t' := by
  unfold unlearn at h
  split at h
  · split at h
    · obtain ⟨d, _, h⟩ := bind_eq_ok_iff.1 h
      rw [← Except.ok.inj h]
      refine .put (.confirm ?_ _ _) rfl
      exact .same rfl
    · exact Except.ok.inj h ▸ (Hides.refl t).refuse _ _ _
  · exact Except.ok.inj h ▸ (Hides.refl t).refuse _ _ _

theorem hides_answerVariable (c : Cycle) (m : Message) (t : Turn Teaching) :
    Hides t (answerVariable c m t) := by
  unfold answerVariable
  split
  · split
    · exact (Hides.refl t).refuse _ _ _
    · split_ifs
      · exact (hides_sendVariable _ _ _ t).trans (.same rfl)
      · split
        · exact hides_sendVariable _ _ _ t
        · exact (Hides.refl t).refuse _ _ _
  · exact (Hides.refl t).refuse _ _ _

theorem hides_answerSlotVariable (c : Cycle) (m : Message) (t : Turn Teaching) :
    Hides t (answerSlotVariable c m t) := by
  unfold answerSlotVariable sendSlotVariable
  split
  · split_ifs
    · exact (Hides.refl t).refuse _ _ _
    · exact ((Hides.refl t).reply _ _ _).trans (.same rfl)
    · split
      · exact (Hides.refl t).reply _ _ _
      · exact (Hides.refl t).refuse _ _ _
      · exact (Hides.refl t).refuse _ _ _
  · exact (Hides.refl t).refuse _ _ _

theorem hides_handleNamed (c : Cycle) (m : Message) (o : Opcode) (t : Turn Teaching) :
    Hides t (handleNamed c m o t) := by
  unfold handleNamed
  split
  · exact (Hides.refl t).configure _
  · unfold obeyMode
    split
    · exact (Hides.refl t).configure _
    · exact (Hides.refl t).configure _
    · exact .refl t
  · unfold clear
    split_ifs
    · exact ((Hides.refl t).configure _).confirm _ _
    · exact (Hides.refl t).refuse _ _ _
  · exact (Hides.refl t).reply _ _ _
  · exact (Hides.refl t).reply _ _ _
  · exact .same rfl
  · unfold answerEvent
    split
    · exact (Hides.refl t).refuse _ _ _
    · split_ifs
      · exact (Hides.refl t).refuse _ _ _
      · exact hides_sendEvent _ t
  · exact hides_answerSlotVariable c m t
  · exact .refl t

theorem hides_handle (h : handle c m t = .ok t') : Hides t t' := by
  unfold handle at h
  split at h
  · exact Except.ok.inj h ▸ .refl t
  · rw [← Except.ok.inj h]
    unfold yieldLearning
    split_ifs
    · exact (Hides.refl t).configure _
    · exact (Hides.refl t).configure _
    · exact .refl t
  · split_ifs at h
    · exact hides_learn h
    · exact Except.ok.inj h ▸ .refl t
  · split_ifs at h
    · exact hides_unlearn h
    · exact Except.ok.inj h ▸ .refl t
  · rw [← Except.ok.inj h]
    split_ifs
    · exact hides_answerVariable c m t
    · exact .refl t
  · rw [← Except.ok.inj h]
    split_ifs
    · exact hides_handleNamed c m _ t
    · exact .refl t

theorem hides_pollListing (c : Cycle) (t : Turn Teaching) : Hides t (pollListing c t) := by
  unfold pollListing
  split
  · exact .refl t
  · dsimp only
    split
    · exact .same rfl
    · rename_i s _ i _
      unfold report
      dsimp only
      split
      · refine Hides.trans ?_ (hides_sendEvent _ _)
        exact .same rfl
      · refine Hides.trans ?_ (hides_sendVariable _ _ _ _)
        exact .same rfl
      · refine .reply ?_ _ _ _
        exact .same rfl

theorem hides_turn (h : turn c t = .ok t') : Hides t t' := by
  obtain ⟨u, hu, rfl⟩ := turn_eq_ok_iff.1 h
  refine Hides.trans ?_ (hides_pollListing c u)
  unfold prepare at hu
  rcases hm : c.received? with _ | m
  · rw [hm] at hu
    exact Except.ok.inj hu ▸ .refl t
  · rw [hm] at hu
    exact hides_handle hu

end Teaching

theorem EventConsumer.hides_turn (c : Cycle) (t : Turn EventConsumer) : Hides t (turn c t) := by
  unfold turn
  split_ifs
  · split
    · exact .refl t
    · exact .same rfl
  · exact .refl t

theorem EventAcknowledge.hides_turn (c : Cycle) (t : Turn EventAcknowledge) :
    Hides t (turn c t) := by
  unfold turn
  split
  · exact .refl t
  · split_ifs
    · unfold obeyMode
      split
      · exact (Hides.refl t).configure _
      · exact (Hides.refl t).configure _
      · exact .refl t
    · unfold acknowledge
      split_ifs
      · split
        · exact .refl t
        · refine .reply ?_ _ _ _
          exact .same rfl
      · exact .refl t

theorem LongMessage.hides_turn (c : Cycle) (t : Turn LongMessage) : Hides t (turn c t) := by
  unfold turn
  dsimp only
  split
  · exact .same rfl
  · refine .put ?_ rfl
    exact .same rfl

namespace BusAccess

variable {c : Cycle} {m : Message}

theorem hides_handle (m : Message) (t : Turn BusAccess) : Hides t (handle m t) := by
  unfold handle obeyAssignment
  split
  · split_ifs
    · exact (Hides.refl t).put rfl
    · exact .refl t
  · split_ifs
    · split
      · refine .confirm ?_ _ _
        exact .same rfl
      · exact ((Hides.refl t).reply _ _ _).respond _ _ _
    · exact .refl t
  · exact .refl t

theorem hides_startSearch (now : Time) (forPeer : Bool) (t : Turn BusAccess) :
    Hides t (startSearch now forPeer t) := by
  unfold startSearch
  split
  · exact .refl t
  · refine .offer ?_ _
    exact .same rfl

theorem hides_receive (t : Turn BusAccess) : Hides t (receive t) := by
  unfold receive handleFrame handleEmpty handleData
  dsimp only
  split
  · exact .refl t
  · split
    · exact .same rfl
    · split_ifs
      · refine .offer ?_ _
        exact .same rfl
      · exact .same rfl
      · exact .same rfl
      · refine .put ?_ rfl
        exact .same rfl
      · refine .put ?_ rfl
        exact .same rfl

theorem hides_finishSearch (now window : Time) (t : Turn BusAccess) :
    Hides t (finishSearch now window t) := by
  unfold finishSearch
  split
  · exact .refl t
  · dsimp only
    split_ifs
    · refine .reply ?_ _ _ _
      exact .same rfl
    · exact .same rfl

theorem hides_turn (c : Cycle) (t : Turn BusAccess) : Hides t (turn c t) := by
  have hreact : Hides t (react c t) := by
    unfold react
    split
    · refine .offer ?_ _
      exact .same rfl
    · exact hides_startSearch _ _ t
    · exact hides_handle _ t
    · exact .refl t
  have hrequired : ∀ t : Turn BusAccess, Hides t (startRequired c.now t) := by
    intro t
    unfold startRequired
    split_ifs
    · refine Hides.trans ?_ (hides_startSearch _ _ _)
      exact .same rfl
    · exact .refl t
  exact ((hreact.trans (hrequired _)).trans (hides_receive _)).trans (hides_finishSearch _ _ _)

end BusAccess

theorem Reporter.hides_turn (c : Cycle) (service : Service) (position : Nat) (t : Turn Reporter) :
    Hides t (turn c service position t) := by
  have hpoll : ∀ t : Turn Reporter, Hides t (pollListing c service position t) := by
    intro t
    unfold pollListing
    split
    · exact .refl t
    · dsimp only
      split
      · exact .same rfl
      · refine .reply ?_ _ _ _
        exact .same rfl
  unfold turn
  split
  · refine Hides.trans ?_ (hpoll _)
    unfold handle
    split_ifs
    · split
      · unfold answer
        split_ifs
        · exact .refl t
        · exact .refl t
        · exact .same rfl
        · exact (Hides.refl t).reply _ _ _
        · exact .refl t
        · exact (Hides.refl t).respond _ _ _
      · exact .refl t
    · exact .refl t
  · exact hpoll t

/-! ## All services -/

namespace Service

variable {c : Cycle} {t t' : Turn Service}

/-- Only the service that every node has shows a mode. -/
theorem hides_turn (h : turn c t = .ok t') (hid : t.self.id ≠ .minimumNode) : Hides t t' := by
  have hmap : ∀ {σ : Type} {s : σ} {u : Turn σ} (f : σ → Service), Hides (t.withSelf s) u →
      Hides t (u.map f) :=
    fun f hu => (Hides.same rfl).trans (hu.trans (.same rfl))
  unfold turn at h
  split at h
  · rename_i s hs
    rw [hs] at hid
    exact absurd rfl hid
  · exact Except.ok.inj h ▸ hmap _ (BusAccess.hides_turn c _)
  · obtain ⟨u, hu, rfl⟩ := map_eq_ok_iff.1 h
    exact hmap _ (VariableAccess.hides_turn hu)
  · obtain ⟨u, hu, rfl⟩ := map_eq_ok_iff.1 h
    exact hmap _ (Teaching.hides_turn hu)
  · exact Except.ok.inj h ▸ hmap _ (EventConsumer.hides_turn c _)
  · exact Except.ok.inj h ▸ .refl t
  · exact Except.ok.inj h ▸ hmap _ (EventAcknowledge.hides_turn c _)
  · exact Except.ok.inj h ▸ hmap _ (LongMessage.hides_turn c _)

theorem mode_notMem_parts {s : Service} (h : s.id ≠ .minimumNode) :
    Configuration.Part.mode ∉ s.parts := by
  cases s with
  | minimumNode s => exact absurd rfl h
  | _ => simp only [parts]; decide

/-- After a turn the mode is the one that was shown last in it, or as it was. -/
theorem shows_turn (h : turn c t = .ok t') : Shows t t' := by
  by_cases hid : t.self.id = .minimumNode
  · obtain ⟨s, hs⟩ := MinimumNode.exists_minimumNode hid
    unfold turn at h
    rw [hs] at h
    obtain ⟨u, hu, rfl⟩ := map_eq_ok_iff.1 h
    exact ((Shows.same rfl rfl).trans (MinimumNode.shows_turn hu)).trans (.same rfl rfl)
  · refine .of_hides (hides_turn h hid) ?_
    exact (edits_turn h).changesOnly.mode (mode_notMem_parts hid)

end Service

end RailNode
