import Mathlib.Data.List.Induction
import RailNode.Proofs.Service.LongAnswers
import RailNode.Proofs.Service.Standing

/-
  What a node tells its peers of its number. Each move of the standing of a node comes with the
  notices that go out in it (`Standing.Tells`), and every turn of the service for the number is such
  a move, after which a negotiation may run out of time (`MinimumNode.says_turn`).
-/
namespace RailNode

/-! ## Notices -/

/-- What a node tells of a number. -/
inductive Notice where
  /-- The node gives the number up. -/
  | released (number : UInt16)
  /-- The number is that of the node. -/
  | confirmed (number : UInt16)
deriving DecidableEq, Repr

namespace Notice

/-- Every release since the last confirmation, after one notice more. -/
def heard (freed : List UInt16) : Notice → List UInt16
  | released number => freed ++ [number]
  | confirmed _ => []

/-- The numbers that a node has released since it last confirmed one: to its peers they are free. -/
def freed (notices : List Notice) : List UInt16 := notices.foldl heard []

/-- A notice with this opcode, if it is one that a notice has. -/
def ofOpcode? (number : UInt16) : Opcode → Option Notice
  | .nnrel => some (released number)
  | .nnack => some (confirmed number)
  | _ => none

variable {number : UInt16} {notices later : List Notice}

theorem freed_concat (notices : List Notice) (x : Notice) :
    freed (notices ++ [x]) = heard (freed notices) x := List.foldl_append

/-- What is released later counts, and what was released before unless a confirmation came. -/
theorem mem_freed_append : number ∈ freed (notices ++ later) ↔
    number ∈ freed later ∨ number ∈ freed notices ∧ ∀ k, confirmed k ∉ later := by
  induction later using List.reverseRecOn with
  | nil => simp [freed]
  | append_singleton later x ih =>
    rw [← List.append_assoc, freed_concat, freed_concat]
    cases x with
    | released k => simp [heard, ih, or_right_comm]
    | confirmed k =>
      refine iff_of_false List.not_mem_nil ?_
      rintro (h | ⟨_, hnone⟩)
      · exact absurd h List.not_mem_nil
      · exact hnone k (List.mem_append_right _ (List.mem_singleton.2 rfl))

/-- A number is free to the peers if it was released after the last confirmation. -/
theorem mem_freed_iff : number ∈ freed notices ↔
    ∃ before after, notices = before ++ released number :: after ∧ ∀ k, confirmed k ∉ after := by
  constructor
  · intro h
    induction notices using List.reverseRecOn with
    | nil => exact absurd h List.not_mem_nil
    | append_singleton notices x ih =>
      rcases mem_freed_append.1 h with hlast | ⟨hmem, hnone⟩
      · cases x with
        | released k =>
          obtain rfl := List.mem_singleton.1 hlast
          exact ⟨notices, [], rfl, fun _ => List.not_mem_nil⟩
        | confirmed k => exact absurd hlast List.not_mem_nil
      · obtain ⟨before, after, rfl, hafter⟩ := ih hmem
        refine ⟨before, after ++ [x], by rw [List.append_assoc, List.cons_append], fun k hk => ?_⟩
        rcases List.mem_append.1 hk with hk | hk
        · exact hafter k hk
        · exact hnone k hk
  · rintro ⟨before, after, rfl, hafter⟩
    rw [← List.singleton_append, ← List.append_assoc]
    refine mem_freed_append.2 (Or.inr ⟨mem_freed_append.2 (Or.inl ?_), hafter⟩)
    exact List.mem_singleton.2 rfl

theorem released_mem_of_mem_freed (h : number ∈ freed notices) : released number ∈ notices := by
  obtain ⟨before, after, rfl, _⟩ := mem_freed_iff.1 h
  exact List.mem_append_right _ List.mem_cons_self

end Notice

/-- The notice that a message is, if it is one. -/
def Message.notice? (m : Message) : Option Notice :=
  m.opcode?.bind fun o => m.nodeNumber?.bind fun number => Notice.ofOpcode? number o

/-- The notice that goes out with an action, if any. -/
def Action.notice? (a : Action) : Option Notice := a.transmitted?.bind Message.notice?

theorem Message.notice?_addressed (o : Opcode) (number : UInt16) (args : List UInt8)
    (h : args.length ≤ 5) :
    (Message.addressed o.byte number args h).notice? = Notice.ofOpcode? number o := by
  rw [notice?, opcode?_addressed, nodeNumber?_addressed]
  rfl

theorem Action.sends_of_notice? {a : Action} {x : Notice} (h : a.notice? = some x) :
    a.sends .nnrel = true ∧ (∃ k, x = .released k) ∨
      a.sends .nnack = true ∧ ∃ k, x = .confirmed k := by
  obtain ⟨m, hm, h⟩ := Option.bind_eq_some_iff.1 h
  obtain ⟨o, ho, h⟩ := Option.bind_eq_some_iff.1 h
  obtain ⟨number, _, h⟩ := Option.bind_eq_some_iff.1 h
  have hsends : ∀ {o' : Opcode}, o = o' → a.sends o' = true := by
    rintro o' rfl
    rw [sends, hm]
    exact beq_iff_eq.2 ho
  unfold Notice.ofOpcode? at h
  split at h
  · exact Or.inl ⟨hsends rfl, number, (Option.some.inj h).symm⟩
  · exact Or.inr ⟨hsends rfl, number, (Option.some.inj h).symm⟩
  · contradiction

/-- Where nothing with the opcode for it is sent no number is given up. -/
theorem Notice.released_notMem {as : List Action} (h : as.filter (·.sends .nnrel) = [])
    (k : UInt16) : .released k ∉ as.filterMap Action.notice? := by
  intro hmem
  obtain ⟨a, ha, hx⟩ := List.mem_filterMap.1 hmem
  rcases Action.sends_of_notice? hx with ⟨hsends, _⟩ | ⟨_, k', hk'⟩
  · exact List.filter_eq_nil_iff.1 h a ha hsends
  · contradiction

/-! ## Moves of the standing -/

/-- What is told when a negotiation is given up: the number before it, if the node had one. -/
def Negotiation.restored (n : Negotiation) : List Notice :=
  if n.previousMode = .normal then [.confirmed n.previousNumber] else []

namespace Standing

variable {now limit : Time} {action : Option Action} {number : UInt16} {x y z : Standing}
  {told : List Notice}

/-- A node resumes its number: it is in setup with it and has got a MODE command for this. -/
def Resumes (action : Option Action) (x : Standing) : Prop :=
  x.mode = .setup ∧ x.number ≠ 0 ∧ Commands .normal x.number action

/-- What the action of a cycle can do to the standing of a node, and what is told in this. -/
inductive Tells (now : Time) (action : Option Action) (x : Standing) :
    Standing → List Notice → Prop
  | stay : Tells now action x x []
  | enter : x.mode ≠ .setup → Tells now action x (x.enter now) []
  | release : x.mode = .normal → Tells now action x (x.enter now) [.released x.number]
  | leave {n : Negotiation} : x.negotiation = some n → Tells now action x (x.leave n) n.restored
  | settle (number : UInt16) : x.mode = .setup →
      Tells now action x (settle number) [.confirmed number]
  | resume : x.Resumes action → Tells now action x x.resume []

/-- Time may end a negotiation that has taken too long. -/
def Lapses (y z : Standing) (told : List Notice) : Prop :=
  z = y ∧ told = [] ∨ ∃ n, y.negotiation = some n ∧ z = y.leave n ∧ told = n.restored

/-- What a turn can do, and what it tells. -/
def Says (now : Time) (action : Option Action) (x z : Standing) (told : List Notice) : Prop :=
  ∃ y first last, Tells now action x y first ∧ Lapses y z last ∧ told = first ++ last

/-- A node has withdrawn from a number: it is in setup, and to go back it has to restore it. -/
structure Withdrawn (k : UInt16) (x : Standing) : Prop where
  mode : x.mode = .setup
  number : x.number = k
  negotiation : ∃ t, x.negotiation = some ⟨t, .normal, k⟩

theorem restored_eq (t : Time) (number : UInt16) :
    (Negotiation.mk t .normal number).restored = [.confirmed number] := rfl

theorem freed_restored (n : Negotiation) : Notice.freed n.restored = [] := by
  unfold Negotiation.restored
  split_ifs <;> rfl

/-- Going back from setup to normal mode restores the number of the node, and tells it. -/
theorem confirmed_of_leave {n : Negotiation} (h : (x.leave n).mode = .normal) :
    Notice.confirmed (x.leave n).number ∈ n.restored := by
  unfold leave at h ⊢
  unfold Negotiation.restored
  split_ifs at h ⊢ with hmode
  · exact List.mem_singleton.2 rfl
  · exact absurd h hmode

/-- Without a negotiation nothing lapses. -/
theorem Lapses.eq_of_none (h : Lapses y z told) (hy : y.negotiation = none) :
    z = y ∧ told = [] := by
  rcases h with h | ⟨n, hn, _⟩
  · exact h
  · rw [hy] at hn
    contradiction

/-- A node that withdrew from a number and confirms nothing is not done with it. -/
theorem Withdrawn.lapses (hy : y.Withdrawn number) (h : Lapses y z told)
    (hnone : ∀ k, Notice.confirmed k ∉ told) : z.Withdrawn number := by
  rcases h with ⟨rfl, _⟩ | ⟨n, hn, _, rfl⟩
  · exact hy
  · obtain ⟨t, ht⟩ := hy.negotiation
    rw [hn] at ht
    rw [Option.some.inj ht, restored_eq] at hnone
    exact absurd (List.mem_singleton.2 rfl) (hnone number)

/-- A turn that leaves a number released leaves the node withdrawn from it. -/
theorem Says.withdrawn (h : Says now action x z told) (hfreed : number ∈ Notice.freed told) :
    z.Withdrawn number := by
  obtain ⟨y, first, last, htells, hlapses, rfl⟩ := h
  have hlast : Notice.freed last = [] := by
    rcases hlapses with ⟨_, rfl⟩ | ⟨n, _, _, rfl⟩
    · rfl
    · exact freed_restored n
  rcases Notice.mem_freed_append.1 hfreed with hmem | ⟨hmem, hnone⟩
  · rw [hlast] at hmem
    exact absurd hmem List.not_mem_nil
  · refine Withdrawn.lapses ?_ hlapses hnone
    cases htells with
    | release hmode =>
      obtain rfl := List.mem_singleton.1 hmem
      refine ⟨rfl, rfl, now, ?_⟩
      rw [← hmode]
      rfl
    | leave _ =>
      rw [freed_restored] at hmem
      exact absurd hmem List.not_mem_nil
    | _ => exact absurd hmem List.not_mem_nil

/-- A node that has withdrawn from a number and confirms none in a turn is still withdrawn from it
    afterwards, unless it has resumed it. -/
theorem Withdrawn.says (hx : x.Withdrawn number) (h : Says now action x z told)
    (hnone : ∀ k, Notice.confirmed k ∉ told) : z.Withdrawn number ∨ x.Resumes action := by
  obtain ⟨y, first, last, htells, hlapses, rfl⟩ := h
  have hfirst : ∀ k, Notice.confirmed k ∉ first :=
    fun k hk => hnone k (List.mem_append_left _ hk)
  have hlast : ∀ k, Notice.confirmed k ∉ last :=
    fun k hk => hnone k (List.mem_append_right _ hk)
  cases htells with
  | stay => exact Or.inl (hx.lapses hlapses hlast)
  | enter hmode => exact absurd hx.mode hmode
  | release hmode =>
    rw [hx.mode] at hmode
    contradiction
  | leave hn =>
    obtain ⟨t, ht⟩ := hx.negotiation
    rw [hn] at ht
    rw [Option.some.inj ht, restored_eq] at hfirst
    exact absurd (List.mem_singleton.2 rfl) (hfirst number)
  | settle k _ => exact absurd (List.mem_singleton.2 rfl) (hfirst k)
  | resume hresumes => exact Or.inr hresumes

/-- Every other way back from setup to normal mode confirms the number that the node has then. -/
theorem Says.confirmed (h : Says now action x z told) (hx : x.mode = .setup)
    (hz : z.mode = .normal) (hresumes : ¬ x.Resumes action) :
    Notice.confirmed z.number ∈ told := by
  obtain ⟨y, first, last, htells, hlapses, rfl⟩ := h
  have hlast : ∀ {y : Standing}, Lapses y z last → y.mode = .setup →
      Notice.confirmed z.number ∈ last := by
    rintro y (⟨rfl, _⟩ | ⟨n, _, rfl, rfl⟩) hy
    · rw [hy] at hz
      contradiction
    · exact confirmed_of_leave hz
  cases htells with
  | stay => exact List.mem_append_right _ (hlast hlapses hx)
  | enter hmode => exact absurd hx hmode
  | release hmode =>
    rw [hx] at hmode
    contradiction
  | @leave n _ =>
    obtain ⟨rfl, _⟩ := hlapses.eq_of_none (negotiation_leave n x)
    exact List.mem_append_left _ (confirmed_of_leave hz)
  | settle k _ =>
    obtain ⟨rfl, _⟩ := hlapses.eq_of_none rfl
    exact List.mem_append_left _ (List.mem_singleton.2 rfl)
  | resume h => exact absurd h hresumes

end Standing

/-! ## The turn of the service -/

namespace Turn

variable {σ τ : Type} {os : List Opcode}

/-- The notices that a turn has put in the queue so far. -/
def notices (t : Turn σ) : List Notice := t.given.filterMap Action.notice?

theorem notices_put (a : Action) (t : Turn σ) :
    (t.put a).notices = t.notices ++ a.notice?.toList := by
  unfold notices
  rw [given_put, List.filterMap_append]
  rcases h : a.notice? <;> simp [h]

theorem notices_reply (o : Opcode) (args : List UInt8) (t : Turn σ) (h : args.length ≤ 5) :
    (t.reply o args h).notices =
      t.notices ++ (Notice.ofOpcode? t.config.nodeNumber o).toList := by
  rw [reply, send, notices_put]
  congr 2
  exact Message.notice?_addressed o _ args h

/-- Who has no opcode for it gives no notice. -/
theorem Speaks.notices {t : Turn σ} {t' : Turn τ} (h : Speaks os t t')
    (hrel : .nnrel ∉ os ++ Opcode.responses) (hack : .nnack ∉ os ++ Opcode.responses) :
    t'.notices = t.notices := by
  obtain ⟨as, has, hwithin⟩ := h.adds
  have hnone : as.filterMap Action.notice? = [] := by
    refine List.filterMap_eq_nil_iff.2 fun a ha => ?_
    refine Option.eq_none_iff_forall_ne_some.2 fun x hx => ?_
    rcases Action.sends_of_notice? hx with ⟨hsends, _⟩ | ⟨hsends, _⟩
    · exact hrel ((hwithin a ha).2 _ hsends)
    · exact hack ((hwithin a ha).2 _ hsends)
  unfold Turn.notices
  rw [has.given, List.filterMap_append, hnone, List.append_nil]

end Turn

open Turn

namespace MinimumNode

open Standing

variable {c : Cycle} {now : Time} {action : Option Action} {m : Message}
  {t t' : Turn MinimumNode}

/-- From `t` to `t'` the standing has made a move, and what it tells is in the queue. -/
def Told (now : Time) (action : Option Action) (t t' : Turn MinimumNode) : Prop :=
  ∃ told, Tells now action t.standing t'.standing told ∧ t'.notices = t.notices ++ told

theorem Told.of_quiet (hstanding : t'.standing = t.standing) (hnotices : t'.notices = t.notices) :
    Told now action t t' :=
  ⟨[], by rw [hstanding]; exact .stay, by rw [hnotices, List.append_nil]⟩

/-! ### Negotiations -/

theorem notices_switchMode (mode : Mode) (t : Turn MinimumNode) :
    (switchMode mode t).notices = t.notices := by
  unfold switchMode
  rw [notices_put]
  exact List.append_nil _

theorem notices_beginNegotiation (now : Time) (t : Turn MinimumNode) :
    (beginNegotiation now t).notices = t.notices :=
  notices_switchMode .setup _

theorem nodeNumber_switchMode (mode : Mode) (t : Turn MinimumNode) :
    (switchMode mode t).config.nodeNumber = t.config.nodeNumber :=
  congrArg Standing.number (standing_switchMode mode t)

theorem notices_cancelNegotiation {n : Negotiation} (h : t.self.negotiation = some n) :
    (cancelNegotiation t).notices = t.notices ++ n.restored := by
  unfold cancelNegotiation Negotiation.restored
  rw [h]
  dsimp only
  split_ifs with hmode
  · rw [notices_reply, notices_switchMode, nodeNumber_switchMode, config_configure]
    rfl
  · rw [notices_switchMode, List.append_nil]
    rfl

theorem notices_acceptNumber (number : UInt16) (t : Turn MinimumNode) :
    (acceptNumber number t).notices = t.notices ++ [.confirmed number] := by
  unfold acceptNumber
  dsimp only
  rw [notices_put, notices_reply, notices_switchMode, nodeNumber_switchMode, config_configure]
  exact List.append_nil _

theorem told_cancelNegotiation {n : Negotiation} (h : t.self.negotiation = some n) :
    Told now action t (cancelNegotiation t) :=
  ⟨n.restored, by rw [standing_cancelNegotiation h]; exact .leave h, notices_cancelNegotiation h⟩

/-- A negotiation that is begun with a request for a number tells nothing of a number. -/
theorem told_renegotiate : Told now action t (renegotiate now t) := by
  unfold renegotiate
  split_ifs with hmode
  · have hsetup : t.standing.mode ≠ .setup := by
      show t.config.mode ≠ .setup
      rw [hmode]
      decide
    refine ⟨[], ?_, ?_⟩
    · rw [standing_reply, standing_beginNegotiation]
      exact .enter hsetup
    · rw [notices_reply, notices_beginNegotiation]
      rfl
  · exact .of_quiet rfl rfl

theorem told_advanceMode : Told now action t (advanceMode now t) := by
  unfold advanceMode
  split
  · rename_i hmode
    have hsetup : t.standing.mode ≠ .setup := by
      show t.config.mode ≠ .setup
      rw [hmode]
      decide
    refine ⟨[], ?_, ?_⟩
    · rw [standing_reply, standing_put, standing_beginNegotiation]
      exact .enter hsetup
    · rw [notices_reply, notices_put, notices_beginNegotiation, List.append_assoc]
      rfl
  · rename_i hmode
    refine ⟨[.released t.config.nodeNumber], ?_, ?_⟩
    · rw [standing_reply, standing_beginNegotiation, standing_reply]
      exact .release hmode
    · rw [notices_reply, notices_beginNegotiation, notices_reply]
      exact List.append_nil _
  · rcases hn : t.self.negotiation with _ | n
    · rw [cancelNegotiation, hn]
      exact .of_quiet rfl rfl
    · exact told_cancelNegotiation hn

theorem told_resume (h : Commands .normal t.config.nodeNumber action) :
    Told now action t (resume t) := by
  unfold resume
  split_ifs with hmode
  · refine ⟨[], ?_, ?_⟩
    · rw [standing_switchMode]
      exact .resume ⟨hmode.1, hmode.2, h⟩
    · rw [notices_switchMode]
      exact (List.append_nil _).symm
  · exact .of_quiet rfl rfl

theorem told_obeyAssignment : Told now action t (obeyAssignment m t) := by
  unfold obeyAssignment
  split_ifs with hmode
  · split
    · exact .of_quiet rfl rfl
    · rename_i number _
      split_ifs
      · exact .of_quiet rfl rfl
      · refine ⟨[.confirmed number], ?_, notices_acceptNumber number t⟩
        rw [standing_acceptNumber]
        exact .settle number hmode
  · exact .of_quiet rfl rfl

/-! ### Messages -/

theorem told_obeyMode {command : UInt8} (hm : action = some (.received m))
    (ho : m.opcode? = some .mode) (hn : m.nodeNumber? = some t.config.nodeNumber)
    (hcommand : m.byte? 3 = some command) : Told now action t (obeyMode now command t) := by
  unfold obeyMode
  split
  · exact told_renegotiate
  · rename_i hk
    rw [byte_of_modeCommand hk] at hcommand
    exact told_resume ⟨m, hm, ho, hn, hcommand⟩
  · exact .of_quiet (standing_setHeartbeat true t) rfl
  · exact .of_quiet (standing_setHeartbeat false t) rfl
  · exact .of_quiet rfl rfl
  · refine .of_quiet (Unmoved.respond ⟨rfl, rfl⟩ _ _ _).standing ?_
    exact ((Speaks.refl t).respond _ _ _ : Speaks [] t _).notices (by decide) (by decide)

theorem notices_answerServices : (answerServices c m t).notices = t.notices := by
  unfold answerServices
  split
  · rfl
  · split_ifs
    · rw [notices_reply]
      exact List.append_nil _
    · split
      · rw [notices_reply]
        exact List.append_nil _
      · exact ((Speaks.refl t).respond _ _ _ : Speaks [] t _).notices (by decide) (by decide)

theorem notices_answerDiagnostics : (answerDiagnostics c m t).notices = t.notices := by
  unfold answerDiagnostics
  split
  · rfl
  · split_ifs
    · exact ((Speaks.refl t).respond _ _ _ : Speaks [] t _).notices (by decide) (by decide)
    · rfl

theorem told_handleNamed {o : Opcode} (hm : action = some (.received m))
    (ho : m.opcode? = some o) (hn : m.nodeNumber? = some t.config.nodeNumber)
    (h : handleNamed c m o t = .ok t') : Told c.now action t t' := by
  unfold handleNamed at h
  split at h
  · rw [← Except.ok.inj h]
    exact .of_quiet unmoved_answerParameter.standing
      ((speaks_answerParameter c m t).notices (by decide) (by decide))
  · contradiction
  · contradiction
  · split at h
    · rw [← Except.ok.inj h]
      exact .of_quiet rfl rfl
    · rename_i command hcommand
      rw [← Except.ok.inj h]
      exact told_obeyMode hm ho hn hcommand
  · rw [← Except.ok.inj h]
    exact .of_quiet unmoved_answerServices.standing notices_answerServices
  · rw [← Except.ok.inj h]
    exact .of_quiet unmoved_answerDiagnostics.standing notices_answerDiagnostics
  · rw [← Except.ok.inj h]
    exact .of_quiet rfl rfl

theorem told_send {o : Opcode} {answer : Message} (ho : answer.opcode? = some o)
    (hrel : o ≠ .nnrel) (hack : o ≠ .nnack) : Told now action t (t.send answer) := by
  refine .of_quiet (standing_put _ t) ?_
  have hspeaks : Speaks [o] t (t.send answer) :=
    (Speaks.refl t).send ho (List.mem_append_left _ (List.mem_singleton.2 rfl))
  refine hspeaks.notices ?_ ?_
  · simp [Opcode.responses, hrel.symm]
  · simp [Opcode.responses, hack.symm]

theorem told_handle (hm : action = some (.received m)) (h : handle c m t = .ok t') :
    Told c.now action t t' := by
  unfold handle at h
  split at h
  · rw [← Except.ok.inj h]
    exact .of_quiet rfl rfl
  · rw [← Except.ok.inj h]
    split_ifs
    · exact .of_quiet rfl rfl
    · refine .of_quiet unmoved_introduce.standing ?_
      rw [introduce, notices_reply]
      exact List.append_nil _
  · rw [← Except.ok.inj h]
    split_ifs
    · exact told_send (Message.opcode?_ofOpcode .params _ _) (by decide) (by decide)
    · exact .of_quiet rfl rfl
  · rw [← Except.ok.inj h]
    split_ifs
    · exact told_send (Message.opcode?_ofOpcode .name _ _) (by decide) (by decide)
    · exact .of_quiet rfl rfl
  · rw [← Except.ok.inj h]
    exact told_obeyAssignment
  · rename_i ho
    split_ifs at h with hnamed
    · exact told_handleNamed hm ho (beq_iff_eq.1 hnamed) h
    · rw [← Except.ok.inj h]
      exact .of_quiet rfl rfl

theorem told_react (h : react c t = .ok t') : Told c.now c.action t t' := by
  unfold react at h
  split at h
  · rw [← Except.ok.inj h]
    exact told_advanceMode
  · rw [← Except.ok.inj h]
    exact told_renegotiate
  · rename_i m ha
    exact told_handle ha h
  · rw [← Except.ok.inj h]
    exact .of_quiet rfl rfl

/-! ### The turn -/

theorem notices_pollHeartbeat {interval : Time} :
    (pollHeartbeat now interval t).notices = t.notices := by
  unfold pollHeartbeat
  split_ifs
  · dsimp only
    split_ifs
    · rfl
    · rw [beat, notices_reply]
      exact List.append_nil _
  · rfl

/-- Once the action has been dealt with, a negotiation may lapse. -/
theorem lapses_poll (h : poll c t = .ok t') :
    ∃ told, Lapses t.standing t'.standing told ∧ t'.notices = t.notices ++ told := by
  have hlisting := (unmoved_pollListing h).standing
  have hnotices := (speaks_pollListing h).notices (by decide) (by decide)
  rw [unmoved_pollHeartbeat.standing] at hlisting
  rw [notices_pollHeartbeat] at hnotices
  rw [hlisting, hnotices]
  unfold pollNegotiation
  split
  · exact ⟨[], Or.inl ⟨rfl, rfl⟩, (List.append_nil _).symm⟩
  · rename_i n hn
    split_ifs
    · exact ⟨n.restored, Or.inr ⟨n, hn, standing_cancelNegotiation hn, rfl⟩,
        notices_cancelNegotiation hn⟩
    · exact ⟨[], Or.inl ⟨rfl, rfl⟩, (List.append_nil _).symm⟩

/-- What a turn does to the standing comes with what the turn tells. -/
theorem says_turn (h : turn c t = .ok t') : ∃ told,
    Says c.now c.action t.standing t'.standing told ∧ t'.notices = t.notices ++ told := by
  rw [turn_eq] at h
  obtain ⟨u, hu, hpoll⟩ := bind_eq_ok_iff.1 h
  obtain ⟨first, htells, hfirst⟩ := told_react (t := noteStart c t) hu
  obtain ⟨last, hlapses, hlast⟩ := lapses_poll hpoll
  refine ⟨first ++ last, ⟨u.standing, first, last, htells, hlapses, rfl⟩, ?_⟩
  rw [hlast, hfirst, List.append_assoc]
  rfl

end MinimumNode

end RailNode
