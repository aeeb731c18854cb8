import RailNode.Proofs.Service.Queueing

/-
  Refusals. A service refuses a command with a CMDERR and a GRSP, or with a GRSP alone. What comes
  of a message for a service is said once (`Turn.Heeds`): it refuses the message and does nothing
  else, or it refuses nothing. Every message has at most one service that refuses it
  (`Message.refuser?`), and no other service carries such a message out.
-/
namespace RailNode

/-- The service that refuses a message if one does. A request for diagnostics may be refused by
    reporters as well. -/
def Message.refuser? (m : Message) : Option ServiceId :=
  match m.opcode? with
  | some .rqnpn | some .rqsd | some .rdgn => some .minimumNode
  | some .mode =>
    if ((m.byte? 3).bind ModeCommand.ofByte?).isSome then none else some .minimumNode
  | some .canid => some .busAccess
  | some .nvrd | some .nvset | some .nvsetrd => some .nodeVariables
  | some .evlrn | some .evuln | some .reqev | some .nnclr | some .nenrd | some .reval =>
    some .teaching
  | _ => none

namespace Message

variable {m : Message}

/-- Nobody refuses a MODE message with a command that there is. -/
theorem refuser?_of_command {k : ModeCommand} (hm : m.opcode? = some .mode)
    (hk : (m.byte? 3).bind ModeCommand.ofByte? = some k) : m.refuser? = none := by
  rw [refuser?, hm]
  exact if_pos (by rw [hk]; rfl)

theorem refuser?_of_no_command (hm : m.opcode? = some .mode)
    (hk : (m.byte? 3).bind ModeCommand.ofByte? = none) : m.refuser? = some .minimumNode := by
  rw [refuser?, hm]
  exact if_neg (by rw [hk]; decide)

end Message

/-! ## Actions that refuse -/

namespace Action

/-- Whether a message is to be sent that refuses a command: a CMDERR, or a GRSP with another result
    than OK. -/
def refuses (a : Action) : Bool :=
  a.sends .cmderr ||
    a.sends .grsp && a.transmitted?.bind (·.byte? 5) != some ResponseCode.ok.byte

theorem refuses_of_transmitted?_eq_none {a : Action} (h : a.transmitted? = none) :
    a.refuses = false := by
  rw [refuses, sends, sends, h]
  rfl

theorem refuses_of_opcode? {m : Message}
    (h : m.opcode? ≠ some .cmderr ∧ m.opcode? ≠ some .grsp) : (transmit m).refuses = false := by
  have herror : (transmit m).sends .cmderr = false := beq_eq_false_iff_ne.2 h.1
  have hresponse : (transmit m).sends .grsp = false := beq_eq_false_iff_ne.2 h.2
  rw [refuses, herror, hresponse]
  rfl

theorem sends_addressed {o o' : Opcode} (node : UInt16) (args : List UInt8)
    (hargs : args.length ≤ 5) (h : o ≠ o') :
    (transmit (.addressed o.byte node args hargs)).sends o' = false := by
  refine beq_eq_false_iff_ne.2 fun hsame => h ?_
  exact Option.some.inj ((Message.opcode?_addressed o node args hargs).symm.trans hsame)

theorem refuses_addressed {o : Opcode} {node : UInt16} {args : List UInt8}
    {hargs : args.length ≤ 5} (ho : o ≠ .cmderr ∧ o ≠ .grsp) :
    (transmit (.addressed o.byte node args hargs)).refuses = false := by
  rw [refuses, sends_addressed node args hargs ho.1, sends_addressed node args hargs ho.2]
  rfl

/-- The response that a command has been carried out refuses nothing. -/
theorem refuses_ok {node : UInt16} {o s : UInt8}
    {hargs : [o, s, ResponseCode.ok.byte].length ≤ 5} :
    (transmit (.addressed Opcode.grsp.byte node [o, s, ResponseCode.ok.byte] hargs)).refuses =
      false := by
  rw [refuses, sends_addressed node _ _ (by decide), Bool.false_or]
  exact Bool.and_eq_false_imp.2 fun _ => rfl

end Action

/-- Every CMDERR among these actions is followed at once by a GRSP that names the message. -/
def Explains (m : Message) : List Action → Prop
  | [] => True
  | a :: rest =>
    (a.sends .cmderr = true → ∃ g, rest.head? = some (.transmit g) ∧ g.opcode? = some .grsp ∧
      g.byte? 3 = m.opcodeByte?) ∧ Explains m rest

namespace Explains

variable {m : Message} {as bs : List Action}

theorem of_accepted (h : ∀ a ∈ as, a.refuses = false) : Explains m as := by
  induction as with
  | nil => trivial
  | cons a as ih =>
    rw [List.forall_mem_cons] at h
    refine ⟨fun herror => ?_, ih h.2⟩
    have hrefuses := h.1
    rw [Action.refuses, herror] at hrefuses
    contradiction

theorem append (ha : Explains m as) (hb : Explains m bs) : Explains m (as ++ bs) := by
  induction as with
  | nil => exact hb
  | cons a as ih =>
    refine ⟨fun herror => ?_, ih ha.2⟩
    obtain ⟨g, hhead, hg⟩ := ha.1 herror
    refine ⟨g, ?_, hg⟩
    show (as ++ bs).head? = _
    rw [List.head?_append, hhead, Option.some_or]

end Explains

/-! ## Turns -/

namespace Turn

variable {σ τ υ : Type} {t : Turn σ} {t' : Turn τ} {t'' : Turn υ}

/-- From `t` to `t'` just actions of which `p` holds have been queued. -/
def Gives (p : Action → Prop) (t : Turn σ) (t' : Turn τ) : Prop :=
  ∃ as, t'.given = t.given ++ as ∧ ∀ a ∈ as, p a

namespace Gives

variable {p q : Action → Prop}

theorem same (h : t'.trace.queued = t.trace.queued) : Gives p t t' :=
  ⟨[], by rw [List.append_nil, given, given, h], nofun⟩

theorem trans (h : Gives p t t') (h' : Gives p t' t'') : Gives p t t'' := by
  obtain ⟨as, has, hall⟩ := h
  obtain ⟨bs, hbs, hall'⟩ := h'
  refine ⟨as ++ bs, by rw [hbs, has, List.append_assoc], fun a ha => ?_⟩
  rcases List.mem_append.1 ha with ha | ha
  · exact hall a ha
  · exact hall' a ha

theorem put (h : Gives p t t') {a : Action} (ha : p a) : Gives p t (t'.put a) :=
  h.trans ⟨[a], given_put a t', fun _ hb => List.mem_singleton.1 hb ▸ ha⟩

theorem mono (h : Gives p t t') (hpq : ∀ a, p a → q a) : Gives q t t' := by
  obtain ⟨as, has, hall⟩ := h
  exact ⟨as, has, fun a ha => hpq a (hall a ha)⟩

end Gives

/-- From `t` to `t'` nothing has been refused. -/
def Accepts (t : Turn σ) (t' : Turn τ) : Prop := Gives (fun a => a.refuses = false) t t'

namespace Accepts

theorem same (h : t'.trace.queued = t.trace.queued) : Accepts t t' := Gives.same h

theorem refl (t : Turn σ) : Accepts t t := .same rfl

theorem trans (h : Accepts t t') (h' : Accepts t' t'') : Accepts t t'' := Gives.trans h h'

theorem put (h : Accepts t t') {a : Action} (ha : a.refuses = false) : Accepts t (t'.put a) :=
  Gives.put h ha

theorem configure (h : Accepts t t') (f : Configuration → Configuration) :
    Accepts t (t'.configure f) :=
  h.trans (.same rfl)

theorem reply (h : Accepts t t') (o : Opcode) (args : List UInt8) (hargs : args.length ≤ 5)
    (ho : o ≠ .cmderr ∧ o ≠ .grsp) : Accepts t (t'.reply o args hargs) :=
  h.put (Action.refuses_addressed ho)

theorem confirm (h : Accepts t t') (o : Opcode) (s : ServiceId) :
    Accepts t (t'.confirm o s) :=
  (h.reply _ _ _ (by decide)).put Action.refuses_ok

end Accepts

/-- From `t` to `t'` no command has been responded to. -/
def Refrains (t : Turn σ) (t' : Turn τ) : Prop :=
  Gives (fun a => ∀ o ∈ Opcode.responses, a.sends o = false) t t'

namespace Refrains

theorem same (h : t'.trace.queued = t.trace.queued) : Refrains t t' := Gives.same h

theorem refl (t : Turn σ) : Refrains t t := .same rfl

theorem trans (h : Refrains t t') (h' : Refrains t' t'') : Refrains t t'' := Gives.trans h h'

theorem map (h : Refrains t t') (f : τ → υ) : Refrains t (t'.map f) := h.trans (.same rfl)

/-- An action that is no message can be queued. -/
theorem put_other (h : Refrains t t') {a : Action} (ha : a.transmitted? = none) :
    Refrains t (t'.put a) :=
  Gives.put h fun o _ => by rw [Action.sends, ha]; rfl

theorem send (h : Refrains t t') {m : Message} {o : Opcode} (hm : m.opcode? = some o)
    (ho : o ∉ Opcode.responses) : Refrains t (t'.send m) := by
  refine Gives.put h fun o' ho' => beq_eq_false_iff_ne.2 fun hsame => ho ?_
  have hopcode : m.opcode? = some o' := hsame
  rw [hm] at hopcode
  rwa [Option.some.inj hopcode]

theorem reply (h : Refrains t t') (o : Opcode) (args : List UInt8) (hargs : args.length ≤ 5)
    (ho : o ∉ Opcode.responses) : Refrains t (t'.reply o args hargs) :=
  h.send (Message.opcode?_addressed o _ args hargs) ho

theorem accepts (h : Refrains t t') : Accepts t t' :=
  Gives.mono h fun a ha => by
    rw [Action.refuses, ha .cmderr (by decide), ha .grsp (by decide)]
    rfl

end Refrains

/-- From `t` to `t'` a message with this opcode has been refused, and nothing else has happened. -/
inductive Refuses (o : Opcode) (t : Turn σ) : Turn σ → Prop
  | error (e : UInt8) (s : ServiceId) {r : ResponseCode} {hargs : [e].length ≤ 5} :
      r.isOk = false → Refuses o t ((t.reply .cmderr [e] hargs).respond o s r)
  | response (s : ServiceId) {r : ResponseCode} : r.isOk = false →
      Refuses o t (t.respond o s r)

namespace Refuses

variable {o : Opcode} {u : Turn σ}

theorem refuse (s : ServiceId) (e : CommandError) : Refuses o t (t.refuse o s e) :=
  .error e.byte s (ResponseCode.isOk_ofError e)

theorem config (h : Refuses o t u) : u.config = t.config := by
  cases h with
  | error e s _ => rw [config_respond, config_reply]
  | response s _ => rw [config_respond]

theorem self (h : Refuses o t u) : u.self = t.self := by
  cases h with
  | error e s _ => rw [self_respond, self_reply]
  | response s _ => rw [self_respond]

theorem link (h : Refuses o t u) : u.shared.link = t.shared.link := by
  cases h <;> rfl

/-- What is queued explains itself. -/
theorem explains {m : Message} (h : Refuses o t u) (hm : m.opcode? = some o) :
    ∃ as, u.given = t.given ++ as ∧ Explains m as := by
  have hbyte : m.opcodeByte? = some o.byte := by
    obtain ⟨b, hb, ho⟩ := Option.bind_eq_some_iff.1 hm
    rw [hb, Opcode.ofByte?_eq_some_iff.1 ho]
  have hsends : ∀ d : Configuration, ∀ s r : UInt8, (Action.transmit
      (.addressed Opcode.grsp.byte d.nodeNumber [o.byte, s, r])).sends .cmderr = true → False := by
    intro d s r h
    rw [Action.sends_addressed _ _ _ (by decide)] at h
    contradiction
  cases h with
  | error e s _ =>
    refine ⟨[_, _], by rw [respond, given_reply, given_reply, List.append_assoc]; rfl, ?_⟩
    refine And.intro (fun _ => ?_) (And.intro (fun h => (hsends _ _ _ h).elim) trivial)
    exact ⟨_, rfl, Message.opcode?_addressed _ _ _ _, hbyte.symm⟩
  | response s _ =>
    refine ⟨[_], by rw [respond, given_reply], ?_⟩
    exact And.intro (fun h => (hsends _ _ _ h).elim) trivial

end Refuses

/-- What comes of a message for the service with this id. It refuses the message and does nothing
    else; or it refuses nothing and leaves what `Kept` says; or it carries the message out, and then
    no other service refuses it. -/
inductive Heeds (id : ServiceId) (m : Message) (Kept : Turn σ → Turn σ → Prop)
    (t t' : Turn σ) : Prop
  | refused {o : Opcode} : m.opcode? = some o → m.refuser? = some id → Refuses o t t' →
      Heeds id m Kept t t'
  | kept : Accepts t t' → Kept t t' → Heeds id m Kept t t'
  | obeyed : Accepts t t' → (∀ r, m.refuser? = some r → r = id ∧ r ≠ .minimumNode) →
      Heeds id m Kept t t'

/-- From `t` to `t'` the configuration has not changed. -/
def Keeps (t t' : Turn σ) : Prop := t'.config = t.config

/-- What a service queues when it is offered a message. -/
structure Answers (id : ServiceId) (m : Message) (as : List Action) : Prop where
  explains : Explains m as
  refuser : ∀ a ∈ as, a.refuses = true → m.refuser? = some id

/-- The service with this id has refused the message, or is not the one that refuses it. -/
def Yields (id : ServiceId) (m : Message) (as : List Action) : Prop :=
  (∃ a ∈ as, a.refuses = true) ∨ ∃ r, m.refuser? = some r ∧ (r ≠ id ∨ r = .minimumNode)

theorem Accepts.answers {id : ServiceId} {m : Message} (h : Accepts t t') (ht : t.given = []) :
    Answers id m t'.given := by
  obtain ⟨as, has, hall⟩ := h
  rw [has, ht, List.nil_append]
  refine ⟨.of_accepted hall, fun a ha hrefuses => ?_⟩
  rw [hall a ha] at hrefuses
  contradiction

namespace Heeds

variable {id : ServiceId} {m : Message} {Kept : Turn σ → Turn σ → Prop} {u : Turn σ}
  {v : Turn τ}

/-- The service may carry out a message that nobody refuses. -/
theorem free (hr : m.refuser? = none) (hu : Accepts t u) : Heeds id m Kept t u :=
  .obeyed hu fun r h => by rw [hr] at h; contradiction

/-- The service may carry out a message that it might have refused. -/
theorem own (hr : m.refuser? = some id) (hid : id ≠ .minimumNode) (hu : Accepts t u) :
    Heeds id m Kept t u := by
  refine .obeyed hu fun r h => ?_
  rw [hr] at h
  obtain rfl := Option.some.inj h
  exact ⟨rfl, hid⟩

theorem answers (h : Heeds id m Kept t u) (ht : t.given = []) (hv : Accepts u v) :
    Answers id m v.given := by
  cases h with
  | refused ho hr hu =>
    obtain ⟨as, has, hexplains⟩ := hu.explains ho
    obtain ⟨bs, hbs, hall⟩ := hv
    refine ⟨?_, fun _ _ _ => hr⟩
    rw [hbs, has, ht, List.nil_append]
    exact hexplains.append (.of_accepted hall)
  | kept hu _ => exact (hu.trans hv).answers ht
  | obeyed hu _ => exact (hu.trans hv).answers ht

/-- A service that has refused the message, or leaves that to another, has kept what it keeps. -/
theorem of_yields (h : Heeds id m Kept t u) (ht : t.given = []) (hv : Accepts u v)
    (hy : Yields id m v.given) (hrefused : ∀ {o : Opcode}, Refuses o t u → Kept t u) :
    Kept t u := by
  cases h with
  | refused _ _ hu => exact hrefused hu
  | kept _ hkept => exact hkept
  | obeyed hu hnone =>
    exfalso
    rcases hy with ⟨a, ha, hrefuses⟩ | ⟨r, hr, hne⟩
    · obtain ⟨as, has, hall⟩ := hu.trans hv
      rw [has, ht, List.nil_append] at ha
      rw [hall a ha] at hrefuses
      contradiction
    · obtain ⟨hid, hminimum⟩ := hnone r hr
      rcases hne with hne | hne
      · exact hne hid
      · exact hminimum hne

/-- The same of a service that leaves the configuration when it carries nothing out. -/
theorem keeps (h : Heeds id m Keeps t u) (ht : t.given = []) (hv : Accepts u v)
    (hconfig : v.config = u.config) (hy : Yields id m v.given) : v.config = t.config :=
  hconfig.trans (h.of_yields ht hv hy Refuses.config)

end Heeds

end Turn

end RailNode
