import RailNode.Proofs.Configuration.Edits
import RailNode.Service.Turn

/-
  The steps that a turn consists of, seen from outside: what each leaves of the service itself and
  of the configuration, and what it adds to the list of actions given out.
-/
namespace RailNode

/-! ## Results -/

theorem bind_eq_ok_iff {ε α β : Type} {x : Except ε α} {f : α → Except ε β} {b : β} :
    (x >>= f) = .ok b ↔ ∃ a, x = .ok a ∧ f a = .ok b := by
  cases x with
  | error e =>
    constructor
    · intro h
      cases h
    · rintro ⟨_, h, _⟩
      cases h
  | ok a =>
    constructor
    · intro h
      exact ⟨a, rfl, h⟩
    · rintro ⟨_, ha, h⟩
      rw [Except.ok.inj ha]
      exact h

theorem bind_eq_error_iff {ε α β : Type} {x : Except ε α} {f : α → Except ε β} {e : ε} :
    (x >>= f) = .error e ↔ x = .error e ∨ ∃ a, x = .ok a ∧ f a = .error e := by
  cases x with
  | error e' =>
    constructor
    · intro h
      exact Or.inl (congrArg Except.error (Except.error.inj h))
    · rintro (h | ⟨_, h, _⟩)
      · exact congrArg Except.error (Except.error.inj h)
      · cases h
  | ok a =>
    constructor
    · intro h
      exact Or.inr ⟨a, rfl, h⟩
    · rintro (h | ⟨_, ha, h⟩)
      · cases h
      · rw [Except.ok.inj ha]
        exact h

theorem map_eq_ok_iff {ε α β : Type} {x : Except ε α} {f : α → β} {b : β} :
    x.map f = .ok b ↔ ∃ a, x = .ok a ∧ f a = b := by
  cases x <;> simp [Except.map]

theorem map_eq_error_iff {ε α β : Type} {x : Except ε α} {f : α → β} {e : ε} :
    x.map f = .error e ↔ x = .error e := by
  cases x <;> simp [Except.map]

theorem trust_eq_ok_iff {α : Type} {o : Option α} {a : α} : trust o = .ok a ↔ o = some a := by
  cases o <;> simp [trust]

theorem eq_fault_of_trust {α : Type} {o : Option α} {x : Halt} (h : trust o = .error x) :
    x = .fault := by
  cases o with
  | none => exact (Except.error.inj h).symm
  | some a => contradiction

theorem eq_fault_of_map_trust {α β : Type} {o : Option α} {f : α → β} {x : Halt}
    (h : (trust o).map f = .error x) : x = .fault := by
  cases o with
  | none => exact (Except.error.inj h).symm
  | some a => contradiction

theorem toOption_eq_some_iff {ε α : Type} {x : Except ε α} {a : α} :
    x.toOption = some a ↔ x = .ok a := by
  cases x <;> simp [Except.toOption]

/-- What a restart leaves: a configuration as it was, or the factory reset of it. -/
def Halt.Leaves (c : Configuration) : Halt → Prop
  | .restart left _ => left.config = c ∨ left.config = c.factoryReset
  | .fault => True

namespace Turn

variable {σ τ : Type}

/-- The actions that a turn has put in the queue so far. -/
def given (t : Turn σ) : List Action := t.trace.queued.map (·.item)

/-! ## The configuration -/

@[simp]
theorem config_mk (self : τ) (t : Turn σ) :
    Turn.config { self, shared := t.shared, trace := t.trace } = t.config := rfl

@[simp]
theorem config_withSelf (self : τ) (t : Turn σ) : (t.withSelf self).config = t.config := rfl

@[simp]
theorem config_map (f : σ → τ) (t : Turn σ) : (t.map f).config = t.config := rfl

@[simp]
theorem config_configure (f : Configuration → Configuration) (t : Turn σ) :
    (t.configure f).config = f t.config := rfl

@[simp]
theorem config_put (a : Action) (t : Turn σ) : (t.put a).config = t.config := by
  unfold config put
  rfl

@[simp]
theorem config_offer (f : Frame) (t : Turn σ) : (t.offer f).config = t.config := by
  unfold config offer
  rfl

@[simp]
theorem config_offerMessage (m : Message) (t : Turn σ) : (t.offerMessage m).config = t.config :=
  config_offer _ t

@[simp]
theorem config_send (m : Message) (t : Turn σ) : (t.send m).config = t.config :=
  config_put _ t

@[simp]
theorem config_reply (o : Opcode) (args : List UInt8) (t : Turn σ) (h : args.length ≤ 5) :
    (t.reply o args h).config = t.config :=
  config_send _ t

@[simp]
theorem config_respond (o : Opcode) (service : ServiceId) (r : ResponseCode) (t : Turn σ) :
    (t.respond o service r).config = t.config :=
  config_reply _ _ t _

@[simp]
theorem config_acknowledgeWrite (t : Turn σ) : t.acknowledgeWrite.config = t.config :=
  config_reply _ _ t _

@[simp]
theorem config_refuse (o : Opcode) (service : ServiceId) (e : CommandError) (t : Turn σ) :
    (t.refuse o service e).config = t.config := by
  unfold refuse
  rw [config_respond, config_reply]

@[simp]
theorem config_confirm (o : Opcode) (service : ServiceId) (t : Turn σ) :
    (t.confirm o service).config = t.config := by
  unfold confirm
  rw [config_respond, config_acknowledgeWrite]

/-! ## The service -/

@[simp]
theorem self_configure (f : Configuration → Configuration) (t : Turn σ) :
    (t.configure f).self = t.self := rfl

@[simp]
theorem self_put (a : Action) (t : Turn σ) : (t.put a).self = t.self := by
  unfold put
  rfl

@[simp]
theorem self_offer (f : Frame) (t : Turn σ) : (t.offer f).self = t.self := by
  unfold offer
  rfl

@[simp]
theorem self_offerMessage (m : Message) (t : Turn σ) : (t.offerMessage m).self = t.self :=
  self_offer _ t

@[simp]
theorem self_send (m : Message) (t : Turn σ) : (t.send m).self = t.self :=
  self_put _ t

@[simp]
theorem self_reply (o : Opcode) (args : List UInt8) (t : Turn σ) (h : args.length ≤ 5) :
    (t.reply o args h).self = t.self :=
  self_send _ t

@[simp]
theorem self_respond (o : Opcode) (service : ServiceId) (r : ResponseCode) (t : Turn σ) :
    (t.respond o service r).self = t.self :=
  self_reply _ _ t _

@[simp]
theorem self_acknowledgeWrite (t : Turn σ) : t.acknowledgeWrite.self = t.self :=
  self_reply _ _ t _

@[simp]
theorem self_refuse (o : Opcode) (service : ServiceId) (e : CommandError) (t : Turn σ) :
    (t.refuse o service e).self = t.self := by
  unfold refuse
  rw [self_respond, self_reply]

@[simp]
theorem self_confirm (o : Opcode) (service : ServiceId) (t : Turn σ) :
    (t.confirm o service).self = t.self := by
  unfold confirm
  rw [self_respond, self_acknowledgeWrite]

/-! ## The actions given out -/

@[simp]
theorem given_mk (self : τ) (t : Turn σ) :
    Turn.given { self, shared := t.shared, trace := t.trace } = t.given := rfl

@[simp]
theorem given_configure (f : Configuration → Configuration) (t : Turn σ) :
    (t.configure f).given = t.given := rfl

@[simp]
theorem given_put (a : Action) (t : Turn σ) : (t.put a).given = t.given ++ [a] := by
  unfold given put
  rw [List.map_append, List.map_singleton]

@[simp]
theorem given_send (m : Message) (t : Turn σ) : (t.send m).given = t.given ++ [.transmit m] :=
  given_put _ t

@[simp]
theorem given_reply (o : Opcode) (args : List UInt8) (t : Turn σ) (h : args.length ≤ 5) :
    (t.reply o args h).given =
      t.given ++ [.transmit (.addressed o.byte t.config.nodeNumber args h)] :=
  given_send _ t

end Turn

end RailNode
