import Mathlib.Tactic.SplitIfs
import RailNode.Proofs.Service.Turn

/-
  Steps under bounds. The machine on which a node runs counts in words of fixed widths and keeps
  its data in places of fixed sizes: a sum that does not fit its word, a difference below 0 and a
  place that is not there stop it. Here such a step is a fault. The modules beside this one take
  every step of a node under the bounds that it has on the machine; each step is shown to do what
  the node does without bounds, so none of the bounds is ever passed.

  Sums and places of constants alone are left out, since no run can change them.
-/
namespace RailNode

@[simp]
theorem ok_bind {ε α β : Type} (a : α) (f : α → Except ε β) : (Except.ok a >>= f) = f a := rfl

@[simp]
theorem error_bind {ε α β : Type} (e : ε) (f : α → Except ε β) :
    (Except.error e >>= f) = .error e := rfl

theorem pure_eq_ok {ε α : Type} (a : α) : (pure a : Except ε α) = .ok a := rfl

@[simp]
theorem map_ok {ε α β : Type} (a : α) (f : α → β) :
    (Except.ok a : Except ε α).map f = .ok (f a) := rfl

@[simp]
theorem trust_some {α : Type} (a : α) : trust (some a) = .ok a := rfl

namespace Checked

/-! ## Words -/

/-- The greatest number of a word of 8 bits. -/
def byteLimit : Nat := 255

/-- The greatest number of a word of 16 bits. -/
def wordLimit : Nat := 65535

/-- The greatest size of data on a machine with addresses of 32 bits. -/
def sizeLimit : Nat := 4294967295

/-- What must hold for a step to go on. -/
def ensure (p : Prop) [Decidable p] : Except Halt Unit := if p then .ok () else .error .fault

/-- A sum in a word that ends at `limit`. -/
def add (limit a b : Nat) : Except Halt Nat := do
  ensure (a + b ≤ limit)
  return a + b

/-- A product in a word that ends at `limit`. -/
def mul (limit a b : Nat) : Except Halt Nat := do
  ensure (a * b ≤ limit)
  return a * b

/-- A difference, which no word holds below 0. -/
def sub (a b : Nat) : Except Halt Nat := do
  ensure (b ≤ a)
  return a - b

@[simp]
theorem ensure_eq {p : Prop} [Decidable p] (h : p) : ensure p = .ok () := if_pos h

@[simp]
theorem add_eq {limit a b : Nat} (h : a + b ≤ limit) : add limit a b = .ok (a + b) := by
  rw [add, ensure_eq h]
  rfl

@[simp]
theorem mul_eq {limit a b : Nat} (h : a * b ≤ limit) : mul limit a b = .ok (a * b) := by
  rw [mul, ensure_eq h]
  rfl

@[simp]
theorem sub_eq {a b : Nat} (h : b ≤ a) : sub a b = .ok (a - b) := by
  rw [sub, ensure_eq h]
  rfl

/-! ## Places -/

variable {α β : Type}

/-- Puts an item in a place that there must be. -/
def assign (i : Nat) (a : α) (xs : List α) : Except Halt (List α) := do
  ensure (i < xs.length)
  return xs.set i a

/-- The items from `start` to before `stop`, which must all be there. -/
def slice (start stop : Nat) (xs : List α) : Except Halt (List α) := do
  ensure (start ≤ stop ∧ stop ≤ xs.length)
  return (xs.take stop).drop start

/-- Puts items in the places from `start` to before `stop`. The places must be there, and there
    must be as many of them as items. -/
def overwrite (start stop : Nat) (values xs : List α) : Except Halt (List α) := do
  ensure (start ≤ stop ∧ stop ≤ xs.length ∧ values.length = stop - start)
  return xs.take start ++ values ++ xs.drop stop

/-- Adds an item at the end of a list, for which there must be room. -/
def push (capacity : Nat) (a : α) (xs : List α) : Except Halt (List α) := do
  ensure (xs.length < capacity)
  return xs ++ [a]

theorem slice_eq {start stop : Nat} {xs : List α} (h : start ≤ stop) (h' : stop ≤ xs.length) :
    slice start stop xs = .ok ((xs.take stop).drop start) := by
  rw [slice, ensure_eq ⟨h, h'⟩]
  rfl

theorem slice_end {start : Nat} {xs : List α} (h : start ≤ xs.length) :
    slice start xs.length xs = .ok (xs.drop start) := by
  rw [slice_eq h (Nat.le_refl _), List.take_length]

theorem slice_front (n : Nat) (xs : List α) :
    slice 0 (min xs.length n) xs = .ok (xs.take n) := by
  rw [slice_eq (Nat.zero_le _) (Nat.min_le_left _ _), List.drop_zero, Nat.min_comm,
    ← List.take_eq_take_min]

theorem overwrite_eq {start stop : Nat} {values xs : List α} (h : start ≤ stop)
    (h' : stop ≤ xs.length) (hlen : values.length = stop - start) :
    overwrite start stop values xs = .ok (xs.take start ++ values ++ xs.drop stop) := by
  rw [overwrite, ensure_eq ⟨h, h', hlen⟩]
  rfl

theorem push_eq {capacity : Nat} {xs : List α} (a : α) (h : xs.length < capacity) :
    push capacity a xs = .ok (xs ++ [a]) := by
  rw [push, ensure_eq h]
  rfl

/-! ## Agreement -/

/-- Two runs agree: both go on with results that are related, or both end in the same way. -/
inductive Agree (R : α → β → Prop) : Except Halt α → Except Halt β → Prop
  | ok {a : α} {b : β} : R a b → Agree R (.ok a) (.ok b)
  | error (x : Halt) : Agree R (.error x) (.error x)

namespace Agree

variable {γ δ : Type} {R : α → β → Prop} {S : γ → δ → Prop} {x : Except Halt α}
  {y : Except Halt β} {f : α → Except Halt γ} {g : β → Except Halt δ}

theorem bind (h : Agree R x y)
    (hfg : ∀ {a : α} {b : β}, y = .ok b → R a b → Agree S (f a) (g b)) :
    Agree S (x >>= f) (y >>= g) := by
  cases h with
  | ok h => exact hfg rfl h
  | error e => exact .error e

theorem map {f : α → γ} {g : β → δ} (h : Agree R x y)
    (hfg : ∀ {a : α} {b : β}, y = .ok b → R a b → S (f a) (g b)) :
    Agree S (x.map f) (y.map g) := by
  cases h with
  | ok h => exact .ok (hfg rfl h)
  | error e => exact .error e

/-- A run agrees with itself, as far as its result goes. -/
theorem of_eq {R : β → β → Prop} {y' : Except Halt β} (h : y' = y)
    (hR : ∀ b, y = .ok b → R b b) : Agree R y' y := by
  subst h
  cases y' with
  | ok b => exact .ok (hR b rfl)
  | error x => exact .error x

end Agree

/-! ## Optional results -/

section Optional

variable {γ δ : Type} {R : α → β → Prop} {S : γ → δ → Prop} {x : Option α} {y : Option β}

theorem rel_bind {f : α → Option γ} {g : β → Option δ} (h : Option.Rel R x y)
    (hfg : ∀ {a : α} {b : β}, R a b → Option.Rel S (f a) (g b)) :
    Option.Rel S (x.bind f) (y.bind g) := by
  cases h with
  | some h => exact hfg h
  | none => exact .none

theorem rel_elim {c : γ} {d : δ} {f : α → γ} {g : β → δ} (h : Option.Rel R x y) (hnone : S c d)
    (hsome : ∀ {a : α} {b : β}, R a b → S (f a) (g b)) : S (x.elim c f) (y.elim d g) := by
  cases h with
  | some h => exact hsome h
  | none => exact hnone

theorem rel_getD {a : α} {b : β} (h : Option.Rel R x y) (hdefault : R a b) :
    R (x.getD a) (y.getD b) := by
  cases h with
  | some h => exact h
  | none => exact hdefault

end Optional

/-! ## Repetition -/

theorem forM_eq_ok {f : α → Except Halt Unit} {xs : List α} (h : ∀ x ∈ xs, f x = .ok ()) :
    xs.forM f = .ok () := by
  induction xs with
  | nil => rfl
  | cons x xs ih =>
    show (f x >>= fun _ => xs.forM f) = .ok ()
    rw [h x List.mem_cons_self, ok_bind]
    exact ih fun y hy => h y (List.mem_cons_of_mem x hy)

/-- Steps that are taken under a bound do the same without it, as long as what the bound needs is
    kept. -/
theorem foldlM_eq_ok {f : β → α → Except Halt β} {g : β → α → β} {P : β → Prop} {xs : List α}
    {b : β} (h : ∀ {b : β}, P b → ∀ x ∈ xs, f b x = .ok (g b x) ∧ P (g b x)) (hb : P b) :
    xs.foldlM f b = .ok (xs.foldl g b) := by
  induction xs generalizing b with
  | nil => rfl
  | cons x xs ih =>
    obtain ⟨hx, hP⟩ := h hb x List.mem_cons_self
    rw [List.foldlM_cons, hx, ok_bind]
    exact ih (fun hb y hy => h hb y (List.mem_cons_of_mem x hy)) hP

theorem findM?_eq_ok {f : α → Except Halt Bool} {p : α → Bool} {xs : List α}
    (h : ∀ x ∈ xs, f x = .ok (p x)) : xs.findM? f = .ok (xs.find? p) := by
  induction xs with
  | nil => rfl
  | cons x xs ih =>
    rw [List.findM?, h x List.mem_cons_self, ok_bind, List.find?]
    cases p x with
    | true => rfl
    | false => exact ih fun y hy => h y (List.mem_cons_of_mem x hy)

end Checked

end RailNode
