import RailNode.Time

/-
  Series of replies. A long answer is given one reply at a time, with a gap between them, so that
  it never floods the queue. The first reply is due at once.
-/
namespace RailNode

/-- The replies with the numbers from `next` to before `stop` that are still to be given. -/
structure Series (κ : Type) where
  kind : κ
  next : Nat
  stop : Nat
  due : Time
deriving DecidableEq, Repr

namespace Series

variable {κ : Type}

/-- The series with the numbers from `first` to before `stop`. -/
def start (now : Time) (kind : κ) (first stop : Nat) : Series κ :=
  { kind, next := first, stop, due := now }

/-- Whether every reply has been given. -/
def isDone (s : Series κ) : Bool := s.stop ≤ s.next

/-- Passes over the numbers for which there is no reply. -/
def skip (p : Nat → Bool) (s : Series κ) : Series κ :=
  { s with
    next := ((List.range' s.next (s.stop - s.next)).find? (!p ·)).getD (max s.next s.stop) }

/-- The series after the reply that was due. -/
def advance (now gap : Time) (s : Series κ) : Series κ :=
  { s with next := s.next + 1, due := Time.deadline now gap }

/-- The number of the reply that is due, if any, and what is left of the series. -/
def poll (now gap : Time) (s : Series κ) : Option Nat × Option (Series κ) :=
  if s.isDone then (none, none)
  else if now < s.due then (none, some s)
  else
    let rest := s.advance now gap
    (some s.next, if rest.isDone then none else some rest)

end Series

end RailNode
