import RailNode.Time

/-
  A ticker that sets the pace of the cycles. A tick that comes late does not move the later ones:
  each is due a period after the one before it.
-/
namespace RailNode

structure Ticker where
  period : Time
  /-- When the next tick is due. -/
  due : Time
deriving DecidableEq, Repr

namespace Ticker

/-- A ticker whose first tick is due a period after `now`. -/
def start (now period : Time) : Ticker := ⟨period, now + period⟩

/-- How many ticks are due. -/
def pending (now : Time) (t : Ticker) : Nat :=
  if now < t.due then 0 else (now - t.due) / t.period + 1

/-- The ticker after the ticks that are due. -/
def advance (now : Time) (t : Ticker) : Ticker := { t with due := t.due + t.pending now * t.period }

end Ticker

end RailNode
