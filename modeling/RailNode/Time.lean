/-
  Time in whole microseconds. The clock ends at `Time.last`: a deadline past the end is the end,
  and a clock that went backwards has let no time pass.
-/
namespace RailNode

/-- A moment, or a span between two moments, in microseconds. -/
abbrev Time := Nat

namespace Time

/-- The last moment that the clock can show. -/
def last : Time := 18446744073709551615

/-- The moment that lies `span` after `now`, or the end of time. -/
def deadline (now span : Time) : Time := min (now + span) last

/-- How much time has passed since `start`; none if the clock went backwards. -/
def elapsed (now start : Time) : Time := now - start

/-- The given number of milliseconds. -/
def milliseconds (n : Nat) : Time := 1000 * n

/-- The given number of seconds. -/
def seconds (n : Nat) : Time := 1000000 * n

/-- The whole seconds of a span. -/
def wholeSeconds (span : Time) : Nat := span / 1000000

theorem deadline_eq {now span : Time} (h : now + span ≤ last) : deadline now span = now + span :=
  Nat.min_eq_left h

end Time

end RailNode
