/-
  A queue that never refuses an item: when it is full the oldest item makes room and is counted.
  It holds the latest items that were put in and not yet taken out, at most `capacity` of them.
-/
namespace RailNode

/-- How a queue has been used. The counters wrap around. -/
structure BacklogStats where
  puts : UInt32 := 0
  gets : UInt32 := 0
  overflows : UInt32 := 0
  /-- The most items that the queue has held. -/
  highWater : Nat := 0
deriving DecidableEq, Repr

/-- A queue for `capacity` items, oldest first. -/
structure Backlog (α : Type) (capacity : Nat) where
  items : List α := []
  stats : BacklogStats := {}
  length_le : items.length ≤ capacity := by simp
deriving DecidableEq, Repr

namespace Backlog

variable {α : Type} {capacity : Nat}

/-- The last items of a list, at most `n` of them. -/
def latest (n : Nat) (items : List α) : List α := items.drop (items.length - n)

theorem length_latest_le (n : Nat) (items : List α) : (latest n items).length ≤ n := by
  simp only [latest, List.length_drop]
  omega

theorem latest_of_length_le {n : Nat} {items : List α} (h : items.length ≤ n) :
    latest n items = items := by
  rw [latest, Nat.sub_eq_zero_of_le h, List.drop_zero]

theorem latest_cons_of_length_eq {n : Nat} {a : α} {items : List α} (h : items.length = n) :
    latest n (a :: items) = items := by
  rw [latest, List.length_cons, h, Nat.add_sub_cancel_left, List.drop_succ_cons, List.drop_zero]

def length (q : Backlog α capacity) : Nat := q.items.length

def isEmpty (q : Backlog α capacity) : Bool := q.items.isEmpty

def isFull (q : Backlog α capacity) : Bool := capacity ≤ q.length

/-- Puts an item in, in place of the oldest if the queue is full. -/
def put (q : Backlog α capacity) (a : α) : Backlog α capacity :=
  let items := latest capacity (q.items ++ [a])
  { items
    stats :=
      { q.stats with
        puts := q.stats.puts + 1
        overflows := if q.isFull then q.stats.overflows + 1 else q.stats.overflows
        highWater := max q.stats.highWater items.length }
    length_le := length_latest_le capacity (q.items ++ [a]) }

/-- Puts items in one after the other. -/
def putAll (q : Backlog α capacity) (as : List α) : Backlog α capacity := as.foldl put q

/-- Takes the oldest item out. -/
def pop? (q : Backlog α capacity) : Option (α × Backlog α capacity) :=
  match q with
  | ⟨[], _, _⟩ => none
  | ⟨a :: rest, stats, h⟩ =>
    some (a, ⟨rest, { stats with gets := stats.gets + 1 }, Nat.le_of_succ_le h⟩)

theorem items_put_of_length_lt {q : Backlog α capacity} (a : α) (h : q.length < capacity) :
    (q.put a).items = q.items ++ [a] :=
  latest_of_length_le (by rw [List.length_append]; exact h)

theorem items_put_of_length_eq {q : Backlog α capacity} (a : α) (h : q.length = capacity)
    (pos : 0 < capacity) : (q.put a).items = q.items.tail ++ [a] := by
  obtain ⟨items, stats, hle⟩ := q
  cases items with
  | nil =>
    rw [← h] at pos
    exact absurd pos (Nat.lt_irrefl 0)
  | cons b rest =>
    have hlen : (rest ++ [a]).length = capacity := by rw [List.length_append]; exact h
    exact latest_cons_of_length_eq hlen

end Backlog

end RailNode
