import Mathlib.Tactic.SplitIfs
import RailNode.Backlog

/-
  Several items put in a queue one after the other. As long as there is room for all of them they
  stand behind what was in the queue, in their order, and nothing is counted as lost.
-/
namespace RailNode.Backlog

variable {α : Type} {capacity : Nat} {q : Backlog α capacity}

@[simp]
theorem putAll_nil (q : Backlog α capacity) : q.putAll [] = q := rfl

@[simp]
theorem putAll_cons (q : Backlog α capacity) (a : α) (as : List α) :
    q.putAll (a :: as) = (q.put a).putAll as := rfl

theorem putAll_append (q : Backlog α capacity) (as bs : List α) :
    q.putAll (as ++ bs) = (q.putAll as).putAll bs := List.foldl_append

theorem length_put_le (q : Backlog α capacity) (a : α) : (q.put a).length ≤ q.length + 1 := by
  unfold length put latest
  rw [List.length_drop, List.length_append, List.length_singleton]
  exact Nat.sub_le _ _

theorem length_putAll_le (q : Backlog α capacity) (as : List α) :
    (q.putAll as).length ≤ q.length + as.length := by
  induction as generalizing q with
  | nil => exact Nat.le_refl _
  | cons a as ih =>
    have hput := length_put_le q a
    have hrest := ih (q.put a)
    rw [putAll_cons, List.length_cons]
    omega

theorem items_putAll {as : List α} (h : q.length + as.length ≤ capacity) :
    (q.putAll as).items = q.items ++ as := by
  induction as generalizing q with
  | nil => exact (List.append_nil _).symm
  | cons a as ih =>
    rw [List.length_cons] at h
    have hput := items_put_of_length_lt a (show q.length < capacity by omega)
    have hlength := length_put_le q a
    rw [putAll_cons, ih (by omega), hput, List.append_assoc]
    rfl

theorem overflows_putAll {as : List α} (h : q.length + as.length ≤ capacity) :
    (q.putAll as).stats.overflows = q.stats.overflows := by
  induction as generalizing q with
  | nil => rfl
  | cons a as ih =>
    rw [List.length_cons] at h
    have hlength := length_put_le q a
    have hroom : q.isFull = false := by
      unfold isFull
      exact decide_eq_false (by omega)
    rw [putAll_cons, ih (by omega)]
    exact if_neg (by rw [hroom]; decide)

/-- The latest item is the last one. -/
theorem getLast?_put (q : Backlog α capacity) (a : α) (h : 0 < capacity) :
    (q.put a).items.getLast? = some a := by
  show (latest capacity (q.items ++ [a])).getLast? = some a
  have hne : ¬ (q.items ++ [a]).length ≤ (q.items ++ [a]).length - capacity := by
    rw [List.length_append, List.length_singleton]
    omega
  unfold latest
  rw [List.getLast?_drop, if_neg hne, List.getLast?_append, List.getLast?_singleton]
  rfl

/-- What a queue holds tells of one item that was put in. -/
theorem eq_singleton_of_putAll {as : List α} {a : α} (hpos : 0 < capacity) (hle : as.length ≤ 1)
    (h : q.putAll as = q.put a) : as = [a] := by
  match as, hle with
  | [], _ =>
    have hputs : q.stats.puts = q.stats.puts + 1 := congrArg (·.stats.puts) h
    have hnat := congrArg UInt32.toNat hputs
    rw [UInt32.toNat_add, UInt32.toNat_one] at hnat
    have hlt := q.stats.puts.toNat_lt
    omega
  | [b], _ =>
    have hlast : (q.put b).items.getLast? = (q.put a).items.getLast? :=
      congrArg (·.items.getLast?) h
    rw [getLast?_put q b hpos, getLast?_put q a hpos] at hlast
    rw [Option.some.inj hlast]

theorem items_of_pop? {a : α} {q' : Backlog α capacity} (h : q.pop? = some (a, q')) :
    q.items = a :: q'.items := by
  obtain ⟨items, stats, hle⟩ := q
  cases items with
  | nil => exact nomatch h
  | cons b rest =>
    obtain ⟨rfl, rfl⟩ := Prod.mk.inj (Option.some.inj h)
    rfl

theorem items_of_pop?_eq_none (h : q.pop? = none) : q.items = [] := by
  obtain ⟨items, stats, hle⟩ := q
  cases items with
  | nil => rfl
  | cons b rest => exact nomatch h

theorem overflows_of_pop? {a : α} {q' : Backlog α capacity} (h : q.pop? = some (a, q')) :
    q'.stats.overflows = q.stats.overflows := by
  obtain ⟨items, stats, hle⟩ := q
  cases items with
  | nil => exact nomatch h
  | cons b rest =>
    obtain ⟨_, rfl⟩ := Prod.mk.inj (Option.some.inj h)
    rfl

/-! ## Accounts -/

/-- The item that has to make room for the next one: the oldest, if the queue is full. -/
def ousted? (q : Backlog α capacity) : Option α := if q.isFull then q.items.head? else none

theorem items_put_balance (q : Backlog α capacity) (a : α) (pos : 0 < capacity) :
    q.items ++ [a] = q.ousted?.toList ++ (q.put a).items := by
  have hle : q.length ≤ capacity := q.length_le
  rcases Nat.lt_or_eq_of_le hle with hlt | heq
  · have hroom : q.isFull = false := decide_eq_false (Nat.not_le.2 hlt)
    rw [ousted?, hroom, items_put_of_length_lt a hlt]
    rfl
  · have hfull : q.isFull = true := decide_eq_true (Nat.le_of_eq heq.symm)
    rw [ousted?, hfull, if_pos rfl, items_put_of_length_eq a heq pos, ← List.append_assoc]
    congr 1
    cases hitems : q.items with
    | nil =>
      rw [length, hitems] at heq
      exact absurd heq (Nat.ne_of_lt pos)
    | cons b rest => rfl

theorem overflows_put (q : Backlog α capacity) (a : α) (pos : 0 < capacity) :
    (q.put a).stats.overflows = q.stats.overflows + UInt32.ofNat q.ousted?.toList.length := by
  show (if q.isFull then _ else _) = _
  unfold ousted?
  split_ifs with hfull
  · cases hitems : q.items with
    | nil =>
      rw [isFull, length, hitems, List.length_nil, decide_eq_true_eq] at hfull
      exact absurd hfull (Nat.not_le.2 pos)
    | cons b rest => rfl
  · exact (UInt32.add_zero _).symm

/-- No item is lost but the one that makes room. -/
theorem items_putAll_toList (q : Backlog α capacity) (a : Option α) (pos : 0 < capacity) :
    q.items ++ a.toList = (a.bind fun _ => q.ousted?).toList ++ (q.putAll a.toList).items := by
  cases a with
  | none => exact List.append_nil _
  | some a => exact q.items_put_balance a pos

theorem puts_putAll_toList (q : Backlog α capacity) (a : Option α) :
    (q.putAll a.toList).stats.puts = q.stats.puts + UInt32.ofNat a.toList.length := by
  cases a with
  | none => exact (UInt32.add_zero _).symm
  | some a => rfl

/-- An item that makes room is counted. -/
theorem overflows_putAll_toList (q : Backlog α capacity) (a : Option α) (pos : 0 < capacity) :
    (q.putAll a.toList).stats.overflows =
      q.stats.overflows + UInt32.ofNat (a.bind fun _ => q.ousted?).toList.length := by
  cases a with
  | none => exact (UInt32.add_zero _).symm
  | some a => exact q.overflows_put a pos

/-- Taking an item out leaves the counts of what was put in. -/
theorem puts_of_pop? {a : α} {q' : Backlog α capacity} (h : q.pop? = some (a, q')) :
    q'.stats.puts = q.stats.puts := by
  obtain ⟨items, stats, hle⟩ := q
  cases items with
  | nil => exact nomatch h
  | cons b rest =>
    obtain ⟨_, rfl⟩ := Prod.mk.inj (Option.some.inj h)
    rfl

end RailNode.Backlog
