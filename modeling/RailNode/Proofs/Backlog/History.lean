import Mathlib.Data.List.Infix
import Mathlib.Data.List.Induction
import RailNode.Proofs.Backlog

/-
  A queue over its history. Whatever is put in leaves again in the same order, at the front, so the
  queue holds the latest of the items that were put in (`put_in_eq`). Its counters keep a balance
  modulo 2 ^ 32, and its high water mark is the greatest length that it has ever had
  (`keepsLatest_of_uses`).
-/
namespace RailNode.Backlog

/-! ## Uses -/

/-- What can be done with a queue. -/
inductive Use (α : Type) where
  | put (a : α)
  | pop
deriving DecidableEq, Repr

/-- The item that a use puts in. -/
def Use.item? {α : Type} : Use α → Option α
  | put a => some a
  | pop => none

variable {α : Type} {capacity : Nat} {q : Backlog α capacity}

/-- The item that a use gives, and the queue after it. A queue without items gives none and stays
    as it is. -/
def use (q : Backlog α capacity) : Use α → Option α × Backlog α capacity
  | .put a => (none, q.put a)
  | .pop => q.pop?.elim (none, q) fun (a, q) => (some a, q)

/-- The queue after uses one after the other. -/
def afterUses (q : Backlog α capacity) (uses : List (Use α)) : Backlog α capacity :=
  uses.foldl (fun q u => (q.use u).2) q

/-- The item that leaves the queue at a use: the oldest, if it is taken or has to make room. -/
def left? (q : Backlog α capacity) : Use α → Option α
  | .put _ => q.ousted?
  | .pop => q.items.head?

/-- The items that leave the queue over uses one after the other. -/
def left (q : Backlog α capacity) : List (Use α) → List α
  | [] => []
  | u :: uses => (q.left? u).toList ++ (q.use u).2.left uses

theorem afterUses_concat (q : Backlog α capacity) (uses : List (Use α)) (u : Use α) :
    q.afterUses (uses ++ [u]) = ((q.afterUses uses).use u).2 := List.foldl_concat ..

/-! ### A use that takes an item -/

theorem use_pop_of_nil (h : q.items = []) : q.use .pop = (none, q) := by
  obtain ⟨items, stats, hle⟩ := q
  obtain rfl : items = [] := h
  rfl

theorem use_pop_of_cons {a : α} {rest : List α} (h : q.items = a :: rest) :
    (q.use .pop).1 = some a ∧ (q.use .pop).2.items = rest ∧
      (q.use .pop).2.stats = { q.stats with gets := q.stats.gets + 1 } := by
  obtain ⟨items, stats, hle⟩ := q
  obtain rfl : items = a :: rest := h
  exact ⟨rfl, rfl, rfl⟩

/-! ## The balance of a use -/

/-- What was in the queue and what is put in has left or is in the queue. -/
theorem items_use_balance (q : Backlog α capacity) (u : Use α) (pos : 0 < capacity) :
    q.items ++ u.item?.toList = (q.left? u).toList ++ (q.use u).2.items := by
  cases u with
  | put a => exact q.items_put_balance a pos
  | pop =>
    show q.items ++ [] = q.items.head?.toList ++ _
    rw [List.append_nil]
    rcases hitems : q.items with _ | ⟨a, rest⟩
    · rw [use_pop_of_nil hitems]
      exact hitems.symm
    · rw [(use_pop_of_cons hitems).2.1]
      rfl

theorem length_use_balance (q : Backlog α capacity) (u : Use α) (pos : 0 < capacity) :
    q.length + u.item?.toList.length = (q.left? u).toList.length + (q.use u).2.length := by
  have hbalance := congrArg List.length (q.items_use_balance u pos)
  rwa [List.length_append, List.length_append] at hbalance

/-- Over uses one after the other the items leave in the order in which they were put in. -/
theorem put_in_eq (q : Backlog α capacity) (uses : List (Use α)) (pos : 0 < capacity) :
    q.items ++ uses.filterMap Use.item? = q.left uses ++ (q.afterUses uses).items := by
  induction uses generalizing q with
  | nil => exact List.append_nil _
  | cons u uses ih =>
    have hput : (u :: uses).filterMap Use.item? = u.item?.toList ++ uses.filterMap Use.item? := by
      cases u <;> rfl
    calc q.items ++ (u :: uses).filterMap Use.item?
        = (q.items ++ u.item?.toList) ++ uses.filterMap Use.item? := by
          rw [hput, List.append_assoc]
      _ = (q.left? u).toList ++ ((q.use u).2.items ++ uses.filterMap Use.item?) := by
          rw [q.items_use_balance u pos, List.append_assoc]
      _ = q.left (u :: uses) ++ (q.afterUses (u :: uses)).items := by
          rw [ih, ← List.append_assoc]
          rfl

/-! ## The counters -/

/-- Every item that was put in has been taken, has made room or is in the queue. -/
def IsBalanced (q : Backlog α capacity) : Prop :=
  q.stats.puts = q.stats.gets + q.stats.overflows + UInt32.ofNat q.length

theorem IsBalanced.put (h : q.IsBalanced) (a : α) (pos : 0 < capacity) : (q.put a).IsBalanced := by
  have hlength : q.length + 1 = q.ousted?.toList.length + (q.put a).length :=
    q.length_use_balance (.put a) pos
  calc q.stats.puts + 1
      = q.stats.gets + q.stats.overflows + (UInt32.ofNat q.length + 1) := by
        rw [h, UInt32.add_assoc]
    _ = q.stats.gets + q.stats.overflows +
          (UInt32.ofNat q.ousted?.toList.length + UInt32.ofNat (q.put a).length) := by
        rw [← UInt32.ofNat_add, ← hlength, UInt32.ofNat_add]
        rfl
    _ = (q.put a).stats.gets + (q.put a).stats.overflows + UInt32.ofNat (q.put a).length := by
        rw [q.overflows_put a pos, ← UInt32.add_assoc, ← UInt32.add_assoc]
        rfl

theorem IsBalanced.pop (h : q.IsBalanced) : (q.use .pop).2.IsBalanced := by
  rcases hitems : q.items with _ | ⟨a, rest⟩
  · rw [use_pop_of_nil hitems]
    exact h
  · obtain ⟨-, hrest, hstats⟩ := use_pop_of_cons hitems
    have hlength : q.length = (q.use .pop).2.length + 1 := by
      rw [length, length, hitems, hrest, List.length_cons]
    have hone : (1 : UInt32) = UInt32.ofNat 1 := rfl
    rw [IsBalanced, hlength, UInt32.ofNat_add, ← hone] at h
    rw [IsBalanced, hstats]
    dsimp only
    rw [h]
    ac_rfl

/-- The mark stands at the greatest length that the queue has had over these uses. -/
structure IsMarked (q : Backlog α capacity) (uses : List (Use α)) : Prop where
  le : ∀ before, before <+: uses →
    (q.afterUses before).length ≤ (q.afterUses uses).stats.highWater
  reached : ∃ before, before <+: uses ∧
    (q.afterUses before).length = (q.afterUses uses).stats.highWater

/-- Only a use that makes the queue longer than ever moves the mark. -/
theorem highWater_use (q : Backlog α capacity) (u : Use α) (h : q.length ≤ q.stats.highWater) :
    (q.use u).2.stats.highWater = max q.stats.highWater (q.use u).2.length := by
  cases u with
  | put a => rfl
  | pop =>
    rcases hitems : q.items with _ | ⟨a, rest⟩
    · rw [use_pop_of_nil hitems]
      exact (Nat.max_eq_left h).symm
    · obtain ⟨-, hrest, hstats⟩ := use_pop_of_cons hitems
      have hshorter : (q.use .pop).2.length ≤ q.length := by
        rw [length, length, hitems, hrest, List.length_cons]
        exact Nat.le_succ _
      rw [hstats, Nat.max_eq_left (Nat.le_trans hshorter h)]

theorem IsMarked.concat {uses : List (Use α)} (h : q.IsMarked uses) (u : Use α) :
    q.IsMarked (uses ++ [u]) := by
  have hmark := highWater_use _ u (h.le uses (List.prefix_refl uses))
  rw [← afterUses_concat] at hmark
  constructor
  · intro before hbefore
    rw [hmark]
    rcases List.prefix_concat_iff.1 hbefore with rfl | hbefore
    · exact Nat.le_max_right _ _
    · exact Nat.le_trans (h.le before hbefore) (Nat.le_max_left _ _)
  · rw [hmark]
    obtain ⟨before, hbefore, hreached⟩ := h.reached
    rcases Nat.le_total (q.afterUses uses).stats.highWater (q.afterUses (uses ++ [u])).length
      with hle | hle
    · exact ⟨uses ++ [u], List.prefix_refl _, (Nat.max_eq_right hle).symm⟩
    · refine ⟨before, hbefore.trans (List.prefix_append _ _), ?_⟩
      rw [Nat.max_eq_left hle, hreached]

/-! ## The history of a new queue -/

/-- A queue of this capacity in which nothing has been put yet. -/
def new (α : Type) (capacity : Nat) : Backlog α capacity :=
  ⟨[], {}, Nat.zero_le capacity⟩

/-- What the next use of a queue comes to. -/
structure TakesTurns (q : Backlog α capacity) : Prop where
  pop_nil : q.items = [] → q.use .pop = (none, q)
  pop_cons : ∀ a rest, q.items = a :: rest →
    (q.use .pop).1 = some a ∧ (q.use .pop).2.items = rest ∧
      (q.use .pop).2.stats = { q.stats with gets := q.stats.gets + 1 }
  put_room : ∀ a, q.length < capacity → (q.put a).items = q.items ++ [a] ∧
    (q.put a).stats.overflows = q.stats.overflows
  put_full : ∀ a, q.length = capacity → ∃ oldest rest, q.items = oldest :: rest ∧
    (q.put a).items = rest ++ [a] ∧ (q.put a).stats.overflows = q.stats.overflows + 1

/-- The queue holds the latest items of its history, and its counters tell of all of them. -/
structure KeepsLatest (uses : List (Use α)) (q : Backlog α capacity) : Prop where
  length_le : q.length ≤ capacity
  items : q.items = latest q.length (uses.filterMap Use.item?)
  left : (new α capacity).left uses ++ q.items = uses.filterMap Use.item?
  turns : q.TakesTurns
  puts : q.stats.puts = UInt32.ofNat (uses.filterMap Use.item?).length
  balance : q.stats.puts = q.stats.gets + q.stats.overflows + UInt32.ofNat q.length
  mark : (new α capacity).IsMarked uses

theorem takesTurns (q : Backlog α capacity) (pos : 0 < capacity) : q.TakesTurns where
  pop_nil := use_pop_of_nil
  pop_cons _ _ := use_pop_of_cons
  put_room a h := by
    refine ⟨items_put_of_length_lt a h, if_neg ?_⟩
    rw [isFull, decide_eq_true_eq]
    exact Nat.not_le.2 h
  put_full a h := by
    have hitems := items_put_of_length_eq a h pos
    have hfull : q.isFull = true := decide_eq_true (Nat.le_of_eq h.symm)
    rcases hold : q.items with _ | ⟨oldest, rest⟩
    · rw [length, hold] at h
      exact absurd h (Nat.ne_of_lt pos)
    · rw [hold] at hitems
      exact ⟨oldest, rest, rfl, hitems, if_pos hfull⟩

theorem isBalanced_afterUses (h : q.IsBalanced) (uses : List (Use α)) (pos : 0 < capacity) :
    (q.afterUses uses).IsBalanced := by
  induction uses generalizing q with
  | nil => exact h
  | cons u uses ih =>
    cases u with
    | put a => exact ih (h.put a pos)
    | pop => exact ih h.pop

theorem isMarked_new (uses : List (Use α)) : (new α capacity).IsMarked uses := by
  induction uses using List.reverseRecOn with
  | nil =>
    refine ⟨fun before hbefore => ?_, [], List.prefix_refl [], rfl⟩
    rw [List.prefix_nil.1 hbefore]
    exact Nat.le_refl 0
  | append_singleton uses u ih => exact ih.concat u

theorem puts_afterUses (q : Backlog α capacity) (uses : List (Use α)) :
    (q.afterUses uses).stats.puts =
      q.stats.puts + UInt32.ofNat (uses.filterMap Use.item?).length := by
  induction uses generalizing q with
  | nil => exact (UInt32.add_zero _).symm
  | cons u uses ih =>
    have hlater := ih (q.use u).2
    cases u with
    | put a =>
      show ((q.put a).afterUses uses).stats.puts = _
      rw [List.filterMap_cons, Use.item?]
      dsimp only
      rw [List.length_cons, Nat.add_comm, UInt32.ofNat_add, ← UInt32.add_assoc]
      exact hlater
    | pop =>
      have hsame : (q.use .pop).2.stats.puts = q.stats.puts := by
        rcases hitems : q.items with _ | ⟨a, rest⟩
        · rw [use_pop_of_nil hitems]
        · rw [(use_pop_of_cons hitems).2.2]
      rw [hsame] at hlater
      exact hlater

/-- A queue holds the latest of the items that were put in. The oldest of them is the next to
    leave, when it is taken or when it has to make room, and the counters tell of every item. -/
theorem keepsLatest_of_uses (uses : List (Use α)) (pos : 0 < capacity) :
    KeepsLatest uses ((new α capacity).afterUses uses) := by
  have hleft : uses.filterMap Use.item? =
      (new α capacity).left uses ++ ((new α capacity).afterUses uses).items :=
    (new α capacity).put_in_eq uses pos
  have hbalanced : (new α capacity).IsBalanced := rfl
  refine ⟨Backlog.length_le _, ?_, hleft.symm, takesTurns _ pos, ?_,
    isBalanced_afterUses hbalanced uses pos, isMarked_new uses⟩
  · rw [hleft, latest, List.length_append]
    show _ = List.drop (_ + _ - List.length _) _
    rw [Nat.add_sub_cancel, List.drop_left]
  · rw [puts_afterUses]
    exact UInt32.zero_add _

/-- An empty queue for two items is asked in vain, and then gets three items, the first of which
    makes room for the last. -/
def crowdedUses : List (Use Nat) := [.pop, .put 1, .put 2, .put 3, .pop]

theorem keepsLatest_of_crowdedUses :
    0 < 2 ∧ KeepsLatest crowdedUses ((new Nat 2).afterUses crowdedUses) ∧
      ((new Nat 2).afterUses crowdedUses).items = [3] ∧
      ((new Nat 2).afterUses crowdedUses).stats =
        { puts := 3, gets := 1, overflows := 1, highWater := 2 } :=
  ⟨by decide, keepsLatest_of_uses crowdedUses (by decide), by decide, by decide⟩

end RailNode.Backlog
