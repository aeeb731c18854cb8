import Mathlib.Data.List.Basic
import Mathlib.Tactic.SplitIfs
import RailNode.Series

/-
  The pace of a series. However often it is polled, and with whatever gaps between the polls, its
  replies are given in order, none twice, none too early and none later than at the first poll at
  which it is due (`Paced`). One poll keeps this, together with what is left of the series
  (`Stands.poll`).
-/
namespace RailNode.Series

variable {κ : Type} {kind : κ} {s : Series κ} {now gap : Time}

/-! ## Polls -/

/-- A poll of what is left of a series, if anything is. -/
def pollLeft (now gap : Time) : Option (Series κ) → Option Nat × Option (Series κ)
  | none => (none, none)
  | some s => s.poll now gap

/-- The same series under another name for its kind. -/
def relabel {μ : Type} (f : κ → μ) (s : Series κ) : Series μ := ⟨f s.kind, s.next, s.stop, s.due⟩

theorem pollLeft_relabel {μ : Type} (f : κ → μ) (now gap : Time) (left : Option (Series κ)) :
    pollLeft now gap (left.map (relabel f)) =
      ((pollLeft now gap left).1, (pollLeft now gap left).2.map (relabel f)) := by
  rcases left with _ | s
  · rfl
  · by_cases hdone : s.stop ≤ s.next
    · simp [relabel, pollLeft, poll, isDone, hdone]
    · by_cases hdue : now < s.due
      · simp [relabel, pollLeft, poll, isDone, hdone, hdue]
      · by_cases hrest : s.stop ≤ s.next + 1 <;>
          simp [relabel, pollLeft, poll, isDone, advance, hdone, hdue, hrest]

/-- What a poll of a series can come to. -/
inductive Polled (now gap : Time) (s : Series κ) : Option Nat → Option (Series κ) → Prop
  | done : s.stop ≤ s.next → Polled now gap s none none
  | waits : s.next < s.stop → now < s.due → Polled now gap s none (some s)
  | gives : s.next + 1 < s.stop → s.due ≤ now →
      Polled now gap s (some s.next) (some (s.advance now gap))
  | ends : s.next + 1 = s.stop → s.due ≤ now → Polled now gap s (some s.next) none

theorem polled_poll (now gap : Time) (s : Series κ) :
    Polled now gap s (s.poll now gap).1 (s.poll now gap).2 := by
  unfold poll isDone
  split_ifs with hdone hdue
  · exact .done (of_decide_eq_true hdone)
  · exact .waits (Nat.lt_of_not_le (by simpa using hdone)) hdue
  · have hnext : s.next < s.stop := Nat.lt_of_not_le (by simpa using hdone)
    dsimp only [advance]
    split_ifs with hrest
    · have hstop : s.stop ≤ s.next + 1 := of_decide_eq_true hrest
      exact .ends (Nat.le_antisymm hnext hstop) (Nat.le_of_not_lt hdue)
    · exact .gives (Nat.lt_of_not_le (by simpa using hrest)) (Nat.le_of_not_lt hdue)

/-- A poll, and the number of the reply that it has given. -/
structure Call where
  now : Time
  number : Option Nat

/-- The numbers of the replies that calls have given. -/
def given (calls : List Call) : List Nat := calls.filterMap Call.number

/-- The replies to these calls are the first of `n`, in their order and without a gap in the
    numbers, but with one in time. A call for which enough time has passed gives the next one, if
    there is one. -/
structure Paced (gap : Time) (n : Nat) (calls : List Call) : Prop where
  ascending : ∃ k ≤ n, given calls = List.range' 1 k
  apart : calls.Pairwise fun x y => x.number.isSome → y.number.isSome → x.now + gap ≤ y.now
  prompt : ∀ before x after, calls = before ++ x :: after →
    (∀ y ∈ before, y.number.isSome → y.now + gap ≤ x.now) → (given before).length < n →
    x.number.isSome

/-- How a series of `n` replies that was started at this time stands after these calls. -/
structure Stands (kind : κ) (gap : Time) (n : Nat) (started : Time) (calls : List Call)
    (left : Option (Series κ)) : Prop where
  paced : Paced gap n calls
  ended : left = none → (given calls).length = n
  kind : ∀ s, left = some s → s.kind = kind
  next : ∀ s, left = some s → s.next = (given calls).length + 1 ∧ s.stop = n + 1
  /-- The next reply is due when the gap after the last one is over, and the first one at once. -/
  due : ∀ s, left = some s → (∀ x ∈ calls, x.number.isSome → x.now + gap ≤ s.due) ∧
    ∀ t, started ≤ t → (∀ x ∈ calls, x.number.isSome → x.now + gap ≤ t) → s.due ≤ t

variable {n : Nat} {started : Time} {calls : List Call} {left : Option (Series κ)}

theorem given_append (calls later : List Call) :
    given (calls ++ later) = given calls ++ given later := List.filterMap_append

theorem Paced.length_le (h : Paced gap n calls) : (given calls).length ≤ n := by
  obtain ⟨k, hk, hgiven⟩ := h.ascending
  rw [hgiven, List.length_range']
  exact hk

theorem Paced.given_eq (h : Paced gap n calls) :
    given calls = List.range' 1 (given calls).length := by
  obtain ⟨k, _, hgiven⟩ := h.ascending
  rw [hgiven, List.length_range']

/-- An item of a list that ends with `c` is that one or one before it. -/
theorem split_concat {α : Type} {c x : α} {items before after : List α}
    (h : items ++ [c] = before ++ x :: after) : before = items ∧ x = c ∧ after = [] ∨
      ∃ between, after = between ++ [c] ∧ items = before ++ x :: between := by
  rcases List.eq_nil_or_concat' after with rfl | ⟨between, y, rfl⟩
  · obtain ⟨hbefore, hx⟩ := List.append_inj' h rfl
    exact Or.inl ⟨hbefore.symm, (List.singleton_inj.1 hx).symm, rfl⟩
  · rw [← List.cons_append, ← List.append_assoc] at h
    obtain ⟨hitems, hy⟩ := List.append_inj' h rfl
    exact Or.inr ⟨between, by rw [List.singleton_inj.1 hy], hitems⟩

/-- A call that is made without a reply keeps the pace if none was due. -/
theorem Paced.concat_none (h : Paced gap n calls)
    (hnone : (∀ x ∈ calls, x.number.isSome → x.now + gap ≤ now) → n ≤ (given calls).length) :
    Paced gap n (calls ++ [⟨now, none⟩]) where
  ascending := by
    obtain ⟨k, hk, hgiven⟩ := h.ascending
    refine ⟨k, hk, ?_⟩
    rw [given_append, hgiven]
    exact List.append_nil _
  apart := by
    refine List.pairwise_append.2 ⟨h.apart, List.pairwise_singleton _ _, fun x _ y hy => ?_⟩
    rw [List.mem_singleton.1 hy]
    exact fun _ hy => nomatch hy
  prompt := by
    intro before x after hsplit hgap hmore
    rcases split_concat hsplit with ⟨rfl, rfl, -⟩ | ⟨between, -, hcalls⟩
    · exact absurd hmore (Nat.not_lt_of_le (hnone hgap))
    · exact h.prompt before x between hcalls hgap hmore

/-- The next reply keeps the pace if the gap after the last one is over. -/
theorem Paced.concat_some (h : Paced gap n calls) (hmore : (given calls).length < n)
    (hgap : ∀ x ∈ calls, x.number.isSome → x.now + gap ≤ now) :
    Paced gap n (calls ++ [⟨now, some ((given calls).length + 1)⟩]) where
  ascending := by
    refine ⟨(given calls).length + 1, hmore, ?_⟩
    rw [given_append, List.range'_concat, ← h.given_eq, Nat.one_mul, Nat.add_comm 1]
    rfl
  apart := by
    refine List.pairwise_append.2 ⟨h.apart, List.pairwise_singleton _ _, fun x hx y hy => ?_⟩
    rw [List.mem_singleton.1 hy]
    exact fun hgiven _ => hgap x hx hgiven
  prompt := by
    intro before x after hsplit hgap hmore
    rcases split_concat hsplit with ⟨rfl, rfl, -⟩ | ⟨between, -, hcalls⟩
    · rfl
    · exact h.prompt before x between hcalls hgap hmore

theorem stands_start (now gap : Time) (kind : κ) (n : Nat) :
    Stands kind gap n now [] (some (start now kind 1 (n + 1))) where
  paced :=
    { ascending := ⟨0, Nat.zero_le n, rfl⟩
      apart := .nil
      prompt := fun before x after h => by simp at h }
  ended := nofun
  kind := fun s hs => by rw [← Option.some.inj hs]; rfl
  next := fun s hs => by rw [← Option.some.inj hs]; exact ⟨rfl, rfl⟩
  due := fun s hs => by
    rw [← Option.some.inj hs]
    exact ⟨fun _ hx => absurd hx List.not_mem_nil, fun t ht _ => ht⟩

/-- A poll keeps the pace, and what it leaves goes on from there. -/
theorem Stands.poll (h : Stands kind gap n started calls left) (hnow : started ≤ now)
    (hlast : now + gap ≤ Time.last) :
    Stands kind gap n started (calls ++ [⟨now, (pollLeft now gap left).1⟩])
      (pollLeft now gap left).2 := by
  have hle := h.paced.length_le
  rcases left with _ | s
  · exact
      { paced := h.paced.concat_none fun _ => Nat.le_of_eq (h.ended rfl).symm
        ended := fun _ => by rw [given_append, ← h.ended rfl]; exact congrArg _ (List.append_nil _)
        kind := nofun
        next := nofun
        due := nofun }
  obtain ⟨hnext, hstop⟩ := h.next s rfl
  obtain ⟨hafter, hdue⟩ := h.due s rfl
  have hsame : given (calls ++ [⟨now, none⟩]) = given calls := by
    rw [given_append]
    exact List.append_nil _
  have hpolled := polled_poll now gap s
  rw [pollLeft]
  generalize (s.poll now gap).1 = number, (s.poll now gap).2 = rest at hpolled
  cases hpolled with
  | done hdone =>
    have hn : (given calls).length = n := by omega
    exact
      { paced := h.paced.concat_none fun _ => Nat.le_of_eq hn.symm
        ended := fun _ => by rw [hsame, hn]
        kind := nofun
        next := nofun
        due := nofun }
  | waits hmore hwait =>
    have hnone : ∀ {t}, (∀ x ∈ calls ++ [⟨now, none⟩], x.number.isSome → x.now + gap ≤ t) →
        ∀ x ∈ calls, x.number.isSome → x.now + gap ≤ t :=
      fun ht x hx => ht x (List.mem_append_left _ hx)
    exact
      { paced := h.paced.concat_none fun hgap =>
          absurd (hdue now hnow hgap) (Nat.not_le_of_lt hwait)
        ended := nofun
        kind := h.kind
        next := by rw [hsame]; exact h.next
        due := fun s' hs' => by
          obtain rfl := Option.some.inj hs'
          refine ⟨fun x hx hgiven => ?_, fun t ht hgap => hdue t ht (hnone hgap)⟩
          rcases List.mem_append.1 hx with hx | hx
          · exact hafter x hx hgiven
          · rw [List.mem_singleton.1 hx] at hgiven
            exact nomatch hgiven }
  | gives hmore hreached =>
    have hgap : ∀ x ∈ calls, x.number.isSome → x.now + gap ≤ now :=
      fun x hx hgiven => Nat.le_trans (hafter x hx hgiven) hreached
    have hlength : (given (calls ++ [⟨now, some s.next⟩])).length = (given calls).length + 1 := by
      rw [given_append, List.length_append]
      rfl
    exact
      { paced := hnext ▸ h.paced.concat_some (by omega) hgap
        ended := nofun
        kind := fun s' hs' => by
          obtain rfl := Option.some.inj hs'
          exact h.kind s rfl
        next := fun s' hs' => by
          obtain rfl := Option.some.inj hs'
          rw [hlength]
          exact ⟨congrArg (· + 1) hnext, hstop⟩
        due := fun s' hs' => by
          obtain rfl := Option.some.inj hs'
          rw [show (s.advance now gap).due = now + gap from Time.deadline_eq hlast]
          refine ⟨fun x hx hgiven => ?_, fun t _ ht => ?_⟩
          · rcases List.mem_append.1 hx with hx | hx
            · exact Nat.le_trans (hgap x hx hgiven) (Nat.le_add_right now gap)
            · exact Nat.le_of_eq (by rw [List.mem_singleton.1 hx])
          · exact ht ⟨now, some s.next⟩ (List.mem_append_right _ List.mem_cons_self) rfl }
  | ends hmore hreached =>
    have hgap : ∀ x ∈ calls, x.number.isSome → x.now + gap ≤ now :=
      fun x hx hgiven => Nat.le_trans (hafter x hx hgiven) hreached
    exact
      { paced := hnext ▸ h.paced.concat_some (by omega) hgap
        ended := fun _ => by
          rw [given_append, List.length_append]
          show (given calls).length + 1 = n
          omega
        kind := nofun
        next := nofun
        due := nofun }

end RailNode.Series
