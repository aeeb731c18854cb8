import RailNode.Proofs.Pacing

/-
  Series that pass over numbers. At each poll such a series first skips the numbers for which there
  is nothing to tell at that moment, so one cursor both looks for the next reply and keeps the pace.
  However these vacant numbers change from one poll to the next, the replies ascend, none is vacant
  when it is given, and a number that was never vacant is not passed over (`Sweeps`). The series
  comes to its end (`Sweeping.exists_ended`).
-/
namespace RailNode.Series

variable {κ : Type} {kind : κ} {s : Series κ} {now gap started : Time} {vacant : Nat → Bool}

/-! ## Skipping -/

/-- A series skips vacant numbers only, and stops before one that is not, or at its end. -/
theorem skip_spec (vacant : Nat → Bool) (s : Series κ) :
    s.next ≤ (s.skip vacant).next ∧
      (∀ i, s.next ≤ i → i < (s.skip vacant).next → i < s.stop → vacant i = true) ∧
      ((s.skip vacant).next < s.stop → vacant (s.skip vacant).next = false) := by
  unfold skip
  dsimp only
  rcases hfind : (List.range' s.next (s.stop - s.next)).find? (!vacant ·) with _ | k
  · have hall := List.find?_range'_eq_none.1 hfind
    simp only [Bool.not_not] at hall
    refine ⟨Nat.le_max_left _ _, fun i hi _ hstop => hall i hi (by omega), fun hlt => ?_⟩
    exact absurd (Nat.le_max_right s.next s.stop) (Nat.not_le_of_lt hlt)
  · obtain ⟨hk, hmem, hbefore⟩ := List.find?_range'_eq_some.1 hfind
    simp only [Bool.not_not] at hbefore
    exact ⟨(List.mem_range'_1.1 hmem).1, fun i hi hlt _ => hbefore i hi hlt,
      fun _ => by simpa using hk⟩

/-- A poll of what is left of a series, past the vacant numbers. -/
def sweepLeft (now gap : Time) (vacant : Nat → Bool) (left : Option (Series κ)) :
    Option Nat × Option (Series κ) :=
  pollLeft now gap (left.map (skip vacant))

/-- A reply past the vacant numbers is of one that is not vacant. -/
theorem vacant_of_poll_skip {i : Nat} (h : ((s.skip vacant).poll now gap).1 = some i) :
    i < s.stop ∧ vacant i = false := by
  have hpolled := polled_poll now gap (s.skip vacant)
  rw [h] at hpolled
  generalize ((s.skip vacant).poll now gap).2 = rest at hpolled
  have hlt : (s.skip vacant).next < s.stop := by
    cases hpolled with
    | gives hmore _ => exact Nat.lt_of_succ_lt hmore
    | ends hmore _ => exact Nat.lt_of_succ_le (Nat.le_of_eq hmore)
  have hi : i = (s.skip vacant).next := by cases hpolled <;> rfl
  exact ⟨hi ▸ hlt, hi ▸ (skip_spec vacant s).2.2 hlt⟩

/-! ## Passes -/

/-- A poll of a series that passes over vacant numbers. -/
structure Pass where
  now : Time
  /-- The numbers for which there is nothing to tell at that moment. -/
  vacant : Nat → Bool
  /-- The number of the reply, if one is given. -/
  number : Option Nat
  /-- Whether nothing is left of the series afterwards. -/
  ended : Bool

/-- The numbers of the replies that passes have given. -/
def told (passes : List Pass) : List Nat := passes.filterMap Pass.number

theorem told_append (before after : List Pass) :
    told (before ++ after) = told before ++ told after := List.filterMap_append

/-- What passes tell of the numbers below `stop`: in ascending order, only what is not vacant at
    that moment, and by the end all that was vacant at no pass. Afterwards they tell nothing. -/
structure Sweeps (stop : Nat) (passes : List Pass) : Prop where
  ascending : (told passes).Pairwise (· < ·)
  present : ∀ x ∈ passes, ∀ i, x.number = some i → i < stop ∧ x.vacant i = false
  complete : ∀ before x after, passes = before ++ x :: after → x.ended = true →
    ∀ i < stop, (∀ y ∈ before ++ [x], y.vacant i = false) → i ∈ told (before ++ [x])
  quiet : ∀ before x after, passes = before ++ x :: after → x.ended = true →
    ∀ y ∈ after, y.number = none ∧ y.ended = true

/-- The numbers below `k` are settled: the replies are among them, and all of them have been given
    that were vacant at no pass. -/
structure Settles (stop : Nat) (passes : List Pass) (k : Nat) : Prop where
  below : ∀ i ∈ told passes, i < k
  complete : ∀ i < k, i < stop → (∀ x ∈ passes, x.vacant i = false) → i ∈ told passes

variable {stop k : Nat} {passes : List Pass} {x : Pass} {left : Option (Series κ)}

theorem told_concat_none (h : x.number = none) : told (passes ++ [x]) = told passes := by
  simp [told, h]

theorem told_concat_some {i : Nat} (h : x.number = some i) :
    told (passes ++ [x]) = told passes ++ [i] := by
  simp [told, h]

/-- What a series skips is settled unless it is vacant now. -/
theorem Settles.skip (h : Settles s.stop passes s.next) {i : Nat}
    (hi : i < (s.skip vacant).next) (hstop : i < s.stop)
    (hall : ∀ x ∈ passes, x.vacant i = false) (hnow : vacant i = false) : i ∈ told passes := by
  rcases Nat.lt_or_ge i s.next with hlt | hge
  · exact h.complete i hlt hstop hall
  · have hvacant := (skip_spec vacant s).2.1 i hge hi hstop
    exact absurd (hvacant.symm.trans hnow) (by decide)

theorem Settles.concat_none (h : Settles s.stop passes s.next) (hx : x.number = none) :
    Settles s.stop (passes ++ [x]) (s.skip x.vacant).next where
  below i hi := by
    rw [told_concat_none hx] at hi
    exact Nat.lt_of_lt_of_le (h.below i hi) (skip_spec x.vacant s).1
  complete i hi hstop hall := by
    rw [List.forall_mem_append, List.forall_mem_singleton] at hall
    rw [told_concat_none hx]
    exact h.skip hi hstop hall.1 hall.2

theorem Settles.concat_some (h : Settles s.stop passes s.next)
    (hx : x.number = some (s.skip x.vacant).next) :
    Settles s.stop (passes ++ [x]) ((s.skip x.vacant).next + 1) where
  below i hi := by
    rw [told_concat_some hx, List.mem_append, List.mem_singleton] at hi
    rcases hi with hi | rfl
    · exact Nat.lt_succ_of_lt (Nat.lt_of_lt_of_le (h.below i hi) (skip_spec x.vacant s).1)
    · exact Nat.lt_succ_self _
  complete i hi hstop hall := by
    rw [List.forall_mem_append, List.forall_mem_singleton] at hall
    rw [told_concat_some hx, List.mem_append, List.mem_singleton]
    rcases Nat.lt_succ_iff_lt_or_eq.1 hi with hlt | heq
    · exact Or.inl (h.skip hlt hstop hall.1 hall.2)
    · exact Or.inr heq

theorem sweeps_nil (stop : Nat) : Sweeps stop [] where
  ascending := .nil
  present := nofun
  complete before x after h := by simp at h
  quiet before x after h := by simp at h

/-- A pass of a series that has not ended keeps the law: a reply comes behind those before it, and
    at the end everything is settled. -/
theorem Sweeps.concat (h : Sweeps stop passes) (hopen : ∀ y ∈ passes, y.ended = false)
    (hsettles : Settles stop (passes ++ [x]) k) (hended : x.ended = true → stop ≤ k)
    (hnumber : ∀ i, x.number = some i →
      i < stop ∧ x.vacant i = false ∧ ∀ j ∈ told passes, j < i) :
    Sweeps stop (passes ++ [x]) where
  ascending := by
    rcases hx : x.number with _ | i
    · rw [told_concat_none hx]
      exact h.ascending
    · rw [told_concat_some hx, List.pairwise_append]
      refine ⟨h.ascending, List.pairwise_singleton _ _, fun j hj i' hi' => ?_⟩
      rw [List.mem_singleton.1 hi']
      exact (hnumber i hx).2.2 j hj
  present y hy i hi := by
    rcases List.mem_append.1 hy with hy | hy
    · exact h.present y hy i hi
    · rw [List.mem_singleton.1 hy] at hi ⊢
      exact ⟨(hnumber i hi).1, (hnumber i hi).2.1⟩
  complete before y after hsplit hy i hi hall := by
    rcases split_concat hsplit with ⟨rfl, rfl, -⟩ | ⟨between, -, hpasses⟩
    · exact hsettles.complete i (Nat.lt_of_lt_of_le hi (hended hy)) hi hall
    · exact h.complete before y between hpasses hy i hi hall
  quiet before y after hsplit hy := by
    rcases split_concat hsplit with ⟨-, -, rfl⟩ | ⟨between, -, hpasses⟩
    · exact nofun
    · rw [hopen y (hpasses ▸ List.mem_append_right _ List.mem_cons_self)] at hy
      contradiction

/-- A pass of a series that has ended tells nothing. -/
theorem Sweeps.concat_ended (h : Sweeps stop passes) (hopen : ∃ y ∈ passes, y.ended = true)
    (hnumber : x.number = none) (hended : x.ended = true) : Sweeps stop (passes ++ [x]) where
  ascending := by
    rw [told_concat_none hnumber]
    exact h.ascending
  present y hy i hi := by
    rcases List.mem_append.1 hy with hy | hy
    · exact h.present y hy i hi
    · rw [List.mem_singleton.1 hy, hnumber] at hi
      contradiction
  complete before y after hsplit hy i hi hall := by
    rcases split_concat hsplit with ⟨rfl, rfl, -⟩ | ⟨between, -, hpasses⟩
    · obtain ⟨z, hz, hzended⟩ := hopen
      obtain ⟨first, later, rfl⟩ := List.append_of_mem hz
      have hmem := h.complete first z later rfl hzended i hi fun y hy => hall y (by
        rw [List.append_cons first z later, List.append_assoc]
        exact List.mem_append_left _ hy)
      rw [List.append_cons first z later, List.append_assoc, told_append]
      exact List.mem_append_left _ hmem
    · exact h.complete before y between hpasses hy i hi hall
  quiet before y after hsplit hy := by
    rcases split_concat hsplit with ⟨-, -, rfl⟩ | ⟨between, rfl, hpasses⟩
    · exact nofun
    · rw [List.forall_mem_append, List.forall_mem_singleton]
      exact ⟨h.quiet before y between hpasses hy, hnumber, hended⟩

/-! ## The whole series -/

/-- How a series over the numbers below `stop` stands after passes. The last two clauses are about
    its end: the clock is what makes it go on, so there is a reply for each of any passes that are a
    gap apart. -/
structure Sweeping (kind : κ) (started gap : Time) (stop : Nat) (passes : List Pass)
    (left : Option (Series κ)) : Prop where
  sweeps : Sweeps stop passes
  ended : left = none ↔ ∃ x ∈ passes, x.ended = true
  kind : ∀ s, left = some s → s.kind = kind
  cursor : ∀ s, left = some s → s.stop = stop ∧ Settles stop passes s.next
  due : ∀ s, left = some s → ∀ t, started ≤ t → (∀ x ∈ passes, x.now ≤ t) → s.due ≤ t + gap
  ticks : ∀ s, left = some s → (started :: passes.map Pass.now).Pairwise (· ≤ ·) →
    ∀ ticks : List Pass, ticks.Sublist passes → ticks.Pairwise (fun x y => x.now + gap ≤ y.now) →
      ticks.length ≤ s.next ∧ ∀ t, started ≤ t → t < s.due →
        (∀ x ∈ ticks, x.now + gap ≤ t) → ticks.length + 1 ≤ s.next

theorem sweeping_start (now gap : Time) (kind : κ) (stop : Nat) :
    Sweeping kind now gap stop [] (some (start now kind 0 stop)) where
  sweeps := sweeps_nil stop
  ended := ⟨nofun, nofun⟩
  kind s hs := by
    obtain rfl := Option.some.inj hs
    rfl
  cursor s hs := by
    obtain rfl := Option.some.inj hs
    exact ⟨rfl, nofun, nofun⟩
  due s hs t ht _ := by
    obtain rfl := Option.some.inj hs
    exact Nat.le_trans ht (Nat.le_add_right t gap)
  ticks s hs _ ticks hticks _ := by
    obtain rfl := Option.some.inj hs
    obtain rfl := List.sublist_nil.1 hticks
    exact ⟨Nat.le_refl 0, fun t ht hdue _ => absurd ht (Nat.not_le_of_lt hdue)⟩

/-- The pass that a poll is. -/
def passOf (now gap : Time) (vacant : Nat → Bool) (left : Option (Series κ)) : Pass where
  now := now
  vacant := vacant
  number := (sweepLeft now gap vacant left).1
  ended := (sweepLeft now gap vacant left).2.isNone

/-- What is left after a reply is due a gap later. -/
theorem due_advance_le (now gap : Time) (s : Series κ) : (s.advance now gap).due ≤ now + gap :=
  Nat.min_le_left _ _

/-- A poll that does not end a series leaves it waiting, or gives a reply and starts the gap. -/
theorem Sweeping.ticks_concat {rest : Series κ} (h : Sweeping kind started gap stop passes (some s))
    (hrest : x.now < s.due ∧ rest.due = s.due ∧ s.next ≤ rest.next ∨
      s.next + 1 ≤ rest.next ∧ rest.due ≤ x.now + gap)
    (htimes : (started :: (passes ++ [x]).map Pass.now).Pairwise (· ≤ ·)) {ticks : List Pass}
    (hticks : ticks.Sublist (passes ++ [x]))
    (hapart : ticks.Pairwise fun x y => x.now + gap ≤ y.now) :
    ticks.length ≤ rest.next ∧ ∀ t, started ≤ t → t < rest.due →
      (∀ x ∈ ticks, x.now + gap ≤ t) → ticks.length + 1 ≤ rest.next := by
  rw [List.map_append, ← List.cons_append, List.pairwise_append] at htimes
  obtain ⟨htimes, -, hlater⟩ := htimes
  have hnow : started ≤ x.now := hlater started List.mem_cons_self x.now List.mem_cons_self
  have hdue : s.due ≤ x.now + gap := h.due s rfl x.now hnow fun y hy =>
    hlater y.now (List.mem_cons_of_mem _ (List.mem_map_of_mem hy)) x.now List.mem_cons_self
  obtain ⟨first, last, rfl, hfirst, hlast⟩ := List.sublist_append_iff.1 hticks
  obtain ⟨hfirstApart, -, hgap⟩ := List.pairwise_append.1 hapart
  obtain ⟨hle, hmore⟩ := h.ticks s rfl htimes first hfirst hfirstApart
  rcases List.sublist_singleton.1 hlast with rfl | rfl
  · rw [List.append_nil]
    rcases hrest with ⟨_, hsame, hnext⟩ | ⟨hnext, _⟩
    · refine ⟨Nat.le_trans hle hnext, fun t ht hlt hall => ?_⟩
      exact Nat.le_trans (hmore t ht (hsame ▸ hlt) hall) hnext
    · exact ⟨by omega, fun t _ _ _ => by omega⟩
  · rw [List.length_append, List.length_singleton]
    -- The last tick is this poll, and its gap is over at no time before the next reply is due.
    have hlast : rest.due ≤ x.now + gap := by
      rcases hrest with ⟨_, hsame, _⟩ | ⟨_, hle⟩
      · exact hsame ▸ hdue
      · exact hle
    refine ⟨?_, fun t _ hlt hall => absurd (Nat.lt_of_lt_of_le hlt hlast) (Nat.not_lt_of_le ?_)⟩
    · rcases hrest with ⟨hwait, _, hnext⟩ | ⟨hnext, _⟩
      · exact Nat.le_trans (hmore x.now hnow hwait fun y hy => hgap y hy x List.mem_cons_self) hnext
      · omega
    · exact hall x (List.mem_append_right _ List.mem_cons_self)

/-- A poll keeps the laws. -/
theorem Sweeping.poll (h : Sweeping kind started gap stop passes left) (now : Time)
    (vacant : Nat → Bool) : Sweeping kind started gap stop
      (passes ++ [passOf now gap vacant left]) (sweepLeft now gap vacant left).2 := by
  rcases left with _ | s
  · exact
      { sweeps := h.sweeps.concat_ended (h.ended.1 rfl) rfl rfl
        ended := iff_of_true rfl ⟨_, List.mem_append_right _ List.mem_cons_self, rfl⟩
        kind := nofun
        cursor := nofun
        due := nofun
        ticks := nofun }
  obtain ⟨rfl, hsettles⟩ := h.cursor s rfl
  obtain ⟨hle, -, hpresent⟩ := skip_spec vacant s
  have hopen : ∀ y ∈ passes, y.ended = false := fun y hy =>
    Bool.eq_false_iff.2 fun hended => nomatch h.ended.2 ⟨y, hy, hended⟩
  have hbelow : ∀ j ∈ told passes, j < (s.skip vacant).next := fun j hj =>
    Nat.lt_of_lt_of_le (hsettles.below j hj) hle
  have hpolled := polled_poll now gap (s.skip vacant)
  unfold passOf sweepLeft
  rw [Option.map_some, pollLeft]
  generalize ((s.skip vacant).poll now gap).1 = number,
    ((s.skip vacant).poll now gap).2 = rest at hpolled ⊢
  have hnumber : ∀ i, number = some i →
      i < s.stop ∧ vacant i = false ∧ ∀ j ∈ told passes, j < i := by
    rintro i rfl
    cases hpolled with
    | gives hmore _ =>
      have hlt : (s.skip vacant).next < s.stop := Nat.lt_of_succ_lt hmore
      exact ⟨hlt, hpresent hlt, hbelow⟩
    | ends hlast _ =>
      have hlt : (s.skip vacant).next < s.stop := Nat.lt_of_succ_le (Nat.le_of_eq hlast)
      exact ⟨hlt, hpresent hlt, hbelow⟩
  have hrest : ∀ r, rest = some r → (r.kind = s.kind ∧ r.stop = s.stop) ∧
      Settles s.stop (passes ++ [⟨now, vacant, number, rest.isNone⟩]) r.next ∧
      (now < s.due ∧ r.due = s.due ∧ s.next ≤ r.next ∨
        s.next + 1 ≤ r.next ∧ r.due ≤ now + gap) := by
    rintro r rfl
    cases hpolled with
    | waits _ hwait => exact ⟨⟨rfl, rfl⟩, hsettles.concat_none rfl, Or.inl ⟨hwait, rfl, hle⟩⟩
    | gives _ _ =>
      exact ⟨⟨rfl, rfl⟩, hsettles.concat_some rfl,
        Or.inr ⟨Nat.succ_le_succ hle, due_advance_le now gap (s.skip vacant)⟩⟩
  have hsweeps : Sweeps s.stop (passes ++ [⟨now, vacant, number, rest.isNone⟩]) := by
    cases hpolled with
    | done hdone =>
      exact h.sweeps.concat hopen (hsettles.concat_none rfl) (fun _ => hdone) hnumber
    | waits _ _ =>
      exact h.sweeps.concat hopen (hsettles.concat_none rfl)
        (fun hended => absurd hended Bool.false_ne_true) hnumber
    | gives _ _ =>
      exact h.sweeps.concat hopen (hsettles.concat_some rfl)
        (fun hended => absurd hended Bool.false_ne_true) hnumber
    | ends hlast _ =>
      exact h.sweeps.concat hopen (hsettles.concat_some rfl) (fun _ => Nat.le_of_eq hlast.symm)
        hnumber
  exact
    { sweeps := hsweeps
      ended := by
        rw [← Option.isNone_iff_eq_none]
        refine ⟨fun hnone => ⟨_, List.mem_append_right _ List.mem_cons_self, hnone⟩, ?_⟩
        rintro ⟨y, hy, hended⟩
        rcases List.mem_append.1 hy with hy | hy
        · exact absurd (hended.symm.trans (hopen y hy)) (by decide)
        · rwa [List.mem_singleton.1 hy] at hended
      kind := fun r hr => (hrest r hr).1.1.trans (h.kind s rfl)
      cursor := fun r hr => ⟨(hrest r hr).1.2, (hrest r hr).2.1⟩
      due := fun r hr t ht hall => by
        rw [List.forall_mem_append, List.forall_mem_singleton] at hall
        rcases (hrest r hr).2.2 with ⟨_, hsame, _⟩ | ⟨_, hdue⟩
        · rw [hsame]
          exact h.due s rfl t ht hall.1
        · exact Nat.le_trans hdue (Nat.add_le_add_right hall.2 gap)
      ticks := fun r hr htimes ticks hticks hapart =>
        h.ticks_concat (hrest r hr).2.2 htimes hticks hapart }

/-- A series that has not ended has another number to come to. -/
theorem next_lt_of_sweepLeft {r : Series κ}
    (h : (sweepLeft now gap vacant left).2 = some r) : r.next < r.stop := by
  rcases left with _ | s
  · contradiction
  · have hpolled := polled_poll now gap (s.skip vacant)
    unfold sweepLeft at h
    rw [Option.map_some, pollLeft] at h
    rw [h] at hpolled
    generalize ((s.skip vacant).poll now gap).1 = number at hpolled
    cases hpolled with
    | waits hmore _ => exact hmore
    | gives hmore _ => exact hmore

/-- A series ends when there have been as many passes a gap apart as it has numbers. -/
theorem Sweeping.exists_ended (h : Sweeping kind started gap stop passes left)
    (hleft : ∀ s, left = some s → s.next < s.stop)
    (htimes : (started :: passes.map Pass.now).Pairwise (· ≤ ·)) {ticks : List Pass}
    (hticks : ticks.Sublist passes) (hapart : ticks.Pairwise fun x y => x.now + gap ≤ y.now)
    (hcount : stop ≤ ticks.length) : ∃ x ∈ passes, x.ended = true := by
  rcases left with _ | s
  · exact h.ended.1 rfl
  · have hle := (h.ticks s rfl htimes ticks hticks hapart).1
    have hlt := hleft s rfl
    rw [(h.cursor s rfl).1] at hlt
    exact absurd hlt (Nat.not_lt_of_le (Nat.le_trans hcount hle))

theorem sweepLeft_relabel {μ : Type} (f : κ → μ) (now gap : Time) (vacant : Nat → Bool)
    (left : Option (Series κ)) : sweepLeft now gap vacant (left.map (relabel f)) =
      ((sweepLeft now gap vacant left).1, (sweepLeft now gap vacant left).2.map (relabel f)) := by
  rw [sweepLeft, sweepLeft, ← pollLeft_relabel, Option.map_map, Option.map_map]
  rfl

end RailNode.Series
