import RailNode.Proofs.Node.AddressSearch

/-
  Conflicts about the bus address. A round that hears another user of the address of the node asks
  the next one for a search. The next round starts it if no search is going on then; otherwise it
  forgets about the conflict (`answered_iff`).
-/
namespace RailNode

namespace Enumeration

theorem required_closed (now window : Time) (e : Enumeration) :
    (e.closed now window).required = e.required := by
  unfold closed finish?
  split
  · rfl
  · split_ifs <;> rfl

end Enumeration

/-- A counter that has gone on shows it, also where it wraps around. -/
theorem add_one_ne (w : UInt16) : w + 1 ≠ w := by
  intro h
  have htoNat := congrArg UInt16.toNat h
  rw [UInt16.toNat_add, UInt16.toNat_one] at htoNat
  have hlt := w.toNat_lt
  omega

namespace Node

open BusAccess

namespace Round

variable {r : Round}

/-- The round has noticed a conflict: another node uses the address of this one. -/
def Conflicts (r : Round) : Prop :=
  r.outcome.node.busAccess.conflicts ≠ r.node.busAccess.conflicts

/-- The round has started a search. -/
def Starts (r : Round) : Prop := r.outcome.node.busAccess.searches ≠ r.node.busAccess.searches

instance : DecidablePred Conflicts := fun _ => inferInstanceAs (Decidable (_ ≠ _))

instance : DecidablePred Starts := fun _ => inferInstanceAs (Decidable (_ ≠ _))

/-- After a round a search is required just if the round has noticed a conflict. -/
theorem required_iff (hone : r.node.HasOne .busAccess)
    (h : r.node.cycle r.now = .ok r.outcome) :
    r.outcome.node.busAccess.enumeration.required = true ↔ r.Conflicts := by
  obtain ⟨own, found, t, hvisit, -, -, hacts⟩ := exists_acts hone h
  have hconflicts := hacts.conflicts
  have hrequired : t.self.enumeration.required =
      (waiting? { self := r.node.busAccess, shared := found }).any (·.clashes own) := by
    rw [hacts.enumeration, Enumeration.required_closed, BusAccess.heard]
    rcases waiting? { self := r.node.busAccess, shared := found } with _ | f <;> rfl
  rw [Conflicts, hvisit.busAccess, hconflicts, hrequired]
  split_ifs with hclash
  · exact iff_of_true hclash (add_one_ne _)
  · exact iff_of_false hclash (fun hne => hne rfl)

/-- A round starts a search if one is asked for and none is going on. -/
theorem starts_iff (hone : r.node.HasOne .busAccess) (h : r.node.cycle r.now = .ok r.outcome) :
    r.Starts ↔ ∃ forPeer, r.Begins forPeer := by
  obtain ⟨own, found, t, hvisit, -, -, hacts⟩ := exists_acts hone h
  have hsearches := hacts.searches
  rw [Starts, hvisit.busAccess, hsearches]
  have hbegins : begins (r.node.facts r.now) { self := r.node.busAccess, shared := found } = true ↔
      ∃ forPeer, r.Begins forPeer := by
    unfold begins
    rw [Bool.and_eq_true, Option.isNone_iff_eq_none, Option.isSome_iff_exists]
    constructor
    · rintro ⟨hidle, forPeer, hasked⟩
      exact ⟨forPeer, hidle, hasked⟩
    · rintro ⟨forPeer, hidle, hasked⟩
      exact ⟨hidle, forPeer, hasked⟩
  rw [← hbegins]
  split_ifs with hb
  · exact iff_of_true (add_one_ne _) hb
  · exact iff_of_false (fun hne => hne rfl) hb

/-- If a search is required, a round starts it unless one is going on. -/
theorem starts_iff_of_required (hone : r.node.HasOne .busAccess)
    (h : r.node.cycle r.now = .ok r.outcome)
    (hrequired : r.node.busAccess.enumeration.required = true) :
    r.Starts ↔ r.node.busAccess.enumeration.search = none := by
  rw [starts_iff hone h]
  constructor
  · rintro ⟨forPeer, hidle, -⟩
    exact hidle
  · intro hidle
    have hasked : (r.node.busAccess.enumeration.asked? r.node.nextAction.1).isSome = true := by
      unfold Enumeration.asked?
      split
      · rfl
      · rw [hrequired]
        rfl
    obtain ⟨forPeer, hforPeer⟩ := Option.isSome_iff_exists.1 hasked
    exact ⟨forPeer, hidle, hforPeer⟩

end Round

variable {n m : Node} {inputs : List Input} {events : List Event}

/-- After rounds without a conflict no search is required. -/
theorem required_of_handsOn {a b : BusAccess} {r : Round} {rest : List Round}
    (hrounds : ∀ x ∈ r :: rest, x.node.HasOne .busAccess ∧ x.node.cycle x.now = .ok x.outcome)
    (hnone : ∀ x ∈ r :: rest, ¬ x.Conflicts) (h : HandsOn busAccess a (r :: rest) b) :
    b.enumeration.required = false := by
  induction rest generalizing r a with
  | nil =>
    obtain ⟨-, h⟩ := HandsOn.cons_iff.1 h
    obtain ⟨hone, hcycle⟩ := hrounds r List.mem_cons_self
    have hr := hnone r List.mem_cons_self
    rw [← Round.required_iff hone hcycle, Bool.not_eq_true] at hr
    rw [← HandsOn.nil_iff.1 h]
    exact hr
  | cons x rest ih =>
    obtain ⟨-, h⟩ := HandsOn.cons_iff.1 h
    exact ih (fun y hy => hrounds y (List.mem_cons_of_mem r hy))
      (fun y hy => hnone y (List.mem_cons_of_mem r hy)) h

/-- What comes of the last conflict of a run. A search is still required, or one has been started
    since, just if no round has followed yet, no search was going on at the end of the round that
    noticed the conflict, or something else has started a search after the round that followed. -/
theorem answered_iff (hone : n.HasOne .busAccess) (h : n.run inputs = some (m, events))
    {before after : List Round} {r : Round} (hrounds : rounds events = before ++ r :: after)
    (hconflict : r.Conflicts) (hlast : ∀ x ∈ after, ¬ x.Conflicts) :
    (m.busAccess.enumeration.required = true ∨ ∃ x ∈ after, x.Starts) ↔
      (after = [] ∨ r.outcome.node.busAccess.enumeration.search = none ∨
        ∃ x ∈ after.tail, x.Starts) := by
  have hall := forall_rounds (R := fun x => x.HasOne .busAccess) h Moves.hasOne hone
  have hands := handsOn_of_run SameCore.busAccess_eq h
  rw [hrounds] at hall hands
  obtain ⟨c, -, hands⟩ := HandsOn.append_iff.1 hands
  obtain ⟨-, hands⟩ := HandsOn.cons_iff.1 hands
  obtain ⟨hone', hcycle⟩ := hall r (by simp)
  have hrequired := (Round.required_iff hone' hcycle).2 hconflict
  rcases after with _ | ⟨x, after⟩
  · rw [HandsOn.nil_iff] at hands
    exact iff_of_true (Or.inl (hands ▸ hrequired)) (Or.inl rfl)
  · have hnone := required_of_handsOn (fun y hy => hall y (by simp [hy])) hlast hands
    obtain ⟨hnext, -⟩ := HandsOn.cons_iff.1 hands
    obtain ⟨hone'', hcycle'⟩ := hall x (by simp)
    have hstarts := Round.starts_iff_of_required hone'' hcycle' (hnext ▸ hrequired)
    rw [← hnext] at hstarts
    simp only [hnone, List.mem_cons, exists_eq_or_imp, hstarts, List.tail_cons,
      Bool.false_eq_true, false_or, reduceCtorEq]

/-- A message from another user of address 1. -/
def rivalFrame : Frame := .message .firstAssignable (.addressed 0x90 1 [0, 2])

/-- A run of a small node that has claimed address 1 and hears another user of it while no search
    is going on. -/
def conflictInputs : List Input :=
  [.ask (.put (.searchAddress false)), .cycle 0, .cycle 100000, .deliver rivalFrame,
    .cycle 100001, .cycle 100002]

theorem answered_of_conflictInputs : ∃ m events before r last,
    small.run conflictInputs = some (m, events) ∧ rounds events = before ++ [r, last] ∧
      r.Conflicts ∧ (m.busAccess.enumeration.required = true ∨ ∃ x ∈ [last], x.Starts) := by
  have hrun : ((small.run conflictInputs).any fun x =>
      match rounds x.2 with
      | [_, _, r, last] =>
        decide r.Conflicts && !decide last.Conflicts &&
          r.outcome.node.busAccess.enumeration.search == none
      | _ => false) = true := by
    decide +kernel
  obtain ⟨m, events, hm, hp⟩ := exists_run hrun
  split at hp
  · rename_i first second r last hrounds
    simp only [Bool.and_eq_true, beq_iff_eq, Bool.not_eq_true', decide_eq_false_iff_not,
      decide_eq_true_eq] at hp
    obtain ⟨⟨hconflict, hlast⟩, hidle⟩ := hp
    have hanswered := answered_iff (hasOne_small (by decide)) hm
      (show rounds events = [first, second] ++ r :: [last] from hrounds) hconflict
      (fun x hx => List.mem_singleton.1 hx ▸ hlast)
    exact ⟨m, events, [first, second], r, last, hm, hrounds, hconflict,
      hanswered.2 (Or.inr (Or.inl hidle))⟩
  · contradiction

/-- A run in which the node hears the other user in the course of a search, and comes to the end of
    the window. -/
def rivalryInputs : List Input :=
  [.ask (.put (.searchAddress false)), .cycle 0, .cycle 100000,
    .ask (.put (.searchAddress false)), .cycle 100001, .deliver rivalFrame, .cycle 100002,
    .cycle 100003, .cycle 200001, .cycle 200002]

/-- The conflict is forgotten: no search is required at the end, and none has been started. -/
theorem forgotten_of_rivalryInputs : ∃ m events before r after,
    small.run rivalryInputs = some (m, events) ∧ rounds events = before ++ r :: after ∧
      r.Conflicts ∧ after.length = 3 ∧ ¬(m.busAccess.enumeration.required = true ∨
        ∃ x ∈ after, x.Starts) := by
  have hrun : ((small.run rivalryInputs).any fun x =>
      match rounds x.2 with
      | [_, _, _, r, x₁, x₂, x₃] =>
        decide r.Conflicts && !x.1.busAccess.enumeration.required &&
          [x₁, x₂, x₃].all fun x => !decide x.Starts
      | _ => false) = true := by
    decide +kernel
  obtain ⟨m, events, hm, hp⟩ := exists_run hrun
  split at hp
  · rename_i y₁ y₂ y₃ r x₁ x₂ x₃ hrounds
    simp only [Bool.and_eq_true, Bool.not_eq_true', decide_eq_true_eq, List.all_eq_true,
      decide_eq_false_iff_not] at hp
    obtain ⟨⟨hconflict, hrequired⟩, hnone⟩ := hp
    refine ⟨m, events, [y₁, y₂, y₃], r, [x₁, x₂, x₃], hm, hrounds, hconflict, rfl, ?_⟩
    rintro (h | ⟨x, hx, hstarts⟩)
    · exact absurd h (by rw [hrequired]; exact Bool.false_ne_true)
    · exact hnone x hx hstarts
  · contradiction

end Node

end RailNode
