import RailNode.Proofs.Node.Life
import RailNode.Proofs.Configuration.Start
import RailNode.Proofs.Service.BusAccess

/-
  The search for an address over the life of a node. A search asks once, hears the owners of
  addresses in every round until its window is over, and takes the lowest address that nobody owns;
  what else is asked for in the meantime does not change it (`search_of_run`).
-/
namespace RailNode

/-! ## The lowest free address -/

/-- The lowest assignable address that is not taken; the very lowest if all are. -/
def IsLowestFree (taken : List BusAddress) (a : BusAddress) : Prop :=
  (a.isAssignable = true ∧ a ∉ taken ∧
      ∀ b : BusAddress, b.isAssignable = true → b ∉ taken → a ≤ b) ∨
    (a = .firstAssignable ∧ ∀ b : BusAddress, b.isAssignable = true → b ∈ taken)

/-- Only which addresses are taken counts. -/
theorem IsLowestFree.congr {taken taken' : List BusAddress} {a : BusAddress}
    (h : IsLowestFree taken a) (hmem : ∀ b, b ∈ taken' ↔ b ∈ taken) : IsLowestFree taken' a := by
  rcases h with ⟨ha, hfree, hlowest⟩ | ⟨ha, hall⟩
  · refine Or.inl ⟨ha, fun hmem' => hfree ((hmem a).1 hmem'), fun b hb hfree' => ?_⟩
    exact hlowest b hb fun hmem' => hfree' ((hmem b).2 hmem')
  · exact Or.inr ⟨ha, fun b hb => (hmem b).2 (hall b hb)⟩

theorem IsLowestFree.isAssignable {taken : List BusAddress} {a : BusAddress}
    (h : IsLowestFree taken a) : a.isAssignable = true := by
  rcases h with ⟨hassignable, _⟩ | ⟨hfirst, _⟩
  · exact hassignable
  · rw [hfirst]
    rfl

namespace Enumeration

theorem mem_assignable {a : BusAddress} : a ∈ assignable ↔ a.isAssignable = true := by
  rw [assignable, List.mem_filter]
  exact and_iff_right (List.mem_finRange a)

theorem pairwise_assignable : assignable.Pairwise (· < ·) :=
  (List.pairwise_lt_finRange 128).filter _

theorem isLowestFree_lowestFree (taken : List BusAddress) :
    IsLowestFree taken (lowestFree taken) := by
  unfold lowestFree
  rcases hfind : assignable.find? (fun a => !taken.contains a) with _ | a
  · refine Or.inr ⟨rfl, fun b hb => ?_⟩
    have htaken := List.find?_eq_none.1 hfind b (mem_assignable.2 hb)
    simpa using htaken
  · obtain ⟨hfree, before, after, hsplit, hbefore⟩ := List.find?_eq_some_iff_append.1 hfind
    have hmem : a ∈ assignable := List.mem_of_find?_eq_some hfind
    refine Or.inl ⟨mem_assignable.1 hmem, by simpa using hfree, fun b hb hb' => ?_⟩
    have hbmem : b ∈ before ++ a :: after := by
      rw [← hsplit]
      exact mem_assignable.2 hb
    rcases List.mem_append.1 hbmem with hb'' | hb''
    · exact absurd (by simpa using hbefore b hb'') hb'
    · rcases List.mem_cons.1 hb'' with rfl | hafter
      · exact Nat.le_refl _
      · have hpairwise := pairwise_assignable
        rw [hsplit] at hpairwise
        have hlt := List.rel_of_pairwise_cons (List.pairwise_append.1 hpairwise).2.1 hafter
        exact Nat.le_of_lt hlt

end Enumeration

namespace Node

open RailNode.Configuration BusAccess

/-! ## The rounds of a search -/

namespace Round

variable {r : Round}

/-- A search begins in the round, for another node if `forPeer` says so. -/
structure Begins (forPeer : Bool) (r : Round) : Prop where
  idle : r.node.busAccess.enumeration.search = none
  asked : r.node.busAccess.enumeration.asked? r.node.nextAction.1 = some forPeer

/-- The address whose owner the round hears, if any. -/
def heard (r : Round) : List BusAddress :=
  (r.node.link.received.items.head?.bind Frame.answer?).toList

/-- The remote frames that the round offers to the link. -/
def requests (r : Round) : List Frame := r.outcome.offered.filter (·.remote)

/-- How many node number acknowledgements bus access queues in the round. -/
def acknowledgements (r : Round) : Nat :=
  (r.node.givenBy .busAccess r.outcome).countP (·.sends .nnack)

/-- The window of a search that started then is over. -/
def IsOver (window started : Time) (r : Round) : Prop := window ≤ Time.elapsed r.now started

instance (window started : Time) : DecidablePred (IsOver window started) :=
  fun _ => inferInstanceAs (Decidable (_ ≤ _))

/-- The search goes on after the round, with these addresses taken, and nothing has come of it. -/
structure Continues (started : Time) (forPeer : Bool) (taken : List BusAddress) (r : Round) :
    Prop where
  search : ∃ answers, r.outcome.node.busAccess.enumeration.search =
    some ⟨started, answers, forPeer⟩ ∧ ∀ a, a ∈ answers ↔ a ∈ taken
  acknowledgements : r.acknowledgements = 0

/-- The search ends in the round: the lowest free address is in memory and in the store, and the
    node that asked for the search gets its acknowledgement. -/
structure Concludes (forPeer : Bool) (taken : List BusAddress) (r : Round) : Prop where
  search : r.outcome.node.busAccess.enumeration.search = none
  address : IsLowestFree taken r.outcome.node.config.address
  stored : r.outcome.node.config.store.read busAddressAddress = r.outcome.node.config.address.byte
  acknowledgements : r.acknowledgements = if forPeer then 1 else 0

/-- What a round asks of the other nodes: for their addresses if a search begins. -/
theorem requests_eq (hone : r.node.HasOne .busAccess) (h : r.node.cycle r.now = .ok r.outcome) :
    if r.node.busAccess.enumeration.search.isNone &&
        (r.node.busAccess.enumeration.asked? r.node.nextAction.1).isSome
    then ∃ own, r.requests = [.addressRequest own] else r.requests = [] := by
  obtain ⟨own, found, t, hvisit, -, -, hacts⟩ := exists_acts hone h
  obtain ⟨own', fs, hoffers, hanswers⟩ := hacts.offers
  have hframes : r.outcome.offered = _ := hvisit.offered.trans hoffers.frames
  have hmessage : ∀ own : BusAddress, (messageFrame? (r.node.facts r.now).action own).toList.filter
      (·.remote) = [] := by
    intro own
    unfold messageFrame?
    rcases (r.node.facts r.now).action.bind Action.transmitted? with _ | m <;> rfl
  have hnone : fs.filter (·.remote) = [] := by
    refine List.filter_eq_nil_iff.2 fun f hf => ?_
    obtain ⟨a, rfl⟩ := hanswers f hf
    exact Bool.false_ne_true
  have hrequests : r.requests = if begins (r.node.facts r.now)
      { self := r.node.busAccess, shared := found } then [.addressRequest own'] else [] := by
    rw [requests, hframes, List.filter_append, List.filter_append, List.filter_append, hmessage,
      hnone, List.append_nil, List.nil_append]
    split_ifs <;> rfl
  rw [hrequests]
  show if begins (r.node.facts r.now) { self := r.node.busAccess, shared := found } then _ else _
  split_ifs
  · exact ⟨own', rfl⟩
  · rfl

/-- What becomes of a search that is going on once the round has begun. -/
theorem search_of_opened {started : Time} {answers : List BusAddress} {forPeer : Bool}
    (hone : r.node.HasOne .busAccess) (h : r.node.cycle r.now = .ok r.outcome)
    (hopened : (r.node.busAccess.enumeration.opened r.now r.node.nextAction.1).search =
      some ⟨started, answers, forPeer⟩) :
    if r.IsOver r.node.timing.searchWindow started then r.Concludes forPeer (r.heard ++ answers)
    else r.Continues started forPeer (r.heard ++ answers) := by
  obtain ⟨own, found, t, hvisit, hlink, hedits, hacts⟩ := exists_acts hone h
  -- The search after the frame of the round.
  have hheard : (BusAccess.heard (r.node.facts r.now) own
      { self := r.node.busAccess, shared := found }).search =
        some ⟨started, r.heard ++ answers, forPeer⟩ := by
    unfold BusAccess.heard waiting? Round.heard
    rw [hlink]
    rcases r.node.link.received.items.head? with _ | f
    · exact hopened
    · show ((r.node.busAccess.enumeration.opened r.now r.node.nextAction.1).afterFrame own f).search
        = _
      rw [Enumeration.afterFrame, hopened]
      rfl
  have henumeration : r.outcome.node.busAccess.enumeration = _ :=
    (congrArg BusAccess.enumeration hvisit.busAccess).trans hacts.enumeration
  have hacknowledged := hacts.acknowledgements
  rw [← hvisit.given] at hacknowledged
  have hclaims := hacts.claims
  generalize BusAccess.heard (r.node.facts r.now) own
    { self := r.node.busAccess, shared := found } = e at hheard henumeration hacknowledged hclaims
  split_ifs with hover
  · have hfinish : e.finish? (r.node.facts r.now).now
        (r.node.facts r.now).timing.searchWindow =
          some (⟨Enumeration.lowestFree (r.heard ++ answers), forPeer⟩,
            { e with search := none }) := by
      rw [Enumeration.finish?, hheard]
      exact if_neg (Nat.not_lt.2 hover)
    obtain ⟨d, hd⟩ := hclaims _ _ hfinish
    have hafter := hvisit.edits.changesOnly
    have haddress : r.outcome.node.config.address =
        Enumeration.lowestFree (r.heard ++ answers) := by
      rw [hafter.address (by decide), hd]
      rfl
    refine ⟨?_, ?_, ?_, ?_⟩
    · rw [henumeration, Enumeration.closed, hfinish]
      rfl
    · rw [haddress]
      exact Enumeration.isLowestFree_lowestFree _
    · rw [haddress, hafter.read_of_owns (p := .address) (by decide) rfl, hd,
        Configuration.setAddress, Configuration.write,
        Store.read_write _ (d.identity_lt_capacity (by decide)), if_pos rfl]
    · rw [acknowledgements, hacknowledged, hfinish]
      exact Nat.zero_add _
  · have hfinish : e.finish? (r.node.facts r.now).now
        (r.node.facts r.now).timing.searchWindow = none := by
      rw [Enumeration.finish?, hheard]
      exact if_pos (Nat.not_le.1 hover)
    refine ⟨⟨r.heard ++ answers, ?_, fun _ => Iff.rfl⟩, ?_⟩
    · rw [henumeration, Enumeration.closed, hfinish]
      exact hheard
    · rw [acknowledgements, hacknowledged, hfinish]
      exact Nat.zero_add _

theorem Continues.congr {started : Time} {forPeer : Bool} {taken taken' : List BusAddress}
    (h : r.Continues started forPeer taken) (hmem : ∀ a, a ∈ taken ↔ a ∈ taken') :
    r.Continues started forPeer taken' where
  search := by
    obtain ⟨answers, hsearch, hanswers⟩ := h.search
    exact ⟨answers, hsearch, fun a => (hanswers a).trans (hmem a)⟩
  acknowledgements := h.acknowledgements

theorem Concludes.congr {forPeer : Bool} {taken taken' : List BusAddress}
    (h : r.Concludes forPeer taken) (hmem : ∀ a, a ∈ taken ↔ a ∈ taken') :
    r.Concludes forPeer taken' where
  search := h.search
  address := h.address.congr fun a => (hmem a).symm
  stored := h.stored
  acknowledgements := h.acknowledgements

theorem Begins.opened {forPeer : Bool} (h : r.Begins forPeer) :
    (r.node.busAccess.enumeration.opened r.now r.node.nextAction.1).search =
      some ⟨r.now, [], forPeer⟩ := by
  rw [Enumeration.opened, h.idle, h.asked]
  rfl

end Round

/-! ## The search over a run -/

theorem search_opened_of_search {e : Enumeration} {s : AddressSearch} (now : Time)
    (a : Option Action) (h : e.search = some s) : (e.opened now a).search = some s := by
  rw [Enumeration.opened, h]
  rfl

variable {started : Time} {answers : List BusAddress} {forPeer : Bool} {window : Time}

/-- A search goes on over rounds in which its window is not over, and has heard what they heard. -/
theorem search_of_handsOn {before : List Round} {a b : BusAccess}
    (hrounds : ∀ r ∈ before, (r.node.HasOne .busAccess ∧ r.node.timing.searchWindow = window) ∧
      r.node.cycle r.now = .ok r.outcome)
    (hover : ∀ r ∈ before, ¬ r.IsOver window started) (h : HandsOn busAccess a before b)
    (ha : a.enumeration.search = some ⟨started, answers, forPeer⟩) :
    ∃ answers', b.enumeration.search = some ⟨started, answers', forPeer⟩ ∧
      ∀ x, x ∈ answers' ↔ x ∈ answers ∨ x ∈ before.flatMap Round.heard := by
  induction before generalizing a answers with
  | nil =>
    obtain rfl := HandsOn.nil_iff.1 h
    exact ⟨answers, ha, fun x => by simp⟩
  | cons r before ih =>
    obtain ⟨rfl, hrest⟩ := HandsOn.cons_iff.1 h
    obtain ⟨⟨hone, hwindow⟩, hcycle⟩ := hrounds r List.mem_cons_self
    have hround := Round.search_of_opened hone hcycle
      (search_opened_of_search r.now r.node.nextAction.1 ha)
    rw [hwindow, if_neg (hover r List.mem_cons_self)] at hround
    obtain ⟨answers', hsearch, hanswers'⟩ := hround.search
    obtain ⟨answers'', hsearch', hanswers''⟩ :=
      ih (fun x hx => hrounds x (List.mem_cons_of_mem r hx))
        (fun x hx => hover x (List.mem_cons_of_mem r hx)) hrest hsearch
    refine ⟨answers'', hsearch', fun x => ?_⟩
    rw [hanswers'', hanswers', List.flatMap_cons, List.mem_append, List.mem_append,
      or_assoc, or_left_comm]

variable {n m : Node} {inputs : List Input} {events : List Event}

/-- In the rounds of a search up to the one in which its window is over, each finds the search as it
    has begun, with what it has heard in the rounds before. -/
theorem exists_opened (hone : n.HasOne .busAccess) (h : n.run inputs = some (m, events))
    {earlier later before after : List Round} {first r : Round}
    (hrounds : rounds events = earlier ++ first :: later) (hbegins : first.Begins forPeer)
    (hsplit : first :: later = before ++ r :: after)
    (hbefore : ∀ x ∈ before, ¬ x.IsOver n.timing.searchWindow first.now) :
    (r.node.HasOne .busAccess ∧ r.node.timing.searchWindow = n.timing.searchWindow) ∧
      r.node.cycle r.now = .ok r.outcome ∧
      (before = [] ∨ r.node.busAccess.enumeration.search.isSome) ∧
      ∃ answers, (r.node.busAccess.enumeration.opened r.now r.node.nextAction.1).search =
          some ⟨first.now, answers, forPeer⟩ ∧
        ∀ y, y ∈ answers ↔ y ∈ before.flatMap Round.heard := by
  have hall := forall_rounds
    (R := fun x => x.HasOne .busAccess ∧ x.timing.searchWindow = n.timing.searchWindow) h
    (fun hmoves hx => ⟨hmoves.hasOne hx.1, by rw [hmoves.timing, hx.2]⟩) ⟨hone, rfl⟩
  have hands := handsOn_of_run SameCore.busAccess_eq h
  rw [hrounds, hsplit] at hall hands
  obtain ⟨c, -, hands⟩ := HandsOn.append_iff.1 hands
  obtain ⟨hr, hcycle⟩ := hall r (by simp)
  refine ⟨hr, hcycle, ?_⟩
  rcases before with _ | ⟨x, before⟩
  · obtain ⟨rfl, -⟩ := List.cons.inj hsplit
    exact ⟨Or.inl rfl, [], hbegins.opened, fun y => Iff.rfl⟩
  · obtain ⟨rfl, -⟩ := List.cons.inj hsplit
    obtain ⟨⟨hone', hwindow'⟩, hcycle'⟩ := hall first (by simp)
    have hfirst := Round.search_of_opened hone' hcycle' hbegins.opened
    rw [hwindow', if_neg (hbefore first List.mem_cons_self), List.append_nil] at hfirst
    obtain ⟨-, hands⟩ := HandsOn.cons_iff.1 hands
    obtain ⟨d, hands, hrest⟩ := HandsOn.append_iff.1 hands
    obtain ⟨rfl, -⟩ := HandsOn.cons_iff.1 hrest
    obtain ⟨answers, hsearch, hanswers⟩ := hfirst.search
    obtain ⟨answers', hsearch', hanswers'⟩ := search_of_handsOn
      (fun x hx => hall x (by simp [hx])) (fun x hx => hbefore x (List.mem_cons_of_mem _ hx))
      hands hsearch
    refine ⟨Or.inr (by rw [hsearch']; rfl), answers',
      search_opened_of_search r.now r.node.nextAction.1 hsearch', fun y => ?_⟩
    rw [List.flatMap_cons, List.mem_append, hanswers', hanswers]

/-- A search over any run of a node with one bus access service. It asks the other nodes once, in
    its first round. Until its window is over it goes on, whatever else is asked for. In the first
    round in which the window is over it concludes with what it has heard. -/
theorem search_of_run (hone : n.HasOne .busAccess) (h : n.run inputs = some (m, events))
    {earlier later before after : List Round} {first r : Round}
    (hrounds : rounds events = earlier ++ first :: later) (hbegins : first.Begins forPeer)
    (hsplit : first :: later = before ++ r :: after)
    (hbefore : ∀ x ∈ before, ¬ x.IsOver n.timing.searchWindow first.now) :
    (if before = [] then ∃ own, r.requests = [.addressRequest own] else r.requests = []) ∧
      if r.IsOver n.timing.searchWindow first.now
      then r.Concludes forPeer ((before ++ [r]).flatMap Round.heard)
      else r.Continues first.now forPeer ((before ++ [r]).flatMap Round.heard) := by
  obtain ⟨⟨hone', hwindow⟩, hcycle, hgoing, answers, hopened, hanswers⟩ :=
    exists_opened hone h hrounds hbegins hsplit hbefore
  have hrequests := Round.requests_eq hone' hcycle
  have hround := Round.search_of_opened hone' hcycle hopened
  -- What the search has heard are the addresses of its rounds, in another order.
  have hmem : ∀ y, y ∈ r.heard ++ answers ↔ y ∈ (before ++ [r]).flatMap Round.heard := by
    intro y
    rw [List.flatMap_append, List.flatMap_singleton, List.mem_append, List.mem_append, hanswers,
      or_comm]
  rw [hwindow] at hround
  refine ⟨?_, ?_⟩
  · split_ifs with hempty
    · rw [hempty] at hsplit
      obtain ⟨rfl, -⟩ := List.cons.inj hsplit
      rw [hbegins.idle, hbegins.asked] at hrequests
      exact hrequests
    · obtain ⟨s, hs⟩ := Option.isSome_iff_exists.1 (hgoing.resolve_left hempty)
      rw [hs] at hrequests
      exact hrequests
  · split_ifs at hround ⊢
    · exact hround.congr hmem
    · exact hround.congr hmem

/-- A run of a small node in which it is asked for a search, hears the owner of address 1 and comes
    to the end of the window. -/
def searchInputs : List Input :=
  [.ask (.put (.searchAddress true)), .cycle 5, .deliver (.addressAnswer .firstAssignable),
    .cycle 10, .cycle 100005]

theorem search_of_searchInputs : ∃ m events first second last,
    small.run searchInputs = some (m, events) ∧ rounds events = [first, second, last] ∧
      first.Begins true ∧ last.requests = [] ∧ last.Concludes true [1] := by
  have hrun : ((small.run searchInputs).any fun x =>
      match rounds x.2 with
      | [first, second, last] =>
        first.node.busAccess.enumeration.search == none &&
          first.node.busAccess.enumeration.asked? first.node.nextAction.1 == some true &&
          !first.IsOver small.timing.searchWindow first.now &&
          !second.IsOver small.timing.searchWindow first.now &&
          last.IsOver small.timing.searchWindow first.now &&
          [first, second, last].flatMap Round.heard == [1]
      | _ => false) = true := by
    decide +kernel
  obtain ⟨m, events, hm, hp⟩ := exists_run hrun
  split at hp
  · rename_i first second last hrounds
    simp only [Bool.and_eq_true, beq_iff_eq, Bool.not_eq_true', decide_eq_false_iff_not,
      decide_eq_true_eq] at hp
    obtain ⟨⟨⟨⟨⟨hidle, hasked⟩, hfirst⟩, hsecond⟩, hlast⟩, hheard⟩ := hp
    have hbefore : ∀ x ∈ [first, second], ¬ x.IsOver small.timing.searchWindow first.now := by
      intro x hx
      rcases List.mem_cons.1 hx with rfl | hx
      · exact hfirst
      · rw [List.mem_singleton.1 hx]
        exact hsecond
    have hsearch := search_of_run (hasOne_small (by decide)) hm
      (show rounds events = [] ++ first :: [second, last] from hrounds) ⟨hidle, hasked⟩
      (show first :: [second, last] = [first, second] ++ last :: [] from rfl) hbefore
    rw [if_neg (List.cons_ne_nil _ _), if_pos hlast] at hsearch
    exact ⟨m, events, first, second, last, hm, hrounds, ⟨hidle, hasked⟩, hsearch.1,
      hheard ▸ hsearch.2⟩
  · contradiction

end Node

end RailNode
