import RailNode.Proofs.Node.MessageOrder
import RailNode.Proofs.Service.Indications

/-
  What the user interface shows, over a run from a start. The mode that it shows trails that of the
  configuration by the actions that wait in the queue. None of them is lost while the queue has
  room, so what will be shown last is the mode of the node (`shows_of_run`). Activity is shown from
  the cycle that takes such an action from the queue until the application asks for it.
-/
namespace RailNode.Node

variable {c : Cycle} {position : Nat} {e e' : Entry} {shared shared' : Shared} {trace : EntryTrace}
  {es : List Entry} {r : List (Entry × EntryTrace) × Shared} {n m m' : Node} {now : Time}
  {o : Outcome} {inputs : List Input} {events : List Event}

/-! ## The mode over a cycle -/

theorem mode_entryTurn (h : entryTurn c position e shared = .ok ((e', trace), shared')) :
    shared'.config.mode = shared.config.mode.shownAfter trace.actions := by
  obtain ⟨t, ht, u, rfl, -, rfl, rfl⟩ := entryTurn_eq_ok_iff.1 h
  obtain ⟨as, has, hmode⟩ := Service.shows_turn ht
  obtain ⟨bs, hbs, hnone⟩ := Reporter.hides_turn c t.self position
    { self := e.reporter, shared := t.shared }
  have hgiven : t.trace.actions = as := has
  have hreported : (Reporter.turn c t.self position
      { self := e.reporter, shared := t.shared }).trace.actions = bs := hbs
  have hconfig := Reporter.config_turn c t.self position { self := e.reporter, shared := t.shared }
  rw [EntryTrace.actions, hgiven, hreported, Mode.shownAfter_append,
    Mode.shownAfter_of_forall hnone]
  exact (congrArg Configuration.mode hconfig).trans hmode

theorem mode_turns (h : turns c position shared es = .ok r) :
    r.2.config.mode =
      shared.config.mode.shownAfter ((r.1.map (·.2)).flatMap EntryTrace.actions) := by
  induction es generalizing position shared r with
  | nil =>
    rw [← Except.ok.inj h]
    rfl
  | cons e es ih =>
    obtain ⟨e', trace, between, rest, last, he, hrest, rfl⟩ := turns_cons_eq_ok h
    rw [List.map_cons, List.flatMap_cons, Mode.shownAfter_append, ← mode_entryTurn he]
    exact ih hrest

/-- The mode after a cycle is the one that has been put in the queue last to be shown. -/
theorem mode_cycle (h : n.cycle now = .ok o) :
    o.node.config.mode = n.config.mode.shownAfter o.queued := by
  obtain ⟨r, hr, rfl⟩ := cycle_eq_ok h
  exact mode_turns hr

/-! ## What will be shown -/

/-- The mode that is shown when all that waits in the queue has been taken: the last that waits to
    be shown, or the one that is shown now if none waits. -/
def shownMode (n : Node) : Mode := n.indication.mode.shownAfter n.queue.items

/-- An action that is taken from the queue is shown. -/
theorem mode_indicate (i : Indication) (a : Option Action) :
    (indicate i a).mode = i.mode.shownAfter a.toList := by
  rcases a with _ | a
  · rfl
  · cases a <;> rfl

/-- A cycle that loses nothing takes no mode from what will be shown, and puts its own behind. -/
theorem shownMode_cycle (h : n.cycle now = .ok o)
    (hfits : n.nextAction.2.length + o.queued.length ≤ queueCapacity) :
    o.node.shownMode = n.shownMode.shownAfter o.queued := by
  have hindication : o.node.indication = indicate n.indication n.nextAction.1 := by
    obtain ⟨r, _, rfl⟩ := cycle_eq_ok h
    rfl
  rw [shownMode, shownMode, items_nextAction n, queue_cycle h, Backlog.items_putAll hfits,
    hindication, mode_indicate, ← Mode.shownAfter_append, ← Mode.shownAfter_append,
    List.append_assoc]

/-! ## Requests -/

/-- A request shows nothing but that activity has been taken. -/
theorem indication_serve (n : Node) (r : Request) (h : r ≠ .takeActivity) :
    (n.serve r).indication = n.indication := by
  cases r with
  | put a => rfl
  | takeActivity => exact absurd rfl h
  | produce slot on data =>
    unfold serve
    dsimp only
    rcases hm : n.produce slot on data with e | m
    · rfl
    · obtain ⟨entries, message, _, rfl, _⟩ := exists_of_produce hm
      rfl
  | takeConsumed =>
    unfold serve
    dsimp only
    rcases hm : n.takeConsumed? with _ | ⟨e, m⟩
    · rfl
    · obtain ⟨entries, rfl, _⟩ := exists_of_takeConsumed? hm
      rfl
  | subscribe stream =>
    unfold serve
    dsimp only
    rcases n.longMessage?.bind (·.subscribe? stream) with _ | s <;> rfl
  | send stream payload =>
    unfold serve
    dsimp only
    rcases n.longMessage?.bind fun s => (s.send stream payload).toOption with _ | s <;> rfl
  | takeReceipt =>
    unfold serve
    dsimp only
    rcases n.longMessage?.bind (·.takeReceipt?) with _ | ⟨_, s⟩ <;> rfl

theorem mode_indication_serve (n : Node) (r : Request) :
    (n.serve r).indication.mode = n.indication.mode := by
  by_cases h : r = .takeActivity
  · rw [h]
    rfl
  · rw [n.indication_serve r h]

/-- A request that loses nothing and shows no mode leaves what will be shown. -/
theorem shownMode_serve {r : Request} (hfits : (Event.asked n r).Fits)
    (hnone : ∀ a ∈ r.queued n, a.shownMode? = none) : (n.serve r).shownMode = n.shownMode := by
  rw [shownMode, mode_indication_serve, (queue_serve n r).1, Backlog.items_putAll hfits,
    Mode.shownAfter_append, Mode.shownAfter_of_forall hnone]
  rfl

/-! ## Steps -/

/-- The application puts no mode in the queue to be shown. -/
def Event.HidesMode : Event → Prop
  | asked n r => ∀ a ∈ r.queued n, a.shownMode? = none
  | _ => True

instance : DecidablePred Event.HidesMode
  | .asked n r => inferInstanceAs (Decidable (∀ a ∈ r.queued n, a.shownMode? = none))
  | .round _ => inferInstanceAs (Decidable True)
  | .delivered _ => inferInstanceAs (Decidable True)
  | .collected _ => inferInstanceAs (Decidable True)

/-- What will be shown is the mode of the node, and every step leaves it so. -/
theorem Moves.shownMode {now : List Event} (h : n.Moves m now) (hfits : ∀ e ∈ now, e.Fits)
    (happlication : ∀ e ∈ now, e.HidesMode) (hn : n.shownMode = n.config.mode) :
    m.shownMode = m.config.mode := by
  cases h with
  | nothing => exact hn
  | round hcycle =>
    rw [shownMode_cycle hcycle (hfits _ List.mem_cons_self), hn, mode_cycle hcycle]
  | delivered _ => exact hn
  | collected _ => exact hn
  | asked r =>
    rw [shownMode_serve (hfits _ List.mem_cons_self) (happlication _ List.mem_cons_self), hn,
      (n.sameCore_serve r).config]

/-! ## Activity -/

/-- In the round an action is taken from the queue that shows activity. -/
def Round.ShowsActivity (r : Round) : Prop := r.node.nextAction.1 = some .showActivity

instance : DecidablePred Round.ShowsActivity := fun r =>
  inferInstanceAs (Decidable (r.node.nextAction.1 = some .showActivity))

/-- The application asks whether there has been activity. -/
def Event.TakesActivity : Event → Prop
  | asked _ .takeActivity => True
  | _ => False

/-- A round of the history shows activity, and the application has not asked for it since. -/
def ActivityShown (events : List Event) : Prop :=
  ∃ before r after, events = before ++ .round r :: after ∧ r.ShowsActivity ∧
    ∀ e ∈ after, ¬ e.TakesActivity

theorem activityShown_concat {e : Event} : ActivityShown (events ++ [e]) ↔
    (∃ r, e = .round r ∧ r.ShowsActivity) ∨ ActivityShown events ∧ ¬ e.TakesActivity := by
  constructor
  · rintro ⟨before, r, after, hsplit, hr, hafter⟩
    rcases List.eq_nil_or_concat after with rfl | ⟨after, last, rfl⟩
    · obtain ⟨_, he⟩ := List.append_inj' hsplit rfl
      exact Or.inl ⟨r, List.singleton_inj.1 he, hr⟩
    · rw [List.concat_eq_append] at hsplit hafter
      rw [← List.cons_append, ← List.append_assoc] at hsplit
      obtain ⟨rfl, he⟩ := List.append_inj' hsplit rfl
      obtain rfl := List.singleton_inj.1 he
      refine Or.inr ⟨⟨before, r, after, rfl, hr, fun x hx => ?_⟩, ?_⟩
      · exact hafter x (List.mem_append_left _ hx)
      · exact hafter e (List.mem_append_right _ List.mem_cons_self)
  · rintro (⟨r, rfl, hr⟩ | ⟨⟨before, r, after, rfl, hr, hafter⟩, he⟩)
    · exact ⟨events, r, [], rfl, hr, fun _ hx => absurd hx List.not_mem_nil⟩
    · refine ⟨before, r, after ++ [e], by rw [List.append_assoc]; rfl, hr, fun x hx => ?_⟩
      rcases List.mem_append.1 hx with hx | hx
      · exact hafter x hx
      · rw [List.mem_singleton.1 hx]
        exact he

/-- A cycle shows activity from the action that it takes on. -/
theorem activity_cycle (h : n.cycle now = .ok o) : o.node.indication.activity = true ↔
    n.nextAction.1 = some .showActivity ∨ n.indication.activity = true := by
  obtain ⟨r, _, rfl⟩ := cycle_eq_ok h
  show (indicate n.indication n.nextAction.1).activity = true ↔ _
  rcases n.nextAction.1 with _ | a
  · simp [indicate]
  · cases a <;> simp [indicate]

/-- Activity is shown exactly if there has been some since the application asked for it last. -/
theorem activity_iff_of_run (hn : n.indication.activity = false)
    (h : n.run inputs = some (m, events)) :
    m.indication.activity = true ↔ ActivityShown events := by
  refine run_induction
    (P := fun events m => m.indication.activity = true ↔ ActivityShown events) h ?_ ?_
  · rw [hn]
    refine ⟨nofun, ?_⟩
    rintro ⟨before, r, after, hsplit, _⟩
    exact absurd hsplit (by simp)
  · intro before now m m' hmoves hbefore
    -- A step other than a round and the question itself leaves what is shown.
    have hother : ∀ {e : Event}, m'.indication.activity = m.indication.activity →
        e.round? = none → ¬ e.TakesActivity →
        (m'.indication.activity = true ↔ ActivityShown (before ++ [e])) := by
      intro e hsame hround htakes
      rw [hsame, hbefore, activityShown_concat]
      refine ⟨fun h => Or.inr ⟨h, htakes⟩, ?_⟩
      rintro (⟨r, rfl, _⟩ | ⟨h, _⟩)
      · cases hround
      · exact h
    cases hmoves with
    | nothing =>
      rw [List.append_nil]
      exact hbefore
    | round hcycle =>
      rw [activity_cycle hcycle, hbefore, activityShown_concat]
      constructor
      · rintro (h | h)
        · exact Or.inl ⟨_, rfl, h⟩
        · exact Or.inr ⟨h, not_false⟩
      · rintro (⟨r, hr, h⟩ | ⟨h, _⟩)
        · obtain rfl := Event.round.inj hr
          exact Or.inl h
        · exact Or.inr h
    | delivered _ => exact hother rfl rfl not_false
    | collected _ => exact hother rfl rfl not_false
    | asked r =>
      by_cases hr : r = .takeActivity
      · subst hr
        rw [activityShown_concat]
        refine ⟨nofun, ?_⟩
        rintro (⟨r, hr, _⟩ | ⟨_, h⟩)
        · cases hr
        · exact absurd trivial h
      · refine hother (congrArg Indication.activity (m.indication_serve r hr)) rfl ?_
        cases r with
        | takeActivity => exact absurd rfl hr
        | _ => exact not_false

/-! ## Runs -/

/-- A node shows its mode from its start on, and nothing else. -/
theorem indication_of_boot {b : Build} {format : Bool} {d : Device}
    (h : (d.boot b format).1 = .running n) : n.indication = { mode := n.config.mode } := by
  unfold Device.boot at h
  split at h
  · contradiction
  · rename_i c _
    dsimp only at h
    split at h
    · contradiction
    · unfold Device.start at h
      split at h
      · contradiction
      · rw [← Device.running.inj h]

/-- From a start on, with any services: as long as the queue has room and the application shows no
    mode itself, the mode that waits last in the queue to be shown, or that is shown if none waits,
    is that of the configuration. Activity is shown exactly if there has been some since the
    application asked for it last. -/
theorem shows_of_run {b : Build} {format : Bool} {d : Device}
    (hboot : (d.boot b format).1 = .running n) (h : n.run inputs = some (m, events)) :
    ((∀ e ∈ events, e.Fits) → (∀ e ∈ events, e.HidesMode) → m.shownMode = m.config.mode) ∧
      (m.indication.activity = true ↔ ActivityShown events) := by
  have hindication := indication_of_boot hboot
  refine ⟨?_, activity_iff_of_run (by rw [hindication]) h⟩
  refine run_induction (P := fun events m => (∀ e ∈ events, e.Fits) →
    (∀ e ∈ events, e.HidesMode) → m.shownMode = m.config.mode) h ?_ ?_
  · intro _ _
    rw [shownMode, (startsFrom_of_boot hboot).queue, hindication]
    rfl
  · intro before now m m' hmoves hbefore hfits happlication
    refine hmoves.shownMode (fun e he => hfits e (List.mem_append_right _ he))
      (fun e he => happlication e (List.mem_append_right _ he)) (hbefore ?_ ?_)
    · exact fun e he => hfits e (List.mem_append_left _ he)
    · exact fun e he => happlication e (List.mem_append_left _ he)

/-- A small node goes to setup and gets the number 300; its user asks for setup again before the
    interface has shown it all. -/
def numberedInputs : List Input :=
  [.ask (.put .advanceMode), .cycle 0,
    .ask (.put (.received (.addressed Opcode.snn.byte 300 []))), .cycle 1, .cycle 2, .cycle 3,
    .ask (.put .advanceMode)] ++ [4, 5, 6, 7, 8].map .cycle

theorem shows_of_numberedInputs : ∃ m events, small.run numberedInputs = some (m, events) ∧
    m.indication.mode ≠ m.config.mode ∧ m.shownMode = m.config.mode ∧
    m.indication.activity = true ∧ ActivityShown events := by
  have hrun : ((small.run numberedInputs).any fun x =>
      x.1.indication.mode != x.1.config.mode && x.1.indication.activity &&
        decide (∀ e ∈ x.2, e.Fits) && decide (∀ e ∈ x.2, e.HidesMode)) = true := by
    decide +kernel
  obtain ⟨m, events, hm, hp⟩ := exists_run hrun
  simp only [Bool.and_eq_true, bne_iff_ne, decide_eq_true_eq] at hp
  obtain ⟨⟨⟨hbehind, hactivity⟩, hfits⟩, happlication⟩ := hp
  obtain ⟨hshown, hiff⟩ := shows_of_run boot_small hm
  exact ⟨m, events, hm, hbehind, hshown hfits happlication, hactivity, hiff.1 hactivity⟩

end RailNode.Node
