import RailNode.Device
import RailNode.Proofs.Configuration.Capacity
import RailNode.Proofs.Node.Requests

/-
  Runs of a device: starts, cycles, what the driver does with the link and what the application
  asks of the node, in any order. `moves_of_step` says once what a step can do, and `run_preserves`
  carries what every step keeps over a run.
-/
namespace RailNode

/-! ## Steps -/

namespace Device

/-- What happens to a device. -/
inductive Input where
  | boot (b : Build) (format : Bool)
  | cycle (now : Time)
  | deliver (f : Frame)
  | collect
  | ask (r : Node.Request)
  | factoryRestart

/-- What comes of an input; without a node there are no cycles and nobody to ask. `none` stands
    for a fault. -/
def step (d : Device) : Input → Option Device
  | .boot b format => some (d.boot b format).1
  | .cycle now =>
    match d with
    | idle _ _ => some d
    | running n => cycle? now n
  | .deliver f => some ((d.deliver? f).getD d)
  | .collect => some d.collect.2
  | .ask r =>
    match d with
    | idle _ _ => some d
    | running n => some (running (n.serve r))
  | .factoryRestart =>
    match d with
    | idle _ _ => some d
    | running n => some (factoryRestart n)

/-- What comes of inputs one after the other. -/
def run (d : Device) (inputs : List Input) : Option Device := inputs.foldlM step d

@[simp]
theorem run_nil (d : Device) : d.run [] = some d := rfl

theorem run_cons (d : Device) (i : Input) (inputs : List Input) :
    d.run (i :: inputs) = (d.step i).bind (·.run inputs) := rfl

/-- What every step keeps, a run keeps. -/
theorem run_preserves {P : Device → Prop} {Q : Input → Prop} {d d' : Device}
    {inputs : List Input} (h : d.run inputs = some d')
    (hstep : ∀ {d d' : Device} {i : Input}, Q i → d.step i = some d' → P d → P d')
    (hQ : ∀ i ∈ inputs, Q i) (hd : P d) : P d' := by
  induction inputs generalizing d with
  | nil =>
    rw [run_nil] at h
    exact Option.some.inj h ▸ hd
  | cons i inputs ih =>
    rw [run_cons] at h
    obtain ⟨between, hi, h⟩ := Option.bind_eq_some_iff.1 h
    have hbetween := hstep (hQ i List.mem_cons_self) hi hd
    exact ih h (fun j hj => hQ j (List.mem_cons_of_mem i hj)) hbetween

/-! ## What a step can do -/

/-- What a start can come to: the device stays without a node over its old store or a reset one,
    or a node runs on what it has loaded. A store is reset if that was asked for or if the store
    was virgin. -/
inductive Boots (b : Build) (format : Bool) (d : Device) : Device → Prop
  | refused (link : Link) : Boots b format d (idle d.store link)
  | reset (c : Configuration) (link : Link) : c.layout = b.layout →
      (format = true ∨ c.store = d.store ∧ c.isVirgin = true) →
      Boots b format d (idle c.factoryReset.store link)
  | started (c : Configuration) (n : Node) : c.layout = b.layout →
      (c.store = d.store ∨ format = true ∧ ∃ e : Configuration, c = e.factoryReset) →
      c.isVirgin = false → n.config = c.load →
      n.entries = b.services.map (fun service => { service }) → n.timing = b.timing →
      Boots b format d (running n)

/-- What a step can come to. -/
inductive Moves : Device → Input → Device → Prop
  | boot {d d' : Device} {b : Build} {format : Bool} : Boots b format d d' →
      Moves d (.boot b format) d'
  | idle {store : Store} {link link' : Link} {i : Input} :
      Moves (idle store link) i (idle store link')
  | cycle {n : Node} {now : Time} {o : Node.Outcome} : n.cycle now = .ok o →
      Moves (running n) (.cycle now) (running o.node)
  | restart {n : Node} {now : Time} {shared : Shared} {trace : Trace} :
      n.cycle now = .error (.restart shared trace) →
      Moves (running n) (.cycle now) (left shared.config shared.link)
  | serve {n n' : Node} {i : Input} : n.SameCore n' → Moves (running n) i (running n')
  | factoryRestart {n : Node} : Moves (running n) .factoryRestart (factoryRestart n)

theorem boots_start {b : Build} {format : Bool} {d : Device} {c : Configuration} {n : Node}
    (hl : c.layout = b.layout)
    (hc : c.store = d.store ∨ format = true ∧ ∃ e : Configuration, c = e.factoryReset)
    (hn : Node.assemble? c d.link b.info b.timing b.services = some n) :
    Boots b format d (start n).1 := by
  unfold Node.assemble? at hn
  split at hn
  · contradiction
  · rw [← Option.some.inj hn]
    unfold start Configuration.start
    rcases hv : c.isVirgin with _ | _
    · exact .started c _ hl hc hv rfl rfl rfl
    · refine .reset c _ hl ?_
      rcases hc with hc | ⟨hformat, _⟩
      · exact Or.inr ⟨hc, hv⟩
      · exact Or.inl hformat

theorem boots_boot (b : Build) (format : Bool) (d : Device) :
    Boots b format d (d.boot b format).1 := by
  unfold boot
  rcases hc : Configuration.ofStore b.layout d.store with e | c
  · exact .refused d.link
  · have hl := Configuration.layout_ofStore hc
    have hs := Configuration.store_ofStore hc
    dsimp only
    cases format with
    | true =>
      have hl' : c.factoryReset.layout = b.layout := by rw [c.layout_factoryReset, hl]
      rw [if_pos rfl]
      rcases hn : Node.assemble? c.factoryReset d.link b.info b.timing b.services with _ | n
      · exact .reset c d.link hl (Or.inl rfl)
      · exact boots_start hl' (Or.inr ⟨rfl, c, rfl⟩) hn
    | false =>
      rw [if_neg (by decide)]
      rcases hn : Node.assemble? c d.link b.info b.timing b.services with _ | n
      · dsimp only [left]
        rw [hs]
        exact .refused d.link
      · exact boots_start hl (Or.inl hs) hn

theorem moves_of_step {d d' : Device} {i : Input} (h : d.step i = some d') : Moves d i d' := by
  cases i with
  | boot b format => exact Option.some.inj h ▸ .boot (boots_boot b format d)
  | cycle now =>
    cases d with
    | idle store link => exact Option.some.inj h ▸ .idle
    | running n =>
      simp only [step, cycle?] at h
      split at h
      · rename_i hcycle
        exact Option.some.inj h ▸ .cycle hcycle
      · rename_i hcycle
        exact Option.some.inj h ▸ .restart hcycle
      · contradiction
  | deliver f =>
    rw [← Option.some.inj h]
    unfold deliver?
    rcases d.link.deliver? f with _ | link
    · cases d with
      | idle store link => exact .idle
      | running n => exact .serve (.refl n)
    · cases d with
      | idle store link => exact .idle
      | running n => exact .serve ⟨rfl, rfl, rfl, rfl⟩
  | collect =>
    rw [← Option.some.inj h]
    cases d with
    | idle store link => exact .idle
    | running n => exact .serve ⟨rfl, rfl, rfl, rfl⟩
  | ask r =>
    cases d with
    | idle store link => exact Option.some.inj h ▸ .idle
    | running n => exact Option.some.inj h ▸ .serve (n.sameCore_serve r)
  | factoryRestart =>
    cases d with
    | idle store link => exact Option.some.inj h ▸ .idle
    | running n => exact Option.some.inj h ▸ .factoryRestart

end Device

/-! ## Builds -/

/-- A node is put together from new services, with just one that has this id. -/
structure Build.HasOne (id : ServiceId) (b : Build) : Prop where
  isNew : ∀ s ∈ b.services, s.IsNew
  count : (b.services.map Service.id).count id = 1

namespace Device

theorem sound_of_boots {b : Build} {format : Bool} {d : Device} {n : Node}
    (hb : ∀ s ∈ b.services, s.IsNew) (h : Boots b format d (running n)) : n.Sound := by
  cases h with
  | started c n _ _ _ _ hentries _ =>
    intro s hs
    rw [hentries, List.map_map] at hs
    obtain ⟨s', hs', rfl⟩ := List.mem_map.1 hs
    exact Service.sound_of_isNew (hb s' hs')

theorem hasOne_of_boots {b : Build} {format : Bool} {d : Device} {n : Node} {id : ServiceId}
    (hb : b.HasOne id) (h : Boots b format d (running n)) : n.HasOne id := by
  cases h with
  | started c n _ _ _ _ hentries _ =>
    rw [Node.HasOne, hentries, List.map_map]
    exact hb.count

/-! ## What runs keep -/

/-- Every node that starts is put together as `P` says. -/
def Input.Starts (P : Build → Prop) : Input → Prop
  | .boot b _ => P b
  | _ => True

theorem Input.Starts.imp {P Q : Build → Prop} {i : Input} (h : i.Starts P)
    (hPQ : ∀ {b : Build}, P b → Q b) : i.Starts Q := by
  cases i with
  | boot b format => exact hPQ h
  | _ => trivial

/-- A configuration with this layout over the store of the device has a property, and so has the
    index of the node that runs on it. -/
structure Holds (l : Layout) (P : Configuration → Prop) (d : Device) : Prop where
  store : ∀ c : Configuration, c.layout = l → c.store = d.store → P c
  layout : ∀ n, d = running n → n.config.layout = l
  index : ∀ n, d = running n → n.config.IndexAgrees

variable {l : Layout} {P : Configuration → Prop} {d d' : Device} {i : Input}

theorem holds_of_store {store : Store} {link : Link}
    (h : ∀ c : Configuration, c.layout = l → c.store = store → P c) :
    Holds l P (idle store link) where
  store := h
  layout _ h := Device.noConfusion h
  index _ h := Device.noConfusion h

theorem holds_idle (c : Configuration) {link : Link} (hP : Configuration.Stored P)
    (hl : c.layout = l) (hc : P c) : Holds l P (idle c.store link) :=
  holds_of_store fun _ hl' hs => hP (hl'.trans hl.symm) hs hc

theorem holds_running {n : Node} (hP : Configuration.Stored P) (hl : n.config.layout = l)
    (hi : n.config.IndexAgrees) (hn : P n.config) : Holds l P (running n) where
  store _ hl' hs := hP (hl'.trans hl.symm) hs hn
  layout _ h := by rw [← running.inj h]; exact hl
  index _ h := by rw [← running.inj h]; exact hi

theorem Holds.of_boots {b : Build} {format : Bool} (hP : Configuration.Stored P)
    (hreset : ∀ c : Configuration, P c.factoryReset) (hlb : b.layout = l)
    (h : Boots b format d d') (hd : Holds l P d) : Holds l P d' := by
  cases h with
  | refused link => exact holds_of_store hd.store
  | reset c link hl _ =>
    exact holds_idle c.factoryReset hP (by rw [c.layout_factoryReset, hl, hlb]) (hreset c)
  | started c n hl hc _ hn _ _ =>
    have hload : P c.load := by
      rcases hc with hc | ⟨_, e, rfl⟩
      · exact hd.store c.load (by rw [c.layout_load, hl, hlb]) (by rw [c.store_load, hc])
      · exact hP e.factoryReset.layout_load e.factoryReset.store_load (hreset e)
    refine holds_running hP ?_ ?_ ?_
    · rw [hn, c.layout_load, hl, hlb]
    · rw [hn]
      exact c.indexAgrees_load
    · rw [hn]
      exact hload

/-- What is stored, holds after a factory reset and is kept by all edits, holds in every run. -/
theorem Holds.of_moves (hP : Configuration.Stored P)
    (hreset : ∀ c : Configuration, P c.factoryReset)
    (hedits : ∀ {c e : Configuration}, c.IndexAgrees → Configuration.Edits Node.parts c e →
      P c → P e)
    (hi : i.Starts (·.layout = l)) (h : Moves d i d') (hd : Holds l P d) : Holds l P d' := by
  cases h with
  | boot hboot => exact hd.of_boots hP hreset hi hboot
  | idle => exact holds_of_store hd.store
  | @cycle n _ o hcycle =>
    have hedit := Node.edits_cycle hcycle
    have hindex := hd.index n rfl
    refine holds_running hP ?_ (hedit.indexAgrees hindex) ?_
    · rw [hedit.changesOnly.layout, hd.layout n rfl]
    · exact hedits hindex hedit (hd.store n.config (hd.layout n rfl) rfl)
  | @restart n _ shared _ hcycle =>
    obtain ⟨e, hedit, hleft⟩ := Node.leaves_cycle hcycle
    have hl : e.layout = l := by rw [hedit.changesOnly.layout, hd.layout n rfl]
    have he : P e := hedits (hd.index n rfl) hedit (hd.store n.config (hd.layout n rfl) rfl)
    have hlr : e.factoryReset.layout = l := by rw [e.layout_factoryReset, hl]
    show Holds l P (idle shared.config.store shared.link)
    rcases hleft with hleft | hleft
    · rw [hleft]
      exact holds_idle e hP hl he
    · rw [hleft]
      exact holds_idle e.factoryReset hP hlr (hreset e)
  | @serve n n' _ hsame =>
    have hconfig := hsame.config
    refine holds_running hP ?_ ?_ ?_
    · rw [hconfig, hd.layout n rfl]
    · rw [hconfig]
      exact hd.index n rfl
    · rw [hconfig]
      exact hd.store n.config (hd.layout n rfl) rfl
  | @factoryRestart n =>
    have hlr : n.config.factoryReset.layout = l := by
      rw [n.config.layout_factoryReset, hd.layout n rfl]
    show Holds l P (idle n.config.factoryReset.store n.link)
    exact holds_idle n.config.factoryReset hP hlr (hreset n.config)

/-- What every node has that is put together as `Q` says, what a cycle keeps, and what depends on
    the configuration and the cores only, every running node has. -/
theorem running_of_moves {R : Node → Prop} {Q : Build → Prop}
    (hboot : ∀ {b : Build} {format : Bool} {d : Device} {n : Node}, Q b →
      Boots b format d (running n) → R n)
    (hcycle : ∀ {n : Node} {now : Time} {o : Node.Outcome}, n.cycle now = .ok o → R n → R o.node)
    (hcore : ∀ {n n' : Node}, n.SameCore n' → R n → R n')
    (hi : i.Starts Q) (h : Moves d i d') (hd : ∀ n, d = running n → R n) :
    ∀ n, d' = running n → R n := by
  intro n hn
  subst hn
  cases h with
  | boot h => exact hboot hi h
  | cycle h => exact hcycle h (hd _ rfl)
  | serve h => exact hcore h (hd _ rfl)

/-- A running node has just one service with this id, and is sound. -/
theorem hasOne_of_run {id : ServiceId} {d d' : Device} {inputs : List Input}
    (h : d.run inputs = some d') (hi : ∀ i ∈ inputs, i.Starts (Build.HasOne id))
    (hd : ∀ n, d = running n → n.HasOne id ∧ n.Sound) :
    ∀ n, d' = running n → n.HasOne id ∧ n.Sound :=
  run_preserves (P := fun d => ∀ n, d = running n → n.HasOne id ∧ n.Sound) h
    (fun hi hstep hd => running_of_moves
      (fun hb hboot => ⟨hasOne_of_boots hb hboot, sound_of_boots hb.isNew hboot⟩)
      (fun hcycle hn => ⟨hn.1.cycle hcycle, hn.2.cycle hcycle⟩)
      (fun hcore hn => ⟨hcore.hasOne hn.1, hcore.sound hn.2⟩) hi (moves_of_step hstep) hd)
    hi hd

/-- A device whose node is sound takes every input. -/
theorem exists_step (hd : ∀ n, d = running n → n.Sound) (i : Input) :
    ∃ d', d.step i = some d' := by
  cases i with
  | cycle now =>
    cases d with
    | idle store link => exact ⟨_, rfl⟩
    | running n =>
      have hne := (hd n rfl).cycle_ne_fault now
      simp only [step, cycle?]
      split
      · exact ⟨_, rfl⟩
      · exact ⟨_, rfl⟩
      · contradiction
  | ask r => cases d <;> exact ⟨_, rfl⟩
  | factoryRestart => cases d <;> exact ⟨_, rfl⟩
  | _ => exact ⟨_, rfl⟩

/-- A run comes to its end if every node is put together from new services. -/
theorem exists_run {inputs : List Input}
    (hi : ∀ i ∈ inputs, i.Starts fun b => ∀ s ∈ b.services, s.IsNew)
    (hd : ∀ n, d = running n → n.Sound) : ∃ d', d.run inputs = some d' := by
  induction inputs generalizing d with
  | nil => exact ⟨d, rfl⟩
  | cons i inputs ih =>
    obtain ⟨between, hstep⟩ := exists_step hd i
    have hbetween : ∀ n, between = running n → n.Sound :=
      running_of_moves (fun hb hboot => sound_of_boots hb hboot)
        (fun hcycle hn => hn.cycle hcycle) (fun hcore hn => hcore.sound hn)
        (hi i List.mem_cons_self) (moves_of_step hstep) hd
    rw [run_cons, hstep]
    exact ih (fun j hj => hi j (List.mem_cons_of_mem i hj)) hbetween

/-- What every start gives to the configuration of a node and all edits keep, it has in every
    state of a run. -/
theorem config_of_run (hload : ∀ c : Configuration, P c.load)
    (hedits : ∀ {c e : Configuration}, Configuration.Edits Node.parts c e → P c → P e)
    {inputs : List Input} (h : d.run inputs = some d') (hd : ∀ n, d = running n → P n.config) :
    ∀ n, d' = running n → P n.config := by
  have hstarts : ∀ i : Input, i.Starts fun _ => True := by
    intro i
    cases i <;> trivial
  refine run_preserves (P := fun d => ∀ n, d = running n → P n.config) (Q := fun _ => True) h
    (fun {_ _ i} _ hstep hd => ?_) (fun _ _ => trivial) hd
  refine running_of_moves (R := fun n => P n.config) ?_ ?_ ?_ (hstarts i) (moves_of_step hstep) hd
  · intro b format d n _ hboot
    cases hboot with
    | started c n _ _ _ hn _ _ =>
      rw [hn]
      exact hload c
  · intro n now o hcycle hn
    exact hedits (Node.edits_cycle hcycle) hn
  · intro n n' hcore hn
    rw [hcore.config]
    exact hn

/-! ## The size of the store -/

theorem capacity_start (n : Node) : (start n).1.store.capacity = n.config.store.capacity := by
  unfold start Configuration.start
  split
  · rename_i c h
    split_ifs at h
    rw [← Configuration.Start.restart.inj h]
    exact n.config.capacity_factoryReset
  · rename_i c h
    split_ifs at h
    rw [← Configuration.Start.ready.inj h]
    exact congrArg Store.capacity n.config.store_load

theorem capacity_boot (b : Build) (format : Bool) (d : Device) :
    (d.boot b format).1.store.capacity = d.store.capacity := by
  unfold boot
  rcases hc : Configuration.ofStore b.layout d.store with e | c
  · rfl
  · have hcapacity : (if format then c.factoryReset else c).store.capacity = d.store.capacity := by
      rw [← Configuration.store_ofStore hc]
      split_ifs
      · exact c.capacity_factoryReset
      · rfl
    dsimp only
    generalize (if format then c.factoryReset else c) = config at hcapacity
    unfold Node.assemble?
    split_ifs
    · exact hcapacity
    · exact (capacity_start _).trans hcapacity

/-- No step changes the size of the store. -/
theorem capacity_step (h : d.step i = some d') : d'.store.capacity = d.store.capacity := by
  have hmoves := moves_of_step h
  cases hmoves with
  | @boot _ _ b format _ => exact Option.some.inj h ▸ capacity_boot b format d
  | idle => rfl
  | cycle hcycle => exact Configuration.capacity_of_edits (Node.edits_cycle hcycle)
  | restart hcycle =>
    obtain ⟨e, hedits, hleft⟩ := Node.leaves_cycle hcycle
    have he := Configuration.capacity_of_edits hedits
    rcases hleft with hleft | hleft
    · exact (congrArg (·.store.capacity) hleft).trans he
    · exact (congrArg (·.store.capacity) hleft).trans (e.capacity_factoryReset.trans he)
  | serve hcore => exact congrArg (·.store.capacity) hcore.config
  | @factoryRestart n => exact n.config.capacity_factoryReset

/-! ## A small device -/

/-- The node of a small device, with room for one node variable and for two events with one
    variable each. -/
def smallBuild : Build where
  layout := .compact 1 2 1
  info := .standard
  timing := .standard
  services := [.minimumNode {}, .busAccess {}, .nodeVariables {}, .teaching {}]

/-- The configuration of a small device as it leaves the factory. -/
def smallConfiguration : Configuration where
  layout := smallBuild.layout
  store := .blank 32 .block
  mode := .uninitialised
  nodeNumber := 0
  address := .unassigned
  flags := 0
  learning := false
  index := Vector.replicate _ 0
  fits := by decide

/-- A small device after a factory reset. -/
def smallDevice : Device := idle smallConfiguration.factoryReset.store (.ofCapacities 2 2)

theorem hasOne_smallBuild {id : ServiceId}
    (h : (smallBuild.services.map Service.id).count id = 1) : smallBuild.HasOne id where
  isNew := by
    intro s hs
    simp only [smallBuild, List.mem_cons, List.not_mem_nil, or_false] at hs
    rcases hs with rfl | rfl | rfl | rfl <;> rfl
  count := h

/-- A session of a small device: it starts, the actions are queued, and there is a cycle for
    each. -/
def session (actions : List Action) : List Input :=
  .boot smallBuild false :: (actions.map fun a => .ask (.put a)) ++ actions.map fun _ => .cycle 0

theorem starts_session {P : Build → Prop} (h : P smallBuild) (actions : List Action) :
    ∀ i ∈ session actions, i.Starts P := by
  intro i hi
  rcases List.mem_append.1 hi with hi | hi
  · rcases List.mem_cons.1 hi with rfl | hi
    · exact h
    · obtain ⟨a, _, rfl⟩ := List.mem_map.1 hi
      trivial
  · obtain ⟨a, _, rfl⟩ := List.mem_map.1 hi
    trivial

/-- A session in which the node of a small device learns an event. -/
def learningSession : List Input :=
  session
    [.received (.addressed Opcode.nnlrn.byte 0 []),
      .received (.addressed Opcode.evlrn.byte 1 [0, 2, 1, 7])]

theorem exists_running {d : Option Device} {p : Node → Bool}
    (h : (d.bind node?).any p = true) : ∃ n, d = some (running n) ∧ p n = true := by
  rcases d with _ | ⟨store, link⟩ | n
  · contradiction
  · contradiction
  · exact ⟨n, rfl, h⟩

/-- After the session the event is in the first slot. -/
theorem exists_learningSession :
    ∃ n, smallDevice.run learningSession = some (running n) ∧ n.config.find ⟨1, 2⟩ = .ok 0 := by
  have hrun : ((smallDevice.run learningSession).bind node?).any
      (fun n => (n.config.find ⟨1, 2⟩).toOption == some 0) = true := by
    decide +kernel
  obtain ⟨n, hn, hfind⟩ := exists_running hrun
  exact ⟨n, hn, toOption_eq_some_iff.1 (beq_iff_eq.1 hfind)⟩

/-! ## A device for events -/

/-- The node of a device with room for four events with two variables each, which it learns,
    consumes and acknowledges. -/
def eventBuild : Build where
  layout := .compact 0 4 2
  info := .standard
  timing := .standard
  services := [.minimumNode {}, .teaching {}, .consumer .new, .acknowledge {}]

theorem hasOne_eventBuild {id : ServiceId}
    (h : (eventBuild.services.map Service.id).count id = 1) : eventBuild.HasOne id where
  isNew := by
    intro s hs
    simp only [eventBuild, List.mem_cons, List.not_mem_nil, or_false] at hs
    rcases hs with rfl | rfl | rfl | rfl <;> rfl
  count := h

/-- A lesson: the node is to learn these events, each with 7 in its first variable. -/
def lesson (events : List EventId) : List Action :=
  .received (.addressed Opcode.nnlrn.byte 0 []) :: events.map fun e =>
    .received (.addressed Opcode.evlrn.byte e.node (Word.bytes e.number ++ [1, 7]))

/-- A device with a virgin store. The first start resets it. -/
def eventDevice : Device := idle (.blank 64 .block) (.ofCapacities 2 2)

/-- A session of a device for events: it starts, the actions are queued, and there are so many
    cycles. -/
def eventSession (actions : List Action) (cycles : Nat) : List Input :=
  [.boot eventBuild false, .boot eventBuild false] ++ (actions.map fun a => .ask (.put a)) ++
    List.replicate cycles (.cycle 0)

theorem starts_eventSession {P : Build → Prop} (h : P eventBuild) (actions : List Action)
    (cycles : Nat) : ∀ i ∈ eventSession actions cycles, i.Starts P := by
  intro i hi
  rcases List.mem_append.1 hi with hi | hi
  · rcases List.mem_append.1 hi with hi | hi
    · simp only [List.mem_cons, List.not_mem_nil, or_false] at hi
      rcases hi with rfl | rfl
      · exact h
      · exact h
    · obtain ⟨a, _, rfl⟩ := List.mem_map.1 hi
      trivial
  · obtain rfl := List.eq_of_mem_replicate hi
    trivial

end Device

end RailNode
