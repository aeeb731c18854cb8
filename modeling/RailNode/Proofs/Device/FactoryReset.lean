import RailNode.Proofs.Configuration.FactoryReset
import RailNode.Proofs.Device.Restart
import RailNode.Proofs.Node.Queue

/-
  How a device comes to a factory reset, and what becomes of it. A start over a virgin store resets
  it, and the next start succeeds (`boot_cases`). An NNRSM message ends the cycle in which a node
  takes it with the release of its number, and with nothing after that (`cycle_nnrsm`).
-/
namespace RailNode

/-! ## The release -/

/-- The frame with which a node gives its number up. -/
def Configuration.release (c : Configuration) : Frame :=
  .message c.address (.addressed Opcode.nnrel.byte c.nodeNumber [])

/-- What is shared after the reset of a node: the release has been offered to the link, then the
    store was wiped, and the queue stays as it was. -/
def Shared.released (s : Shared) : Shared where
  config := s.config.factoryReset
  link := (s.link.send? s.config.release).getD s.link
  queue := s.queue

/-- The last word of a node before its reset, with the configuration that it still had. -/
def Shared.lastWord (s : Shared) : Trace where
  offered := [⟨s.config.release, s.config⟩]

theorem MinimumNode.turn_nnrsm {c : Cycle} {s : MinimumNode} {shared : Shared} {m : Message}
    (hm : c.action = some (.received m)) (ho : m.opcode? = some .nnrsm)
    (hn : m.nodeNumber? = some shared.config.nodeNumber) :
    MinimumNode.turn c { self := s, shared } =
      .error (.restart shared.released shared.lastWord) := by
  have hnamed : ∀ s : MinimumNode, ({ self := s, shared } : Turn MinimumNode).isNamedBy m = true :=
    fun _ => beq_iff_eq.2 hn
  unfold turn react handle
  simp only [hm, ho, hnamed, if_true]
  rfl

namespace Node

variable {n : Node} {now : Time} {m : Message}

/-- The entries before the first that may restart the device come to their end. -/
theorem Sound.exists_before (hn : n.Sound) (now : Time) :
    ∃ r, turns (n.facts now) 1 n.opening (n.before .minimumNode) = .ok r := by
  rcases h : turns (n.facts now) 1 n.opening (n.before .minimumNode) with x | r
  · obtain ⟨first, e, after, r, hsplit, _, hturn⟩ := exists_of_turns_eq_error h
    have he : e ∈ n.before .minimumNode := by simp [hsplit]
    cases x with
    | restart left trace =>
      exact absurd (Service.turn_eq_restart hturn).1 (n.before_ne .minimumNode e he)
    | fault =>
      exact absurd h (turns_ne_fault fun e he =>
        hn.entries now e (List.takeWhile_subset _ he))
  · exact ⟨r, rfl⟩

/-- When a node takes an NNRSM message that names it from the queue, its cycle ends with the release
    of its old number, which is the last frame that is offered; the store is wiped then, and what
    still waits in the queue is not sent. -/
theorem cycle_nnrsm (hn : n.Sound) (hid : .minimumNode ∈ n.entries.map (·.service.id))
    (ha : n.nextAction.1 = some (.received m)) (ho : m.opcode? = some .nnrsm)
    (hm : m.nodeNumber? = some n.config.nodeNumber) :
    ∃ found, n.foundBy .minimumNode now = .ok found ∧
      n.cycle now = .error (.restart found.released found.lastWord) ∧
      found.config.nodeNumber = n.config.nodeNumber ∧
      (∃ given, found.queue = n.nextAction.2.putAll given) ∧
      ((∀ e ∈ n.before .minimumNode, e.service.id ≠ .busAccess) →
        found.config.address = n.config.address ∧ found.link = n.link) := by
  obtain ⟨e, after, hsplit, he⟩ := exists_split hid
  obtain ⟨s, hs⟩ := MinimumNode.exists_minimumNode he
  obtain ⟨r, hr⟩ := hn.exists_before now
  have hnumber : r.2.config.nodeNumber = n.config.nodeNumber := by
    have hedits := edits_turns hr fun x hx =>
      MinimumNode.parts_subset_otherParts (n.before_ne .minimumNode x hx)
    exact hedits.changesOnly.nodeNumber (by decide)
  have hturn : Service.turn (n.facts now) { self := e.service, shared := r.2 } =
      .error (.restart r.2.released r.2.lastWord) := by
    unfold Service.turn
    rw [hs]
    exact congrArg (Except.map (Turn.map Service.minimumNode))
      (MinimumNode.turn_nnrsm ha ho (by rw [hm, hnumber]))
  refine ⟨r.2, ?_, ?_, hnumber, ⟨_, queue_turns hr⟩, fun hbus => ⟨?_, (link_turns hr hbus).1⟩⟩
  · rw [foundBy, hr]
    rfl
  · rw [cycle_eq, hsplit, turns_eq_error hr hturn]
    rfl
  · have hedits := edits_turns hr fun x hx => parts_subset_partsBesideBus (hbus x hx)
    exact hedits.changesOnly.address (by decide)

end Node

namespace Device

/-! ## Starts -/

/-- A start over a virgin store resets it. -/
theorem boot_eq_restarted {b : Build} {d : Device} {c : Configuration}
    (hc : Configuration.ofStore b.layout d.store = .ok c)
    (hs : b.services.length ≤ Node.maxServices) (hv : c.isVirgin = true) :
    d.boot b false = (idle c.factoryReset.store d.link, .restarted) := by
  unfold boot
  rw [hc]
  dsimp only
  rw [if_neg (by decide), Node.assemble?, if_neg (by omega)]
  dsimp only
  unfold start Configuration.start
  dsimp only
  rw [hv, if_pos rfl]
  rfl

/-- A start over a store that a factory reset has left succeeds, with what the reset left. -/
theorem boot_of_reset {b : Build} {d : Device} {c : Configuration} (hl : b.layout = c.layout)
    (hs : b.services.length ≤ Node.maxServices) (hd : d.store = c.factoryReset.store) :
    ∃ n services, d.boot b false = (running n, .started services) ∧
      n.config = c.factoryReset := by
  have hfits : b.layout.error? d.store.capacity = none := by
    rw [hl, hd, c.capacity_factoryReset]
    exact c.fits
  obtain ⟨e, n, services, hboot, hlayout, hstore, hload⟩ := boot_eq_started hfits hs
    fun e he => Configuration.isVirgin_of_reset (he.trans hd)
  refine ⟨n, services, hboot, ?_⟩
  rw [hload]
  exact Configuration.load_of_reset (hlayout.trans hl) (hstore.trans hd)

/-- A start succeeds at once, or resets the store, and then the next one succeeds. -/
theorem boot_cases {b : Build} {d : Device} (hl : b.layout.error? d.store.capacity = none)
    (hs : b.services.length ≤ Node.maxServices) :
    (∃ n services, d.boot b false = (running n, .started services)) ∨
      ∃ d', d.boot b false = (d', .restarted) ∧
        ∃ n services, d'.boot b false = (running n, .started services) ∧
          n.config.contents = Configuration.factoryContents b.layout d.store.capacity := by
  obtain ⟨c, hc⟩ := Configuration.exists_ofStore hl
  have hlayout := Configuration.layout_ofStore hc
  have hstore := Configuration.store_ofStore hc
  rcases hv : c.isVirgin with _ | _
  · have hvirgin : ∀ e : Configuration, e.store = d.store → e.isVirgin = false := by
      intro e he
      have hes : e.store = c.store := he.trans hstore.symm
      rw [← hv, Configuration.isVirgin_eq, Configuration.isVirgin_eq,
        Configuration.storedMode_congr hes, Configuration.storedNumber_congr hes]
    obtain ⟨_, n, services, hboot, _⟩ := boot_eq_started hl hs hvirgin
    exact Or.inl ⟨n, services, hboot⟩
  · obtain ⟨n, services, hboot, hn⟩ :=
      boot_of_reset (d := idle c.factoryReset.store d.link) hlayout.symm hs rfl
    refine Or.inr ⟨_, boot_eq_restarted hc hs hv, n, services, hboot, ?_⟩
    rw [hn, c.contents_factoryReset, hlayout, hstore]

/-! ## The factory reset as a whole -/

open RailNode.Configuration in
/-- Nothing of what a configuration held survives a factory reset, another one changes nothing, and
    a start over what it leaves finds just that. So a device restarts at most once before its node
    runs. A node that an NNRSM message resets gives its old number up before its store is wiped, and
    sends nothing afterwards. -/
theorem factoryReset_leaves_no_residue (c d : Configuration) (hl : d.layout = c.layout)
    (hcap : d.store.capacity = c.store.capacity) :
    (d.factoryReset.contents = c.factoryReset.contents ∧ c.factoryReset.AsNew ∧
      c.factoryReset.factoryReset = c.factoryReset ∧
      ∀ e : Configuration, e.layout = c.layout → e.store = c.factoryReset.store →
        e.start = .ready c.factoryReset) ∧
    (∀ (b : Build) (device : Device), b.layout.error? device.store.capacity = none →
      b.services.length ≤ Node.maxServices →
      (∃ n services, device.boot b false = (running n, .started services)) ∨
        ∃ device', device.boot b false = (device', .restarted) ∧
          ∃ n services, device'.boot b false = (running n, .started services) ∧
            n.config.contents = factoryContents b.layout device.store.capacity) ∧
    ∀ (n : Node) (now : Time) (m : Message), n.Sound →
      .minimumNode ∈ n.entries.map (·.service.id) → n.nextAction.1 = some (.received m) →
      m.opcode? = some .nnrsm → m.nodeNumber? = some n.config.nodeNumber →
      ∃ found, n.foundBy .minimumNode now = .ok found ∧
        n.cycle now = .error (.restart found.released found.lastWord) ∧
        found.config.nodeNumber = n.config.nodeNumber ∧
        (∃ given, found.queue = n.nextAction.2.putAll given) ∧
        ((∀ e ∈ n.before .minimumNode, e.service.id ≠ .busAccess) →
          found.config.address = n.config.address ∧ found.link = n.link) := by
  refine ⟨⟨?_, c.asNew_factoryReset, c.factoryReset_factoryReset, fun e => start_of_reset⟩,
    fun b device => boot_cases, fun n now m => Node.cycle_nnrsm⟩
  rw [contents_factoryReset, contents_factoryReset, hl, hcap]

/-- A session in which the node of a small device gets the number 65535 and later the message that
    resets it. -/
def resetSession : List Input :=
  numberSession ++ List.replicate 6 (.cycle 0) ++
    [.ask (.put (.received (.addressed Opcode.nnrsm.byte 0xffff [])))]

theorem starts_resetSession : ∀ i ∈ resetSession, i.Starts (Build.HasOne .minimumNode) := by
  intro i hi
  rcases List.mem_append.1 hi with hi | hi
  · rcases List.mem_append.1 hi with hi | hi
    · exact starts_session (hasOne_smallBuild (by decide)) _ i hi
    · rw [List.eq_of_mem_replicate hi]
      trivial
  · rw [List.mem_singleton.1 hi]
    trivial

/-- A small device whose store has never been written. -/
def virginDevice : Device := idle (.blank 32 .block) (.ofCapacities 2 2)

theorem leaves_no_residue_of_resetSession :
    ∃ n, smallDevice.run resetSession = some (running n) ∧
      n.config.factoryReset.contents = smallConfiguration.factoryReset.contents ∧
      (∃ d n' services, virginDevice.boot smallBuild false = (d, .restarted) ∧
        d.boot smallBuild false = (running n', .started services)) ∧
      ∃ found : Shared, n.cycle 0 = .error (.restart found.released found.lastWord) ∧
        found.config.nodeNumber = 0xffff := by
  have hrun : ((smallDevice.run resetSession).bind node?).any (fun n =>
      n.config.layout == smallConfiguration.layout && n.config.store.capacity == 32 &&
        n.nextAction.1 == some (.received (.addressed Opcode.nnrsm.byte 0xffff [])) &&
        n.config.nodeNumber == 0xffff) = true := by
    decide +kernel
  obtain ⟨n, hn, h⟩ := exists_running hrun
  simp only [Bool.and_eq_true, beq_iff_eq] at h
  obtain ⟨⟨⟨hl, hcap⟩, ha⟩, hnumber⟩ := h
  have hidle : ∀ x, smallDevice = running x → x.HasOne .minimumNode ∧ x.Sound := by rintro x ⟨⟩
  obtain ⟨hone, hsound⟩ := hasOne_of_run hn starts_resetSession hidle n rfl
  have hid : .minimumNode ∈ n.entries.map (·.service.id) := by
    rw [← List.count_pos_iff, hone]
    exact Nat.one_pos
  obtain ⟨⟨hcontents, -⟩, hboot, hcycle⟩ :=
    factoryReset_leaves_no_residue smallConfiguration n.config hl hcap
  refine ⟨n, hn, hcontents, ?_, ?_⟩
  · have hvirgin : (virginDevice.boot smallBuild false).2 = .restarted := by decide +kernel
    rcases hboot smallBuild virginDevice (by decide) (by decide) with
      ⟨n', services, hstarted⟩ | ⟨d, hrestarted, n', services, hstarted, _⟩
    · rw [hstarted] at hvirgin
      contradiction
    · exact ⟨d, n', services, hrestarted, hstarted⟩
  · obtain ⟨found, _, herror, hfound, _⟩ :=
      hcycle n 0 _ hsound hid ha (by decide) (by rw [hnumber]; decide)
    exact ⟨found, herror, hfound.trans hnumber⟩

end Device

end RailNode
