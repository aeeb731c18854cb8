import RailNode.Proofs.Device.Run
import RailNode.Proofs.Service.Standing

/-
  The mode and the number of a node over runs of a device whose store was virgin or reset. The
  standing of the node is consistent in every state (`Node.Consistent`), whatever the other
  services do and wherever a restart cuts a negotiation short.
-/
namespace RailNode

open RailNode.Configuration

/-! ## Stores -/

namespace Configuration

variable {c d : Configuration}

/-- A node that starts over this store is in the home mode of its number. -/
def SpellsHome (c : Configuration) : Prop :=
  startMode c.storedMode c.storedNumber = homeMode c.storedNumber

theorem SpellsHome.congr (h : c.SpellsHome) (hs : d.store = c.store) : d.SpellsHome := by
  unfold SpellsHome
  rw [storedMode_congr hs, storedNumber_congr hs]
  exact h

theorem spellsHome_factoryReset (c : Configuration) : c.factoryReset.SpellsHome := by
  unfold SpellsHome
  rw [storedMode_factoryReset, storedNumber_factoryReset]
  rfl

/-- Such a store is not virgin, not even with the number 65535. -/
theorem SpellsHome.isVirgin (h : c.SpellsHome) : c.isVirgin = false := by
  rw [isVirgin_eq]
  by_contra hvirgin
  rw [Bool.not_eq_false, Bool.and_eq_true, beq_iff_eq, beq_iff_eq] at hvirgin
  unfold SpellsHome at h
  rw [hvirgin.1, hvirgin.2] at h
  exact absurd h (by decide)

theorem spellsHome_of_consistent {s : MinimumNode} (h : (Standing.of s c).Consistent) :
    c.SpellsHome := by
  have hnumber : c.storedNumber = c.nodeNumber := h.storedNumber
  unfold SpellsHome
  rw [hnumber]
  exact h.storedMode

/-- A new service over such a store is in a consistent standing. -/
theorem SpellsHome.consistent (h : c.SpellsHome) : (Standing.of {} c.load).Consistent := by
  have hmode : c.load.mode = homeMode c.load.nodeNumber := by
    rw [mode_load, nodeNumber_load]
    exact h
  have hstored := h.congr c.store_load
  have hnumber : c.load.storedNumber = c.load.nodeNumber := by
    rw [nodeNumber_load, storedNumber_congr c.store_load]
  refine ⟨hnumber, ?_, Or.inr ⟨hmode, rfl⟩⟩
  show startMode c.load.storedMode c.load.nodeNumber = homeMode c.load.nodeNumber
  rw [← hnumber]
  exact hstored

end Configuration

/-! ## Nodes -/

namespace MinimumNode

/-- The parts that the other services may change. -/
def otherParts : List Part := [.address, .flags, .learning, .nodeVariables, .records, .index]

theorem parts_subset_otherParts {s : Service} (h : s.id ≠ .minimumNode) :
    s.parts ⊆ otherParts := by
  cases s with
  | minimumNode _ => exact absurd rfl h
  | _ => simp only [Service.parts]; decide

theorem of_eq_of_others {c d : Configuration} (s : MinimumNode) (h : Edits otherParts c d) :
    Standing.of s d = Standing.of s c :=
  Standing.of_eq_of_changesOnly s h.changesOnly (by decide)

end MinimumNode

namespace Node

open MinimumNode

variable {n n' : Node} {now : Time} {o : Outcome}

/-- The node has this service for its mode and its number. -/
def RunsOn (s : MinimumNode) (n : Node) : Prop :=
  Service.minimumNode s ∈ n.entries.map (·.service)

theorem HasOne.runsOn_eq (h : n.HasOne .minimumNode) {s s' : MinimumNode} (hs : n.RunsOn s)
    (hs' : n.RunsOn s') : s = s' :=
  Service.minimumNode.inj (h.eq hs rfl hs' rfl)

/-- The node has one service for its mode and its number, which stand consistently. -/
structure Consistent (n : Node) : Prop where
  hasOne : n.HasOne .minimumNode
  standing : ∀ s, n.RunsOn s → (Standing.of s n.config).Consistent

theorem HasOne.exists_runsOn (h : n.HasOne .minimumNode) : ∃ s, n.RunsOn s := by
  obtain ⟨e, after, hsplit, he, _⟩ := h.split
  obtain ⟨s, hs⟩ := exists_minimumNode he
  refine ⟨s, List.mem_map.2 ⟨e, ?_, hs⟩⟩
  rw [hsplit]
  exact List.mem_append_right _ List.mem_cons_self

/-- In a cycle the standing passes from one to another as the service makes it. -/
theorem HasOne.passes (hone : n.HasOne .minimumNode) (h : n.cycle now = .ok o) :
    ∃ s s', n.RunsOn s ∧ o.node.RunsOn s' ∧
      Standing.Passes now n.timing.negotiationLimit n.nextAction.1 (.of s n.config)
        (.of s' o.node.config) := by
  obtain ⟨e, hmem, he, found, t, _, hbefore, hturn, _, hafter, e', hmem', hself⟩ :=
    visit_of_cycle hone (fun s => parts_subset_otherParts) h
  obtain ⟨s, hs⟩ := exists_minimumNode he
  have hruns : n.RunsOn s := List.mem_map.2 ⟨e, hmem, hs⟩
  unfold Service.turn at hturn
  rw [hs] at hturn
  obtain ⟨u, hu, rfl⟩ := map_eq_ok_iff.1 hturn
  have hpasses := passes_turn (t := { self := s, shared := found }) hu
  refine ⟨s, u.self, hruns, List.mem_map.2 ⟨e', hmem', hself⟩, ?_⟩
  rw [of_eq_of_others u.self hafter, ← of_eq_of_others s hbefore]
  exact hpasses

theorem Consistent.cycle (hn : n.Consistent) (h : n.cycle now = .ok o) : o.node.Consistent where
  hasOne := hn.hasOne.cycle h
  standing s' hs' := by
    obtain ⟨s, s'', hs, hs'', hpasses⟩ := hn.hasOne.passes h
    rw [(hn.hasOne.cycle h).runsOn_eq hs' hs'']
    exact (hn.standing s hs).passes hpasses

/-- A restart leaves the standing of the node, or a factory reset. -/
theorem Consistent.of_restart (hn : n.Consistent) {shared : Shared} {trace : Trace}
    (h : n.cycle now = .error (.restart shared trace)) :
    (∃ c : Configuration, shared.config = c.factoryReset) ∨
      ∀ s, Standing.of s shared.config = Standing.of s n.config := by
  obtain ⟨d, hedits, hleft⟩ :=
    visit_of_restart hn.hasOne (fun s => parts_subset_otherParts) h
  rcases hleft with hleft | hleft
  · refine Or.inr fun s => ?_
    rw [hleft]
    exact of_eq_of_others s hedits
  · exact Or.inl ⟨d, hleft⟩

theorem SameCore.runsOn_iff (h : n.SameCore n') (s : MinimumNode) : n'.RunsOn s ↔ n.RunsOn s := by
  have hcores : ∀ m : Node, m.RunsOn s ↔ Service.minimumNode s ∈ m.cores := by
    intro m
    constructor
    · intro hs
      obtain ⟨e, he, heq⟩ := List.mem_map.1 hs
      refine List.mem_map.2 ⟨e, he, ?_⟩
      rw [heq]
      rfl
    · intro hs
      obtain ⟨e, he, heq⟩ := List.mem_map.1 hs
      refine List.mem_map.2 ⟨e, he, ?_⟩
      cases hservice : e.service with
      | minimumNode x =>
        rw [hservice] at heq
        exact heq
      | _ =>
        rw [hservice] at heq
        contradiction
  rw [hcores n', hcores n, h.cores]

theorem SameCore.consistent (h : n.SameCore n') (hn : n.Consistent) : n'.Consistent where
  hasOne := h.hasOne hn.hasOne
  standing s hs := by
    rw [h.config]
    exact hn.standing s ((h.runsOn_iff s).1 hs)

theorem Consistent.spellsHome (hn : n.Consistent) : n.config.SpellsHome := by
  obtain ⟨s, hs⟩ := hn.hasOne.exists_runsOn
  exact spellsHome_of_consistent (hn.standing s hs)

end Node

/-! ## Devices -/

namespace Device

variable {d d' : Device} {i : Input}

/-- A running node stands consistently; a store without a node is virgin or spells home. -/
def Consistent : Device → Prop
  | idle store _ => ∀ c : Configuration, c.store = store → c.isVirgin = true ∨ c.SpellsHome
  | running n => n.Consistent

theorem consistent_idle {c : Configuration} (h : c.SpellsHome) (link : Link) :
    (idle c.store link).Consistent :=
  fun _ hs => Or.inr (h.congr hs)

theorem consistent_virgin {c : Configuration} (h : c.isVirgin = true) (link : Link) :
    (idle c.store link).Consistent := by
  intro e hs
  rw [isVirgin_eq, storedMode_congr hs.symm, storedNumber_congr hs.symm] at h
  exact Or.inl h

theorem Consistent.store (hd : d.Consistent) (c : Configuration) (hs : c.store = d.store) :
    c.isVirgin = true ∨ c.SpellsHome := by
  cases d with
  | idle store link => exact hd c hs
  | running n => exact Or.inr (Node.Consistent.spellsHome hd |>.congr hs)

/-- A node starts with the services that it is put together from, and these are new. -/
theorem eq_of_boots {b : Build} {format : Bool} {n : Node} {s : MinimumNode}
    (hb : ∀ s ∈ b.services, s.IsNew) (h : Boots b format d (running n)) (hs : n.RunsOn s) :
    s = {} := by
  cases h with
  | started _ _ _ _ _ _ hentries _ =>
    rw [Node.RunsOn, hentries, List.map_map] at hs
    obtain ⟨s', hs', rfl⟩ := List.mem_map.1 hs
    exact hb _ hs'

/-- A node that has just started stands consistently. -/
theorem Consistent.of_boots (hd : d.Consistent) {b : Build} {format : Bool} {n : Node}
    (hb : b.HasOne .minimumNode) (h : Boots b format d (running n)) : n.Consistent where
  hasOne := hasOne_of_boots hb h
  standing s hs := by
    have hnew := eq_of_boots hb.isNew h hs
    cases h with
    | started c n _ hc hv hn _ _ =>
      have hhome : c.SpellsHome := by
        rcases hc with hc | ⟨_, e, rfl⟩
        · rcases hd.store c hc with hvirgin | hhome
          · rw [hv] at hvirgin
            contradiction
          · exact hhome
        · exact e.spellsHome_factoryReset
      rw [hnew, hn]
      exact hhome.consistent

theorem Consistent.moves (hi : i.Starts (Build.HasOne .minimumNode)) (h : Moves d i d')
    (hd : d.Consistent) : d'.Consistent := by
  cases h with
  | boot hboot =>
    cases hboot with
    | refused link => exact hd.store
    | reset c link _ _ => exact consistent_idle c.spellsHome_factoryReset link
    | started c n hl hc hv hn hentries htiming =>
      exact hd.of_boots hi (.started c n hl hc hv hn hentries htiming)
  | idle => exact hd
  | cycle hcycle => exact Node.Consistent.cycle hd hcycle
  | @restart n _ shared _ hcycle =>
    have hn : n.Consistent := hd
    show (idle shared.config.store shared.link).Consistent
    rcases hn.of_restart hcycle with ⟨c, hreset⟩ | hsame
    · rw [hreset]
      exact consistent_idle c.spellsHome_factoryReset shared.link
    · obtain ⟨s, hs⟩ := hn.hasOne.exists_runsOn
      have hstanding := hn.standing s hs
      rw [← hsame s] at hstanding
      exact consistent_idle (spellsHome_of_consistent hstanding) shared.link
  | serve hsame => exact Node.SameCore.consistent hsame hd
  | @factoryRestart n => exact consistent_idle n.config.spellsHome_factoryReset n.link

theorem consistent_of_run {inputs : List Input} (h : d.run inputs = some d')
    (hi : ∀ i ∈ inputs, i.Starts (Build.HasOne .minimumNode)) (hd : d.Consistent) :
    d'.Consistent :=
  run_preserves h (fun hi hstep hd => hd.moves hi (moves_of_step hstep)) hi hd

end Device

/-! ## What changes the mode and the number -/

namespace Node

open Device

/-- The second node has the number of the first, and its mode unless the first was in setup. -/
def KeepsIdentity (n n' : Node) : Prop :=
  n'.config.nodeNumber = n.config.nodeNumber ∧
    (n.config.mode ≠ .setup → n'.config.mode = n.config.mode)

/-- The mode, the number and the negotiation of a node fit together, and what changes the mode or
    the number is a negotiation or a factory reset. -/
structure GuardsIdentity (n : Node) : Prop where
  exists_runsOn : ∃ s, n.RunsOn s
  /-- The node remembers a negotiation exactly in setup. -/
  negotiation_isSome_iff : ∀ s, n.RunsOn s → (s.negotiation.isSome ↔ n.config.mode = .setup)
  number_of_uninitialised : n.config.mode = .uninitialised → n.config.nodeNumber = 0
  number_of_normal : n.config.mode = .normal → n.config.nodeNumber ≠ 0
  previousNumber_eq : ∀ s g, n.RunsOn s → s.negotiation = some g →
    g.previousNumber = n.config.nodeNumber
  previousMode_cases : ∀ s g, n.RunsOn s → s.negotiation = some g →
    g.previousMode = .uninitialised ∨ g.previousMode = .normal
  previousMode_iff : ∀ s g, n.RunsOn s → s.negotiation = some g →
    (g.previousMode = .uninitialised ↔ n.config.nodeNumber = 0)
  /-- Another number is one that a message assigns in setup, and the node is in normal mode then. -/
  number_of_step : ∀ i n', (running n).step i = some (running n') →
    n'.config.nodeNumber = n.config.nodeNumber ∨ (∃ b, i = .boot b true) ∨
      ∃ now number, i = .cycle now ∧ n.config.mode = .setup ∧
        Standing.Assigns number n.nextAction.1 ∧ number ≠ 0 ∧
        n'.config.nodeNumber = number ∧ n'.config.mode = .normal
  /-- A node that is not in setup stays in its mode but for an action that opens a negotiation. -/
  mode_of_step : ∀ i n', (running n).step i = some (running n') → n.config.mode ≠ .setup →
    n'.config.mode = n.config.mode ∨ (∃ b, i = .boot b true) ∨
      ∃ now, i = .cycle now ∧ Standing.Opens n.nextAction.1 n.config.nodeNumber n.config.mode
  /-- Where the device loses its node, the next start brings mode and number back, or the store has
      been reset. -/
  boot_of_step : ∀ i store link, (running n).step i = some (idle store link) →
    (∃ c : Configuration, store = c.factoryReset.store) ∨
      ∀ b n', ((idle store link).boot b false).1 = running n' → n.KeepsIdentity n'

variable {n n' : Node}

/-- What a node finds at a start over the store of a consistent one. -/
theorem Consistent.load (hn : n.Consistent) {c : Configuration}
    (hmode : c.storedMode = n.config.storedMode)
    (hnumber : c.storedNumber = n.config.storedNumber) :
    c.load.nodeNumber = n.config.nodeNumber ∧
      c.load.mode = homeMode n.config.nodeNumber := by
  obtain ⟨s, hs⟩ := hn.hasOne.exists_runsOn
  have hstored : n.config.storedNumber = n.config.nodeNumber := (hn.standing s hs).storedNumber
  have hhome := hn.spellsHome
  unfold SpellsHome at hhome
  rw [hstored] at hnumber hhome
  rw [nodeNumber_load, mode_load, hmode, hnumber]
  exact ⟨rfl, hhome⟩

theorem Consistent.mode_eq (hn : n.Consistent) (hm : n.config.mode ≠ .setup) :
    n.config.mode = homeMode n.config.nodeNumber := by
  obtain ⟨s, hs⟩ := hn.hasOne.exists_runsOn
  exact ((hn.standing s hs).of_mode_ne_setup hm).1

theorem Consistent.keepsIdentity_of_boots (hn : n.Consistent) {b : Build} {d : Device}
    (hmode : ∀ c : Configuration, c.store = d.store → c.storedMode = n.config.storedMode)
    (hnumber : ∀ c : Configuration, c.store = d.store → c.storedNumber = n.config.storedNumber)
    (h : Boots b false d (running n')) : n.KeepsIdentity n' := by
  cases h with
  | started c n' _ hc _ hconfig _ _ =>
    have hs : c.store = d.store := by
      rcases hc with hc | ⟨hformat, _⟩
      · exact hc
      · contradiction
    obtain ⟨hload, hloadMode⟩ := hn.load (hmode c hs) (hnumber c hs)
    refine ⟨?_, fun hm => ?_⟩
    · rw [hconfig, hload]
    · rw [hconfig, hloadMode, hn.mode_eq hm]

theorem Consistent.keepsIdentity_of_store (hn : n.Consistent) {b : Build} {d : Device}
    (hs : d.store = n.config.store) (h : Boots b false d (running n')) : n.KeepsIdentity n' :=
  hn.keepsIdentity_of_boots (fun _ hc => storedMode_congr (hc.trans hs))
    (fun _ hc => storedNumber_congr (hc.trans hs)) h

variable {i : Input}

theorem Consistent.number_of_step (hn : n.Consistent)
    (h : (running n).step i = some (running n')) :
    n'.config.nodeNumber = n.config.nodeNumber ∨ (∃ b, i = .boot b true) ∨
      ∃ now number, i = .cycle now ∧ n.config.mode = .setup ∧
        Standing.Assigns number n.nextAction.1 ∧ number ≠ 0 ∧
        n'.config.nodeNumber = number ∧ n'.config.mode = .normal := by
  cases moves_of_step h with
  | @boot _ _ b format hboot =>
    cases format with
    | true => exact Or.inr (Or.inl ⟨b, rfl⟩)
    | false => exact Or.inl (hn.keepsIdentity_of_store rfl hboot).1
  | @cycle _ now o hcycle =>
    by_cases hne : o.node.config.nodeNumber = n.config.nodeNumber
    · exact Or.inl hne
    · obtain ⟨s, s', hs, hs', hpasses⟩ := hn.hasOne.passes hcycle
      obtain ⟨number, hmode, hassigns, hzero, heq⟩ :=
        (hn.standing s hs).settle_of_passes hpasses hne
      refine Or.inr (Or.inr ⟨now, number, rfl, hmode, hassigns, hzero, ?_, ?_⟩)
      · exact congrArg Standing.number heq
      · exact congrArg Standing.mode heq
  | serve hsame =>
    rw [hsame.config]
    exact Or.inl rfl

theorem Consistent.mode_of_step (hn : n.Consistent) (hm : n.config.mode ≠ .setup)
    (h : (running n).step i = some (running n')) :
    n'.config.mode = n.config.mode ∨ (∃ b, i = .boot b true) ∨
      ∃ now, i = .cycle now ∧
        Standing.Opens n.nextAction.1 n.config.nodeNumber n.config.mode := by
  cases moves_of_step h with
  | @boot _ _ b format hboot =>
    cases format with
    | true => exact Or.inr (Or.inl ⟨b, rfl⟩)
    | false => exact Or.inl ((hn.keepsIdentity_of_store rfl hboot).2 hm)
  | @cycle _ now o hcycle =>
    by_cases hne : o.node.config.mode = n.config.mode
    · exact Or.inl hne
    · obtain ⟨s, s', hs, hs', hpasses⟩ := hn.hasOne.passes hcycle
      exact Or.inr (Or.inr ⟨now, rfl, (hn.standing s hs).opens_of_passes hpasses hm hne⟩)
  | serve hsame =>
    rw [hsame.config]
    exact Or.inl rfl

theorem Consistent.boot_of_step (hn : n.Consistent) {store : Store} {link : Link}
    (h : (running n).step i = some (idle store link)) :
    (∃ c : Configuration, store = c.factoryReset.store) ∨
      ∀ b n', ((idle store link).boot b false).1 = running n' → n.KeepsIdentity n' := by
  have hboots : ∀ b n', ((idle store link).boot b false).1 = running n' →
      Boots b false (idle store link) (running n') := by
    intro b n' hn'
    rw [← hn']
    exact boots_boot b false (idle store link)
  have hmoves := moves_of_step h
  generalize hd : idle store link = d at hmoves
  cases hmoves with
  | boot hboot =>
    cases hboot with
    | refused link' =>
      obtain ⟨rfl, rfl⟩ := idle.inj hd
      exact Or.inr fun b n' hn' => hn.keepsIdentity_of_store rfl (hboots b n' hn')
    | reset c link' _ _ => exact Or.inl ⟨c, (idle.inj hd).1⟩
    | started _ _ _ _ _ _ _ _ => contradiction
  | cycle _ => contradiction
  | @restart _ _ shared _ hcycle =>
    obtain ⟨rfl, rfl⟩ := idle.inj hd
    rcases hn.of_restart hcycle with ⟨c, hreset⟩ | hsame
    · exact Or.inl ⟨c, congrArg Configuration.store hreset⟩
    · refine Or.inr fun b n' hn' => ?_
      have hstanding := hsame {}
      refine hn.keepsIdentity_of_boots (fun c hc => ?_) (fun c hc => ?_) (hboots b n' hn')
      · rw [storedMode_congr hc]
        exact congrArg Standing.storedMode hstanding
      · rw [storedNumber_congr hc]
        exact congrArg Standing.storedNumber hstanding
  | serve _ => contradiction
  | factoryRestart => exact Or.inl ⟨n.config, (idle.inj hd).1⟩

theorem Consistent.guardsIdentity (hn : n.Consistent) : n.GuardsIdentity where
  exists_runsOn := hn.hasOne.exists_runsOn
  negotiation_isSome_iff s hs := (hn.standing s hs).negotiation_isSome_iff
  number_of_uninitialised hm := by
    obtain ⟨s, hs⟩ := hn.hasOne.exists_runsOn
    exact (hn.standing s hs).number_of_uninitialised hm
  number_of_normal hm := by
    obtain ⟨s, hs⟩ := hn.hasOne.exists_runsOn
    exact (hn.standing s hs).number_of_normal hm
  previousNumber_eq s _ hs hg := ((hn.standing s hs).of_negotiation hg).2.2
  previousMode_cases s g hs hg := by
    rw [((hn.standing s hs).of_negotiation hg).2.1]
    unfold homeMode
    split_ifs
    · exact Or.inl rfl
    · exact Or.inr rfl
  previousMode_iff s g hs hg := by
    rw [((hn.standing s hs).of_negotiation hg).2.1]
    exact homeMode_eq_uninitialised_iff
  number_of_step _ _ h := hn.number_of_step h
  mode_of_step _ _ h hm := hn.mode_of_step hm h
  boot_of_step _ _ _ h := hn.boot_of_step h

end Node

namespace Device

/-- In every state of every run from a virgin or a reset store, mode, number and negotiation of a
    node fit together, and only a negotiation or a factory reset changes mode or number. -/
theorem guardsIdentity_of_run {c : Configuration} {link : Link} {inputs : List Input} {n : Node}
    (hc : c.isVirgin = true ∨ ∃ e : Configuration, c = e.factoryReset)
    (hstart : ∀ i ∈ inputs, i.Starts (Build.HasOne .minimumNode))
    (h : (idle c.store link).run inputs = some (running n)) : n.GuardsIdentity := by
  have hidle : (idle c.store link).Consistent := by
    rcases hc with hvirgin | ⟨e, rfl⟩
    · exact consistent_virgin hvirgin link
    · exact consistent_idle e.spellsHome_factoryReset link
  exact Node.Consistent.guardsIdentity (consistent_of_run h hstart hidle)

/-- A session in which the node of a small device enters setup. -/
def setupSession : List Input := session [.advanceMode]

theorem guardsIdentity_of_setupSession :
    ∃ n, smallDevice.run setupSession = some (running n) ∧ n.config.mode = .setup ∧
      n.GuardsIdentity := by
  have hrun : ((smallDevice.run setupSession).bind node?).any
      (fun n => n.config.mode == .setup) = true := by
    decide +kernel
  obtain ⟨n, hn, hmode⟩ := exists_running hrun
  exact ⟨n, hn, beq_iff_eq.1 hmode,
    guardsIdentity_of_run (Or.inr ⟨smallConfiguration, rfl⟩)
      (starts_session (hasOne_smallBuild (by decide)) _) hn⟩

end Device

end RailNode
