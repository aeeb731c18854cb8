import RailNode.Proofs.Device.EventIndex
import RailNode.Proofs.Device.Identity

/-
  A device that loses its node between two cycles and starts another over the same store. The new
  node has what the old one had; if the old one was in setup, the new one is where the old one
  would have been after giving its negotiation up.
-/
namespace RailNode

namespace Node

/-- What a turn of a service of the node would begin with between two cycles. -/
def turnOf (s : MinimumNode) (n : Node) : Turn MinimumNode where
  self := s
  shared := { config := n.config, link := n.link, queue := n.queue }

/-- The second node has what the first had, except that it does not learn and that a negotiation
    has been given up. -/
structure RestoredBy (n n' : Node) : Prop where
  nodeVariable?_eq : ∀ index, n'.config.nodeVariable? index = n.config.nodeVariable? index
  event_eq : ∀ slot, n'.config.event slot = n.config.event slot
  eventVariable_eq : ∀ slot index,
    n'.config.eventVariable slot index = n.config.eventVariable slot index
  index_eq : n'.config.index.toList = n.config.index.toList
  address_eq : n'.config.address = n.config.address
  flags_eq : n'.config.flags = n.config.flags
  learning_eq : n'.config.learning = false
  mode_eq : n.config.mode ≠ .setup → n'.config.mode = n.config.mode
  number_eq : n.config.mode ≠ .setup → n'.config.nodeNumber = n.config.nodeNumber
  /-- In setup, mode and number are those after `cancelNegotiation`. -/
  cancelled : n.config.mode = .setup → ∀ s, n.RunsOn s →
    n'.config.mode = (MinimumNode.cancelNegotiation (n.turnOf s)).config.mode ∧
      n'.config.nodeNumber = (MinimumNode.cancelNegotiation (n.turnOf s)).config.nodeNumber

variable {n n' : Node}

/-- Giving a negotiation up leads to the home mode of the number. -/
theorem Consistent.cancelNegotiation (hn : n.Consistent) (hm : n.config.mode = .setup)
    {s : MinimumNode} (hs : n.RunsOn s) :
    (MinimumNode.cancelNegotiation (n.turnOf s)).config.mode = homeMode n.config.nodeNumber ∧
      (MinimumNode.cancelNegotiation (n.turnOf s)).config.nodeNumber = n.config.nodeNumber := by
  have hx := hn.standing s hs
  obtain ⟨g, hg⟩ := Option.isSome_iff_exists.1 (hx.negotiation_isSome_iff.2 hm)
  have hcancel := MinimumNode.standing_cancelNegotiation (t := n.turnOf s) hg
  have hleave := hx.leave_eq hg
  have hend := hcancel.trans hleave
  exact ⟨congrArg Standing.mode hend, congrArg Standing.number hend⟩

/-- What a start reads from the store of a running node. -/
theorem Consistent.restoredBy (hn : n.Consistent) (hindex : n.config.IndexAgrees)
    (hmirrors : n.config.Mirrors) {c : Configuration} (hl : c.layout = n.config.layout)
    (hs : c.store = n.config.store) (hload : n'.config = c.load) : n.RestoredBy n' := by
  have hl' : n'.config.layout = n.config.layout := by rw [hload, c.layout_load, hl]
  have hs' : n'.config.store = n.config.store := by rw [hload, c.store_load, hs]
  obtain ⟨hnumber, hmode⟩ :=
    hn.load (Configuration.storedMode_congr hs) (Configuration.storedNumber_congr hs)
  rw [← hload] at hnumber hmode
  constructor
  case nodeVariable?_eq => exact Configuration.nodeVariable?_congr_store hl' hs'
  case event_eq => exact Configuration.event_congr_store hl' hs'
  case eventVariable_eq => exact Configuration.eventVariable_congr_store hl' hs'
  case index_eq =>
    have hagrees : n'.config.IndexAgrees := by
      rw [hload]
      exact c.indexAgrees_load
    rw [hagrees.toList_index, hindex.toList_index, hl']
    exact List.map_congr_left fun slot _ =>
      Configuration.indexEntry_congr (Configuration.record?_congr_store hl' hs' slot)
  case address_eq => rw [hload, c.address_load, hs, hmirrors.address]
  case flags_eq => rw [hload, c.flags_load, hs, hmirrors.flags]
  case learning_eq => rw [hload, c.learning_load]
  case mode_eq =>
    intro hm
    rw [hmode, hn.mode_eq hm]
  case number_eq => exact fun _ => hnumber
  case cancelled =>
    intro hm s hs
    obtain ⟨hcancelMode, hcancelNumber⟩ := hn.cancelNegotiation hm hs
    rw [hcancelMode, hcancelNumber]
    exact ⟨hmode, hnumber⟩

end Node

namespace Device

/-- A device starts its node unless the layout does not fit its store, the store is virgin or there
    are too many services. -/
theorem boot_eq_started {b : Build} {d : Device} (hl : b.layout.error? d.store.capacity = none)
    (hs : b.services.length ≤ Node.maxServices)
    (hv : ∀ c : Configuration, c.store = d.store → c.isVirgin = false) :
    ∃ (c : Configuration) (n : Node) (services : List ServiceInfo),
      d.boot b false = (running n, .started services) ∧ c.layout = b.layout ∧
        c.store = d.store ∧ n.config = c.load := by
  obtain ⟨c, hc⟩ := Configuration.exists_ofStore hl
  have hstore := Configuration.store_ofStore hc
  unfold boot
  rw [hc]
  dsimp only
  rw [if_neg (by decide), Node.assemble?, if_neg (by omega)]
  dsimp only
  unfold start Configuration.start
  dsimp only
  rw [hv c hstore, if_neg (by decide)]
  exact ⟨c, _, _, rfl, Configuration.layout_ofStore hc, hstore, rfl⟩

theorem mirrors_of_run {store : Store} {link : Link} {inputs : List Input} {n : Node}
    (h : (idle store link).run inputs = some (running n)) : n.config.Mirrors :=
  config_of_run Configuration.mirrors_load
    (fun hedits hc => hedits.preserves (fun hstep hP => hP.edit hstep) hc) h
    (fun _ hidle => Device.noConfusion hidle) n rfl

/-- In every state of every run from a reset store, a start over the store of the node succeeds and
    brings back what the node had. -/
theorem restoredBy_of_run {c : Configuration} {link : Link} {inputs : List Input} {n : Node}
    {b : Build} (hstart : ∀ i ∈ inputs, i.Starts (Build.HasOne .minimumNode))
    (h : (idle c.factoryReset.store link).run inputs = some (running n))
    (hl : b.layout = n.config.layout) (hs : b.services.length ≤ Node.maxServices) :
    ∃ n' services, (running n).boot b false = (running n', .started services) ∧
      n.RestoredBy n' := by
  have hidle := consistent_idle c.spellsHome_factoryReset link
  have hn : n.Consistent := consistent_of_run h hstart hidle
  have hfits : b.layout.error? (running n).store.capacity = none := by
    rw [hl]
    exact n.config.fits
  have hv : ∀ e : Configuration, e.store = n.config.store → e.isVirgin = false := by
    intro e he
    exact (hn.spellsHome.congr he).isVirgin
  obtain ⟨e, n', services, hboot, hlayout, hstore, hload⟩ := boot_eq_started hfits hs hv
  refine ⟨n', services, hboot, ?_⟩
  exact hn.restoredBy (indexAgrees_of_run h) (mirrors_of_run h) (hlayout.trans hl) hstore hload

/-- A session in which the node of a small device gets the number 65535. -/
def numberSession : List Input :=
  session [.advanceMode, .received (.addressed Opcode.snn.byte 0xffff [])]

theorem restoredBy_of_numberSession :
    ∃ n, smallDevice.run numberSession = some (running n) ∧ n.config.nodeNumber = 0xffff ∧
      ∃ n' services, (running n).boot smallBuild false = (running n', .started services) ∧
        n.RestoredBy n' := by
  have hrun : ((smallDevice.run numberSession).bind node?).any
      (fun n => n.config.nodeNumber == 0xffff && smallBuild.layout == n.config.layout) = true := by
    decide +kernel
  obtain ⟨n, hn, h⟩ := exists_running hrun
  obtain ⟨hnumber, hlayout⟩ := Bool.and_eq_true_iff.1 h
  exact ⟨n, hn, beq_iff_eq.1 hnumber,
    restoredBy_of_run (starts_session (hasOne_smallBuild (by decide)) _) hn
      (beq_iff_eq.1 hlayout) (by decide)⟩

end Device

end RailNode
