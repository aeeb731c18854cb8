import RailNode.Proofs.Node.Addressing

/-
  The bus address of a device over its runs. A step resets the store, and the address with it
  (`addressed_of_resets`), or leaves the address in memory and store alike, nobody's or one that a
  node may claim (`Addressed.step`). So an address that a node has claimed outlives every restart
  until the next factory reset, and it stands in every frame that the node offers to the link
  (`ownsAddress_of_run`).
-/
namespace RailNode

open RailNode.Configuration

namespace Device

variable {P Q : BusAddress → Prop} {d d' : Device} {i : Input} {inputs : List Input} {n : Node}

/-- The address in the store is one of these, and the node that runs has it in memory. -/
def Addressed (P : BusAddress → Prop) : Device → Prop
  | idle store _ => ∃ a, P a ∧ store.read busAddressAddress = a.byte
  | running n => n.config.Addressed P

theorem Addressed.store (hd : d.Addressed P) :
    ∃ a, P a ∧ d.store.read busAddressAddress = a.byte := by
  cases d with
  | idle store link => exact hd
  | running n => exact ⟨n.config.address, hd.address, hd.stored⟩

theorem Addressed.mono (hd : d.Addressed P) (hPQ : ∀ a, P a → Q a) : d.Addressed Q := by
  cases d with
  | idle store link =>
    obtain ⟨a, ha, hstored⟩ := hd
    exact ⟨a, hPQ a ha, hstored⟩
  | running n => exact ⟨hPQ _ hd.address, hd.stored⟩

theorem addressed_reset (c : Configuration) (link : Link) :
    (idle c.factoryReset.store link).Addressed (· = .unassigned) :=
  ⟨.unassigned, rfl, c.read_factoryReset_address⟩

/-! ## Factory resets -/

/-- The input resets the store of the device to its factory state. -/
inductive Resets : Device → Input → Prop
  /-- A start that is asked to. -/
  | format {d : Device} {b : Build} : b.layout.error? d.store.capacity = none →
      Resets d (.boot b true)
  /-- A start over a virgin store. -/
  | virgin {d : Device} {b : Build} {c : Configuration} :
      Configuration.ofStore b.layout d.store = .ok c → b.services.length ≤ Node.maxServices →
      c.isVirgin = true → Resets d (.boot b false)
  /-- A cycle that takes an NNRSM message which names the node. -/
  | message {n : Node} {now : Time} {s : Node.Stop} : n.Reaches now s →
      s.Resets (n.facts now) → Resets (running n) (.cycle now)
  /-- The user. -/
  | user {n : Node} : Resets (running n) .factoryRestart

/-- Some input of the run resets the store. -/
def ResetsIn (d : Device) (inputs : List Input) : Prop :=
  ∃ before i after between, inputs = before ++ i :: after ∧ d.run before = some between ∧
    between.Resets i

/-! ## Starts -/

theorem config_of_assemble? {config : Configuration} {link : Link} {info : ModuleInfo}
    {timing : Timing} {services : List Service}
    (h : Node.assemble? config link info timing services = some n) :
    n.config = config ∧ services.length ≤ Node.maxServices := by
  unfold Node.assemble? at h
  split_ifs at h
  exact ⟨congrArg Node.config (Option.some.inj h).symm, by omega⟩

theorem addressed_start {a : BusAddress} (ha : P a)
    (h : n.config.store.read busAddressAddress = a.byte) (hv : n.config.isVirgin = false) :
    (start n).1.Addressed P := by
  unfold start Configuration.start
  rw [hv, if_neg (by decide)]
  exact addressed_load ha h

theorem addressed_of_resets_boot {b : Build} {format : Bool} (hr : d.Resets (.boot b format)) :
    (d.boot b format).1.Addressed (· = .unassigned) := by
  cases hr with
  | virgin hc hs hv =>
    rw [boot_eq_restarted hc hs hv]
    exact addressed_reset _ _
  | format hfits =>
    obtain ⟨c, hc⟩ := Configuration.exists_ofStore hfits
    unfold boot
    rw [hc]
    dsimp only
    rw [if_pos rfl]
    rcases hn : Node.assemble? c.factoryReset d.link b.info b.timing b.services with _ | n
    · exact addressed_reset c d.link
    · obtain ⟨hconfig, _⟩ := config_of_assemble? hn
      refine addressed_start rfl ?_ ?_
      · rw [hconfig, c.read_factoryReset_address]
      · rw [hconfig, isVirgin_of_reset rfl]

theorem Addressed.boot {b : Build} {format : Bool} (hd : d.Addressed P)
    (hr : ¬ d.Resets (.boot b format)) : (d.boot b format).1.Addressed P := by
  unfold Device.boot
  rcases hc : Configuration.ofStore b.layout d.store with e | c
  · exact hd.store
  · have hs := Configuration.store_ofStore hc
    dsimp only
    cases format with
    | true =>
      refine absurd (.format ?_) hr
      rw [← Configuration.layout_ofStore hc, ← hs]
      exact c.fits
    | false =>
      rw [if_neg (by decide)]
      rcases hn : Node.assemble? c d.link b.info b.timing b.services with _ | n
      · show (idle c.store d.link).Addressed P
        rw [hs]
        exact hd.store
      · obtain ⟨hconfig, hfew⟩ := config_of_assemble? hn
        obtain ⟨a, ha, hstored⟩ := hd.store
        refine addressed_start ha ?_ ?_
        · rw [hconfig, hs, hstored]
        · rw [hconfig]
          exact Bool.eq_false_iff.2 fun hv => hr (.virgin hc hfew hv)

/-! ## Steps -/

theorem addressed_of_resets_cycle {now : Time} (h : cycle? now n = some d')
    (hr : (running n).Resets (.cycle now)) : d'.Addressed (· = .unassigned) := by
  cases hr with
  | message hs hresets =>
    unfold cycle? at h
    rw [hs.cycle_eq_error (Node.Stop.turn_of_resets hresets)] at h
    exact Option.some.inj h ▸ addressed_reset _ _

theorem addressed_cycle {now : Time} (hP : BusAddress.Covers P) (h : cycle? now n = some d')
    (hn : n.config.Addressed P) (hr : ¬ (running n).Resets (.cycle now)) : d'.Addressed P := by
  unfold cycle? at h
  split at h
  · rename_i o ho
    obtain ⟨r, hlast, rfl⟩ := Node.cycle_eq_ok ho
    rw [← Option.some.inj h]
    have hend := Node.addressed_turns hP (show n.opening.config.Addressed P from hn) hlast
    exact hend
  · rename_i left trace hrestart
    obtain ⟨s, hs, hturn⟩ := Node.exists_reaches_of_restart hrestart
    rcases s.restart_cases hturn with ⟨_, rfl, _⟩ | ⟨hresets, _⟩
    · have hfound := hs.addressed hP hn
      rw [← Option.some.inj h]
      exact ⟨_, hfound.address, hfound.stored⟩
    · exact absurd (.message hs hresets) hr
  · contradiction

/-- With the store the address is reset. -/
theorem addressed_of_resets (h : d.step i = some d') (hr : d.Resets i) :
    d'.Addressed (· = .unassigned) := by
  cases i with
  | boot b format => exact Option.some.inj h ▸ addressed_of_resets_boot hr
  | cycle now =>
    cases d with
    | idle store link => cases hr
    | running n => exact addressed_of_resets_cycle h hr
  | factoryRestart =>
    cases d with
    | idle store link => cases hr
    | running n => exact Option.some.inj h ▸ addressed_reset n.config n.link
  | _ => cases hr

/-- A step that does not reset the store leaves the address among those that a node may claim and
    those where it was. -/
theorem Addressed.step (hP : BusAddress.Covers P) (h : d.step i = some d') (hd : d.Addressed P)
    (hr : ¬ d.Resets i) : d'.Addressed P := by
  cases i with
  | boot b format => exact Option.some.inj h ▸ hd.boot hr
  | cycle now =>
    cases d with
    | idle store link => exact Option.some.inj h ▸ hd
    | running n => exact addressed_cycle hP h hd hr
  | factoryRestart =>
    cases d with
    | idle store link => exact Option.some.inj h ▸ hd
    | running n => exact absurd .user hr
  | _ =>
    cases moves_of_step h with
    | idle => exact hd
    | @serve n n' _ hsame =>
      show n'.config.Addressed P
      rw [hsame.config]
      exact hd

/-! ## Runs -/

/-- An address that a node may claim stays one in a run until the store is reset. -/
theorem Addressed.run (hP : BusAddress.Covers P)
    (h : d.run inputs = some d') (hd : d.Addressed P) : d'.Addressed P ∨ d.ResetsIn inputs := by
  induction inputs generalizing d with
  | nil =>
    rw [run_nil] at h
    exact Or.inl (Option.some.inj h ▸ hd)
  | cons i inputs ih =>
    rw [run_cons] at h
    obtain ⟨between, hstep, hrest⟩ := Option.bind_eq_some_iff.1 h
    by_cases hr : d.Resets i
    · exact Or.inr ⟨[], i, inputs, d, rfl, rfl, hr⟩
    · have hlater := ih hrest (hd.step hP hstep hr)
      rcases hlater with hlast | ⟨before, j, after, last, rfl, hbefore, hreset⟩
      · exact Or.inl hlast
      · refine Or.inr ⟨i :: before, j, after, last, rfl, ?_, hreset⟩
        rw [run_cons, hstep]
        exact hbefore

/-- No node runs, and the store looks as if it had never been written. -/
def IsVirgin (d : Device) : Prop :=
  d.node? = none ∧ ∀ c : Configuration, c.store = d.store → c.isVirgin = true

/-- Until it is reset, a virgin store stays virgin. -/
theorem IsVirgin.step (h : d.step i = some d') (hd : d.IsVirgin) :
    d'.IsVirgin ∨ d'.Addressed (· = .unassigned) := by
  cases moves_of_step h with
  | idle => exact Or.inl hd
  | boot hboot =>
    cases hboot with
    | refused link => exact Or.inl ⟨rfl, hd.2⟩
    | reset c link _ _ => exact Or.inr (addressed_reset c link)
    | started c n _ hc hv hn _ _ =>
      rcases hc with hc | ⟨_, e, rfl⟩
      · rw [hd.2 c hc] at hv
        contradiction
      · refine Or.inr ?_
        show n.config.Addressed _
        rw [hn]
        exact addressed_load rfl e.read_factoryReset_address
  | _ => exact absurd hd.1 (Option.some_ne_none _)

/-- From a virgin store or a reset one the address is always nobody's, or one that a node may
    claim. -/
theorem proper_of_run (h : d.run inputs = some d')
    (hd : d.IsVirgin ∨ d.Addressed BusAddress.IsProper) :
    d'.IsVirgin ∨ d'.Addressed BusAddress.IsProper := by
  have hreset : ∀ {d : Device}, d.Addressed (· = .unassigned) → d.Addressed BusAddress.IsProper :=
    fun hd => hd.mono fun _ ha => Or.inl ha
  refine run_preserves (P := fun d => d.IsVirgin ∨ d.Addressed BusAddress.IsProper)
    (Q := fun _ => True) h (fun {d d' i} _ hstep hd => ?_) (fun _ _ => trivial) hd
  rcases hd with hd | hd
  · exact (hd.step hstep).imp_right hreset
  · by_cases hr : d.Resets i
    · exact Or.inr (hreset (addressed_of_resets hstep hr))
    · exact Or.inr (hd.step BusAddress.covers_isProper hstep hr)

theorem proper_idle {c : Configuration}
    (hc : c.isVirgin = true ∨ ∃ e : Configuration, c = e.factoryReset) (link : Link) :
    (idle c.store link).IsVirgin ∨ (idle c.store link).Addressed BusAddress.IsProper := by
  rcases hc with hv | ⟨e, rfl⟩
  · refine Or.inl ⟨rfl, fun d hs => ?_⟩
    rw [isVirgin_eq, storedMode_congr hs, storedNumber_congr hs, ← isVirgin_eq, hv]
  · exact Or.inr ((addressed_reset e link).mono fun _ ha => Or.inl ha)

/-! ## The link -/

theorem mem_outgoing_start {f : Frame} (hf : f ∈ (start n).1.link.outgoing.items) :
    f ∈ n.link.outgoing.items := by
  unfold start at hf
  rcases hstart : n.config.start with config | config
  · rw [hstart] at hf
    exact absurd hf List.not_mem_nil
  · rw [hstart] at hf
    exact hf

theorem mem_outgoing_boot {b : Build} {format : Bool} {f : Frame}
    (hf : f ∈ (d.boot b format).1.link.outgoing.items) : f ∈ d.link.outgoing.items := by
  unfold boot at hf
  split at hf
  · exact hf
  · rename_i c _
    dsimp only at hf
    generalize (if format then c.factoryReset else c) = config at hf
    unfold Node.assemble? at hf
    split_ifs at hf
    · exact hf
    · have hnode := mem_outgoing_start hf
      exact hnode

/-- What a step has left in the link was there before, or a cycle has offered it. -/
theorem mem_outgoing_step (h : (running n).step i = some d) {f : Frame}
    (hf : f ∈ d.link.outgoing.items) :
    f ∈ n.link.outgoing.items ∨ ∃ now, i = .cycle now ∧ n.Offers now f := by
  cases i with
  | boot b format =>
    rw [← Option.some.inj h] at hf
    exact Or.inl (mem_outgoing_boot hf)
  | cycle now =>
    have hcycle : cycle? now n = some d := h
    unfold cycle? at hcycle
    split at hcycle
    · rename_i o ho
      rw [← Option.some.inj hcycle] at hf
      exact (Node.mem_outgoing_cycle ho hf).imp_right fun hoffers => ⟨now, rfl, hoffers⟩
    · rename_i left trace hrestart
      rw [← Option.some.inj hcycle] at hf
      exact (Node.mem_outgoing_restart hrestart hf).imp_right fun hoffers => ⟨now, rfl, hoffers⟩
    · contradiction
  | deliver g =>
    rw [← Option.some.inj h] at hf
    unfold deliver? Link.deliver? at hf
    rcases hsend : (running n).link.received.send? g with _ | channel
    · rw [hsend] at hf
      exact Or.inl hf
    · rw [hsend] at hf
      exact Or.inl hf
  | collect =>
    rw [← Option.some.inj h] at hf
    exact absurd hf List.not_mem_nil
  | ask r =>
    have hlink : (running (n.serve r)).link = n.link := (n.queue_serve r).2
    rw [← Option.some.inj h, hlink] at hf
    exact Or.inl hf
  | factoryRestart =>
    rw [← Option.some.inj h] at hf
    exact Or.inl hf

/-! ## The address of a node -/

/-- What becomes of the bus address of a node, and where it stands. -/
structure OwnsAddress (n : Node) : Prop where
  /-- Memory and store hold the same address: nobody's, or one that a node may claim. -/
  proper : n.config.Addressed BusAddress.IsProper
  /-- A node that has claimed an address has one until the store is reset, over any restarts. -/
  lasts : n.config.address ≠ .unassigned → ∀ {later d}, (running n).run later = some d →
    d.Addressed (· ≠ .unassigned) ∨ (running n).ResetsIn later
  lost : ∀ {i d}, (running n).step i = some d → (running n).Resets i →
    d.Addressed (· = .unassigned)
  /-- Frames come into the link in the cycles only, and nothing comes that was not offered. -/
  handed : ∀ {i d f}, (running n).step i = some d → f ∈ d.link.outgoing.items →
    f ∈ n.link.outgoing.items ∨ ∃ now, i = .cycle now ∧ n.Offers now f
  /-- What is offered carries the address of its moment. -/
  signed : ∀ {now s x}, n.Reaches now s → x ∈ (s.trace (n.facts now)).offered →
    x.Signed BusAddress.IsProper ∧ s.Gives (n.facts now) x

theorem ownsAddress_of_addressed (hn : n.config.Addressed BusAddress.IsProper) :
    OwnsAddress n where
  proper := hn
  lasts hassigned _ _ hrun :=
    Addressed.run BusAddress.covers_ne_unassigned hrun ⟨hassigned, hn.stored⟩
  lost hstep hreset := addressed_of_resets hstep hreset
  handed hstep hf := mem_outgoing_step hstep hf
  signed hs hx :=
    Node.Stop.signed_of_offered BusAddress.covers_isProper
      (hs.addressed BusAddress.covers_isProper hn) hx

/-- In every run from a virgin store or one that a factory reset has left, over any restarts and
    with any services, a node owns its address. -/
theorem ownsAddress_of_run {c : Configuration} {link : Link}
    (hc : c.isVirgin = true ∨ ∃ e : Configuration, c = e.factoryReset)
    (h : (idle c.store link).run inputs = some (running n)) : OwnsAddress n := by
  rcases proper_of_run h (proper_idle hc link) with hvirgin | hproper
  · exact absurd hvirgin.1 (Option.some_ne_none n)
  · exact ownsAddress_of_addressed hproper

/-- A session in which the node of a small device claims an address. Then a request for addresses
    comes in, and a message is to be sent. -/
def addressSession : List Input :=
  [.boot smallBuild false, .ask (.put (.searchAddress false)), .cycle 0, .collect,
    .cycle (.milliseconds 100), .deliver (.addressRequest .highest),
    .ask (.put (.transmit (.addressed Opcode.rqnn.byte 0 [])))]

/-- The node sends the message and answers the request under the lowest address. -/
theorem ownsAddress_of_addressSession :
    ∃ n, smallDevice.run addressSession = some (running n) ∧ OwnsAddress n ∧
      n.config.address = 1 ∧
      ∀ f ∈ [Frame.message 1 (.addressed Opcode.rqnn.byte 0 []), .addressAnswer 1],
        n.Offers (.milliseconds 100) f := by
  have hrun : ((smallDevice.run addressSession).bind node?).any (fun n =>
      n.config.address == 1 && (n.cycle (.milliseconds 100)).toOption.any fun o =>
        [Frame.message 1 (.addressed Opcode.rqnn.byte 0 []), .addressAnswer 1].all fun f =>
          o.traces.any fun t => t.offered.any fun x => x.item == f) = true := by
    decide +kernel
  obtain ⟨n, hn, h⟩ := exists_running hrun
  rw [Bool.and_eq_true, beq_iff_eq] at h
  obtain ⟨haddress, hcycle⟩ := h
  refine ⟨n, hn, ownsAddress_of_run (Or.inr ⟨smallConfiguration, rfl⟩) hn, haddress,
    fun f hf => ?_⟩
  obtain ⟨o, ho, hall⟩ := Option.any_eq_true _ _ |>.1 hcycle
  obtain ⟨t, ht, hoffered⟩ := List.any_eq_true.1 (List.all_eq_true.1 hall f hf)
  obtain ⟨x, hx, hitem⟩ := List.any_eq_true.1 hoffered
  obtain ⟨s, hs, rfl⟩ := Node.exists_reaches_of_cycle (toOption_eq_some_iff.1 ho) ht
  exact ⟨s, x, hs, hx, beq_iff_eq.1 hitem⟩

end Device

end RailNode
