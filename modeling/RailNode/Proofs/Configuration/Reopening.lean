import RailNode.Proofs.Configuration.Assignments
import RailNode.Proofs.Configuration.FactoryReset
import RailNode.Proofs.Service.Standing

/-
  A configuration that is opened again over its own store. What is set of the identity goes to
  memory and store alike, so the next start brings back what the old configuration reported
  (`reopens`). Only the mode may come back as another one: a start reads the byte of setup as the
  mode that the number implies, and leaves that byte in the store until the mode is written again
  (`LeavesSetup`).
-/
namespace RailNode.Configuration

variable {c d e : Configuration}

/-! ## Operations -/

/-- What anyone may do to a configuration. -/
inductive Operation where
  | call (k : Call)
  | factoryReset
deriving DecidableEq, Repr

namespace Operation

/-- The configuration after an operation; a call that fails changes nothing. -/
def run (c : Configuration) : Operation → Configuration
  | .call k => c.afterCall k
  | .factoryReset => c.factoryReset

/-- A node variable is written under an index that it has. -/
def IsProper (l : Layout) : Operation → Prop
  | .call k => k.IsProper l
  | .factoryReset => True

/-- Whether the operation writes the mode. -/
def setsMode : Operation → Bool
  | .call (.setMode _) | .factoryReset => true
  | _ => false

theorem layout_run {op : Operation} (h : op.IsProper c.layout) : (op.run c).layout = c.layout := by
  cases op with
  | call k =>
    show (c.afterCall k).layout = c.layout
    exact layout_afterCall h
  | factoryReset => exact c.layout_factoryReset

end Operation

/-- The configuration after several operations. -/
def operate (c : Configuration) (ops : List Operation) : Configuration := ops.foldl Operation.run c

/-- What every proper operation keeps holds after all of them. -/
theorem operate_induction {P : Configuration → Prop} {ops : List Operation}
    (hstep : ∀ {c : Configuration} {op : Operation}, op.IsProper c.layout → P c → P (op.run c))
    (hops : ∀ op ∈ ops, op.IsProper c.layout) (hc : P c) : P (c.operate ops) := by
  induction ops generalizing c with
  | nil => exact hc
  | cons op ops ih =>
    rw [List.forall_mem_cons] at hops
    have hl := Operation.layout_run hops.1
    exact ih (fun op' h => hl ▸ hops.2 op' h) (hstep hops.1 hc)

theorem layout_operate {ops : List Operation} (hops : ∀ op ∈ ops, op.IsProper c.layout) :
    (c.operate ops).layout = c.layout :=
  operate_induction (P := fun d => d.layout = c.layout)
    (fun hop hd => (Operation.layout_run hop).trans hd) hops rfl

/-! ## Number, address and flags -/

/-- Number, address and flags in memory are those that a start would read from the store. -/
structure WritesThrough (c : Configuration) : Prop where
  mirrors : c.Mirrors
  nodeNumber : c.storedNumber = c.nodeNumber

theorem mirrors_factoryReset (c : Configuration) : c.factoryReset.Mirrors where
  address := by
    rw [c.read_factoryReset_address, c.address_factoryReset, BusAddress.truncate_byte]
  flags := by rw [c.read_factoryReset_flags, c.flags_factoryReset]

namespace WritesThrough

theorem load (c : Configuration) : c.load.WritesThrough where
  mirrors := c.mirrors_load
  nodeNumber := by rw [storedNumber_congr c.store_load, c.nodeNumber_load]

theorem of_changesOnly {A : List Part} (hc : c.WritesThrough) (h : ChangesOnly A c d)
    (hA : .address ∉ A ∧ .flags ∉ A ∧ .number ∉ A) : d.WritesThrough where
  mirrors := hc.mirrors.of_changesOnly h ⟨hA.1, hA.2.1⟩
  nodeNumber := by rw [h.storedNumber hA.2.2, h.nodeNumber hA.2.2, hc.nodeNumber]

theorem setNodeNumber (hc : c.WritesThrough) (w : UInt16) : (c.setNodeNumber w).WritesThrough where
  mirrors := hc.mirrors.of_changesOnly (c.changesOnly_setNodeNumber w) (by decide)
  nodeNumber := c.storedNumber_setNodeNumber w

theorem setAddress (hc : c.WritesThrough) (a : BusAddress) : (c.setAddress a).WritesThrough where
  mirrors := hc.mirrors.setAddress a
  nodeNumber := by
    have hch := c.changesOnly_setAddress a
    rw [hch.storedNumber (by decide), hch.nodeNumber (by decide), hc.nodeNumber]

theorem setFlags (hc : c.WritesThrough) (f : UInt8) : (c.setFlags f).WritesThrough where
  mirrors := hc.mirrors.setFlags f
  nodeNumber := by
    have hch := c.changesOnly_setFlags f
    rw [hch.storedNumber (by decide), hch.nodeNumber (by decide), hc.nodeNumber]

theorem call (hc : c.WritesThrough) {call : Call} (hcall : call.IsProper c.layout)
    (h : call.run c = .ok d) : d.WritesThrough := by
  have hch := Call.changesOnly_run hcall h
  cases call with
  | setNodeNumber w => exact Except.ok.inj h ▸ hc.setNodeNumber w
  | setAddress a => exact Except.ok.inj h ▸ hc.setAddress a
  | setHeartbeat on => exact Except.ok.inj h ▸ hc.setFlags _
  | setAcknowledge on => exact Except.ok.inj h ▸ hc.setFlags _
  | _ => exact hc.of_changesOnly hch (by simp [Call.parts])

theorem run (hc : c.WritesThrough) {op : Operation} (hop : op.IsProper c.layout) :
    (op.run c).WritesThrough := by
  cases op with
  | call k =>
    show (c.afterCall k).WritesThrough
    rcases afterCall_cases c k with ⟨d, hrun, hd, _⟩ | ⟨hd, _⟩
    · rw [hd]
      exact hc.call hop hrun
    · rw [hd]
      exact hc
  | factoryReset =>
    refine ⟨c.mirrors_factoryReset, ?_⟩
    show c.factoryReset.storedNumber = c.factoryReset.nodeNumber
    rw [c.storedNumber_factoryReset, c.nodeNumber_factoryReset]

end WritesThrough

/-! ## The mode -/

/-- The store spells the mode that is in memory. -/
def SpellsMode (c : Configuration) : Prop := c.storedMode = c.mode.byte

theorem spellsMode_run {op : Operation} (h : op.setsMode = true) : (op.run c).SpellsMode := by
  cases op with
  | factoryReset =>
    show c.factoryReset.storedMode = c.factoryReset.mode.byte
    rw [c.storedMode_factoryReset, c.mode_factoryReset]
    rfl
  | call k =>
    cases k with
    | setMode m => exact c.storedMode_setMode m
    | _ => exact absurd h (by simp [Operation.setsMode])

/-- Mode and stored mode are as they were. -/
def SameMode (c d : Configuration) : Prop := d.mode = c.mode ∧ d.storedMode = c.storedMode

theorem sameMode_run {op : Operation} (hop : op.IsProper c.layout) (h : op.setsMode = false) :
    c.SameMode (op.run c) := by
  cases op with
  | factoryReset => exact absurd h (by decide)
  | call k =>
    have hparts : Part.mode ∉ k.parts := by
      cases k with
      | setMode m => exact absurd h (by simp [Operation.setsMode])
      | _ => simp [Call.parts]
    show c.SameMode (c.afterCall k)
    rcases afterCall_cases c k with ⟨d, hrun, hd, _⟩ | ⟨hd, _⟩
    · have hch := Call.changesOnly_run hop hrun
      rw [hd]
      exact ⟨hch.mode hparts, hch.storedMode hparts⟩
    · rw [hd]
      exact ⟨rfl, rfl⟩

/-- Either an operation has written the mode, and then the store spells it, or the mode is as it
    was. -/
theorem mode_operate {ops : List Operation} (hops : ∀ op ∈ ops, op.IsProper c.layout) :
    (∃ op ∈ ops, op.setsMode = true) ∧ (c.operate ops).SpellsMode ∨
      (∀ op ∈ ops, op.setsMode = false) ∧ c.SameMode (c.operate ops) := by
  induction ops using List.reverseRecOn with
  | nil => exact Or.inr ⟨fun _ h => absurd h List.not_mem_nil, rfl, rfl⟩
  | append_singleton ops op ih =>
    have hbefore : ∀ op' ∈ ops, op'.IsProper c.layout := fun op' h =>
      hops op' (List.mem_append_left _ h)
    have hop : op.IsProper (c.operate ops).layout := by
      rw [layout_operate hbefore]
      exact hops op (List.mem_append_right _ (List.mem_singleton_self op))
    have hlast : c.operate (ops ++ [op]) = op.run (c.operate ops) := List.foldl_concat ..
    rw [hlast]
    cases hset : op.setsMode with
    | true =>
      have hmem : op ∈ ops ++ [op] := List.mem_append_right _ (List.mem_singleton_self op)
      exact Or.inl ⟨⟨op, hmem, hset⟩, spellsMode_run hset⟩
    | false =>
      obtain ⟨hmode, hstored⟩ := sameMode_run hop hset
      rcases ih hbefore with ⟨⟨op', hmem, hset'⟩, hspells⟩ | ⟨hnone, hsame⟩
      · refine Or.inl ⟨⟨op', List.mem_append_left _ hmem, hset'⟩, ?_⟩
        rw [SpellsMode, hmode, hstored, hspells]
      · refine Or.inr ⟨fun op' h => ?_, hmode.trans hsame.1, hstored.trans hsame.2⟩
        rcases List.mem_append.1 h with h | h
        · exact hnone op' h
        · rw [List.mem_singleton.1 h, hset]

/-- A mode other than setup is read back from its own byte, whatever the number is. -/
theorem startMode_byte {m : Mode} (hm : m ≠ .setup) (number : UInt16) :
    startMode m.byte number = m := by
  cases m with
  | setup => exact absurd rfl hm
  | _ => rfl

/-- The number counts for a stored setup byte only. -/
theorem startMode_congr {b : UInt8} (hb : b ≠ Mode.setup.byte) (m n : UInt16) :
    startMode b m = startMode b n := by
  have hsetup : Mode.ofByte? b ≠ some .setup := by
    unfold Mode.ofByte?
    split_ifs with h1 h2 h3
    · decide
    · exact absurd h2 hb
    · decide
    · decide
  unfold startMode
  split
  · rfl
  · rename_i h
    exact absurd h hsetup
  · rfl

/-! ## Opening the store again -/

/-- The start has found the byte of setup in the store, and the operations have left it there. -/
def LeavesSetup (c : Configuration) (ops : List Operation) : Prop :=
  c.storedMode = Mode.setup.byte ∧ ∀ op ∈ ops, op.setsMode = false

/-- How the mode `m` that a start reads relates to the mode of `d`, where `d` has come from a start
    over `c` and these operations. -/
structure ModeReturns (c : Configuration) (ops : List Operation) (d : Configuration) (m : Mode) :
    Prop where
  eq : d.mode ≠ .setup → ¬ LeavesSetup c ops → m = d.mode
  eq_home : d.mode = .setup ∨ LeavesSetup c ops → m = homeMode d.nodeNumber
  /-- What the start made of the setup byte is the mode that the number implied then. -/
  of_leavesSetup : LeavesSetup c ops → d.mode = homeMode c.storedNumber

/-- What a start over the store of `d` brings back in `e`, where `d` has come from a start over `c`
    and these operations. -/
structure Reopens (c : Configuration) (ops : List Operation) (d e : Configuration) : Prop where
  nodeNumber : e.nodeNumber = d.nodeNumber
  address : e.address = d.address
  heartbeat : e.heartbeat = d.heartbeat
  acknowledge : e.acknowledge = d.acknowledge
  nodeVariable? : ∀ index, e.nodeVariable? index = d.nodeVariable? index
  mode : ModeReturns c ops d e.mode

theorem modeReturns {ops : List Operation} (hops : ∀ op ∈ ops, op.IsProper c.layout)
    (hd : c.load.operate ops = d) :
    ModeReturns c ops d (startMode d.storedMode d.nodeNumber) := by
  subst hd
  rcases mode_operate (c := c.load) (c.layout_load.symm ▸ hops) with
    ⟨⟨op, hmem, hset⟩, hspells⟩ | ⟨hnone, hmode, hstored⟩
  case inl =>
    have hleaves : ¬ LeavesSetup c ops := by
      rintro ⟨_, hnone⟩
      rw [hnone op hmem] at hset
      contradiction
    rw [SpellsMode] at hspells
    refine ⟨fun hm _ => ?_, fun h => ?_, fun h => absurd h hleaves⟩
    · rw [hspells, startMode_byte hm]
    · rw [hspells, h.resolve_right hleaves, startMode_setup]
  case inr =>
    rw [c.mode_load] at hmode
    rw [storedMode_congr c.store_load] at hstored
    refine ⟨fun _ hleaves => ?_, fun h => ?_, fun h => ?_⟩
    · rw [hmode, hstored]
      exact startMode_congr (fun hsetup => hleaves ⟨hsetup, hnone⟩) _ _
    · have hne : (c.load.operate ops).mode ≠ .setup := hmode ▸ startMode_ne_setup _ _
      obtain ⟨hsetup, _⟩ := h.resolve_left hne
      rw [hstored, hsetup, startMode_setup]
    · rw [hmode, h.1, startMode_setup]

theorem reopens_load {ops : List Operation} (hops : ∀ op ∈ ops, op.IsProper c.layout)
    (hd : c.load.operate ops = d) (hl : e.layout = d.layout) (hs : e.store = d.store) :
    Reopens c ops d e.load := by
  have hproper : ∀ op ∈ ops, op.IsProper c.load.layout := c.layout_load.symm ▸ hops
  have hwrites : d.WritesThrough :=
    hd ▸ operate_induction (fun hop hc => hc.run hop) hproper (WritesThrough.load c)
  have hnumber : e.storedNumber = d.nodeNumber := by
    rw [storedNumber_congr hs, hwrites.nodeNumber]
  have hflags : e.load.flags = d.flags := by rw [e.flags_load, hs, hwrites.mirrors.flags]
  refine ⟨?number, ?address, ?heartbeat, ?acknowledge, ?nodeVariable, ?mode⟩
  case number => rw [e.nodeNumber_load, hnumber]
  case address => rw [e.address_load, hs, hwrites.mirrors.address]
  case heartbeat => rw [heartbeat, heartbeat, hflags]
  case acknowledge => rw [acknowledge, acknowledge, hflags]
  case nodeVariable =>
    exact nodeVariable?_congr_store (e.layout_load.trans hl) (e.store_load.trans hs)
  case mode =>
    rw [e.mode_load, storedMode_congr hs, hnumber]
    exact modeReturns hops hd

/-- After a start and any operations, a configuration that is opened over the same store starts
    with what the old one reports, unless the store looks virgin. A start between the operations is
    covered too, since `c` may hold anything in memory. -/
theorem reopens {ops : List Operation} (hstart : c.start = .ready d)
    (hops : ∀ op ∈ ops, op.IsProper c.layout) (hv : (d.operate ops).isVirgin = false) :
    ∃ f e, ofStore c.layout (d.operate ops).store = .ok f ∧ f.start = .ready e ∧
      Reopens c ops (d.operate ops) e := by
  have hd : c.load = d := by
    unfold start at hstart
    split at hstart
    · exact Start.noConfusion hstart
    · exact Start.ready.inj hstart
  have hlayout : (d.operate ops).layout = c.layout := by
    rw [← hd, layout_operate (c.layout_load.symm ▸ hops), c.layout_load]
  obtain ⟨f, hf⟩ := exists_ofStore (l := c.layout) (s := (d.operate ops).store)
    (hlayout ▸ (d.operate ops).fits)
  have hl : f.layout = (d.operate ops).layout := (layout_ofStore hf).trans hlayout.symm
  have hs := store_ofStore hf
  have hvirgin : f.isVirgin = false := by
    rw [isVirgin_eq, storedMode_congr hs, storedNumber_congr hs, ← isVirgin_eq, hv]
  refine ⟨f, f.load, hf, ?_, reopens_load hops (hd ▸ rfl) hl hs⟩
  rw [start, hvirgin, if_neg (by decide)]

/-- A node with the number 300 whose negotiation was cut short. -/
def interrupted : Configuration where
  layout := .compact 1 0 0
  store := (Store.blank 16 .block).writeBytes 0 [Mode.setup.byte, 5, 0x01, 0x2c, 0x01, 0, 9]
  mode := .uninitialised
  nodeNumber := 0
  address := .unassigned
  flags := 0
  learning := false
  index := Vector.replicate _ 0
  fits := by decide

theorem start_interrupted : interrupted.start = .ready interrupted.load := by
  have hvirgin : interrupted.isVirgin = false := by decide
  rw [start, hvirgin, if_neg (by decide)]

/-- The acknowledgement is switched on and a node variable written; the next start brings back
    both, and normal mode with the number 300. -/
theorem reopens_interrupted :
    ∃ f e, ofStore interrupted.layout (interrupted.load.operate
        [.call (.setAcknowledge true), .call (.setNodeVariable 1 7)]).store = .ok f ∧
      f.start = .ready e ∧ e.nodeNumber = 300 ∧ e.mode = .normal ∧ e.acknowledge = true ∧
      e.nodeVariable? 1 = some 7 := by
  have hops : ∀ op ∈ [Operation.call (.setAcknowledge true), .call (.setNodeVariable 1 7)],
      op.IsProper interrupted.layout := by
    intro op hop
    simp only [List.mem_cons, List.not_mem_nil, or_false] at hop
    rcases hop with rfl | rfl
    · trivial
    · exact ⟨by decide, by decide⟩
  obtain ⟨f, e, hf, he, hreopens⟩ := reopens start_interrupted hops (by decide +kernel)
  have hleaves : LeavesSetup interrupted
      [.call (.setAcknowledge true), .call (.setNodeVariable 1 7)] := by
    refine ⟨by decide, fun op hop => ?_⟩
    simp only [List.mem_cons, List.not_mem_nil, or_false] at hop
    rcases hop with rfl | rfl <;> rfl
  refine ⟨f, e, hf, he, ?_, ?_, ?_, ?_⟩
  · rw [hreopens.nodeNumber]
    decide +kernel
  · rw [hreopens.mode.eq_home (Or.inr hleaves)]
    decide +kernel
  · rw [hreopens.acknowledge]
    decide +kernel
  · rw [hreopens.nodeVariable?]
    decide +kernel

/-- The start makes normal mode of a stored setup byte. If the number is then taken away, the node
    is still in normal mode, but the next start finds it uninitialised. -/
theorem mode_lost_interrupted :
    ∃ f e, interrupted.start = .ready interrupted.load ∧
      (interrupted.load.operate [.call (.setNodeNumber 0)]).mode = .normal ∧
      (interrupted.load.operate [.call (.setNodeNumber 0)]).isVirgin = false ∧
      ofStore interrupted.layout
        (interrupted.load.operate [.call (.setNodeNumber 0)]).store = .ok f ∧
      f.start = .ready e ∧ e.mode = .uninitialised := by
  let d := interrupted.load.operate [.call (.setNodeNumber 0)]
  obtain ⟨f, hf⟩ := exists_ofStore (l := interrupted.layout) (s := d.store) (by decide +kernel)
  have hs : f.store = d.store := store_ofStore hf
  have hvirgin : f.isVirgin = false := by
    rw [isVirgin_eq, storedMode_congr hs, storedNumber_congr hs]
    decide +kernel
  refine ⟨f, f.load, start_interrupted, by decide +kernel, by decide +kernel, hf, ?_, ?_⟩
  · rw [start, hvirgin, if_neg (by decide)]
  · rw [f.mode_load, storedMode_congr hs, storedNumber_congr hs]
    decide +kernel

end RailNode.Configuration
