import RailNode.Proofs.Checked.Device
import RailNode.Proofs.Node.Transfer

/-
  Devices over stores that move several bytes in different ways. Starts, cycles, the driver and the
  application all commute with a change of the way, so that nothing that is done with a device tells
  one from the other (`transcript_moving`). `Store.Alike` puts together all that two stores with the
  same bytes have in common (`alike_transfers`).
-/
namespace RailNode

namespace Device

variable {k : Transfer} {d : Device}

/-- The same device over a store that moves several bytes in this way. -/
def moving (k : Transfer) : Device → Device
  | idle store link => idle (store.moving k) link
  | running n => running (n.moving k)

@[simp]
theorem store_moving : (d.moving k).store = d.store.moving k := by
  cases d <;> rfl

@[simp]
theorem link_moving : (d.moving k).link = d.link := by
  cases d <;> rfl

@[simp]
theorem setLink_moving (link : Link) : (d.moving k).setLink link = (d.setLink link).moving k := by
  cases d <;> rfl

/-! ## Starts -/

theorem assemble?_moving (c : Configuration) (link : Link) (info : ModuleInfo) (timing : Timing)
    (services : List Service) :
    Node.assemble? (c.moving k) link info timing services =
      (Node.assemble? c link info timing services).map (·.moving k) := by
  unfold Node.assemble?
  split_ifs <;> rfl

theorem start_moving (n : Node) : start (n.moving k) = ((start n).1.moving k, (start n).2) := by
  have hstart : (n.moving k).config.start = n.config.start.moving k :=
    Configuration.start_moving n.config
  unfold start
  rw [hstart]
  rcases n.config.start with c | c <;> rfl

theorem boot_moving (b : Build) (format : Bool) (d : Device) :
    (d.moving k).boot b format = ((d.boot b format).1.moving k, (d.boot b format).2) := by
  unfold boot
  rw [store_moving, link_moving, Configuration.ofStore_moving]
  rcases Configuration.ofStore b.layout d.store with e | c
  · rfl
  · have hconfig : (if format then (c.moving k).factoryReset else c.moving k) =
        (if format then c.factoryReset else c).moving k := by
      rw [c.factoryReset_moving]
      split_ifs <;> rfl
    simp only [Except.map, hconfig, assemble?_moving]
    rcases Node.assemble? (if format then c.factoryReset else c) d.link b.info b.timing b.services
      with _ | n
    · rfl
    · exact start_moving n

/-! ## Steps and runs -/

theorem deliver?_moving (f : Frame) : (d.moving k).deliver? f = (d.deliver? f).map (moving k) := by
  unfold deliver?
  rw [link_moving, Option.map_map]
  exact congrArg (fun g => Option.map g _) (funext fun _ => setLink_moving _)

theorem collect_moving : (d.moving k).collect = (d.collect.1, d.collect.2.moving k) := by
  unfold collect
  rw [link_moving, setLink_moving]

theorem cycle?_moving (now : Time) (n : Node) :
    cycle? now (n.moving k) = (cycle? now n).map (moving k) := by
  unfold cycle?
  rw [n.cycle_moving]
  rcases n.cycle now with (⟨shared, trace⟩ | _) | o <;> rfl

theorem step_moving (i : Input) : (d.moving k).step i = (d.step i).map (moving k) := by
  cases i with
  | boot b format => exact congrArg (fun r => some r.1) (d.boot_moving b format)
  | cycle now =>
    cases d with
    | idle store link => rfl
    | running n => exact cycle?_moving now n
  | deliver f =>
    simp only [step, deliver?_moving]
    rcases d.deliver? f with _ | d' <;> rfl
  | collect => exact congrArg (fun r => some r.2) collect_moving
  | ask r =>
    cases d with
    | idle store link => rfl
    | running n => exact congrArg (fun m => some (running m)) (n.serve_moving r)
  | factoryRestart =>
    cases d with
    | idle store link => rfl
    | running n => exact congrArg (fun c => some (left c n.link)) n.config.factoryReset_moving

theorem run_moving (inputs : List Input) :
    (d.moving k).run inputs = (d.run inputs).map (moving k) := by
  induction inputs generalizing d with
  | nil => rfl
  | cons i inputs ih =>
    rw [run_cons, run_cons, step_moving]
    rcases d.step i with _ | d'
    · rfl
    · exact ih

/-! ## Use -/

/-- What can be done with a device: something happens to it, or the configuration of its node is
    put to use. -/
inductive Use where
  | input (i : Input)
  | configure (u : Configuration.Use)

/-- What a use tells. -/
inductive Reply where
  /-- There is no node. -/
  | absent
  | restarted
  | booted (result : BootResult)
  | cycled (given : List (List Action × List Frame))
  | delivered (accepted : Bool)
  | collected (frames : List Frame)
  | answered (r : Node.Request) (a : r.Answer)
  | configured (reply : Configuration.Reply)

def replyTo (d : Device) : Input → Reply
  | .boot b format => .booted (d.boot b format).2
  | .cycle now =>
    match d with
    | idle _ _ => .absent
    | running n =>
      match n.cycle now with
      | .ok o => .cycled o.given
      | .error _ => .restarted
  | .deliver f => .delivered (d.deliver? f).isSome
  | .collect => .collected d.collect.1
  | .ask r =>
    match d with
    | idle _ _ => .absent
    | running n => .answered r (r.answer n)
  | .factoryRestart =>
    match d with
    | idle _ _ => .absent
    | running _ => .restarted

/-- Puts a device to use; `none` stands for a fault. -/
def use? (d : Device) : Use → Option (Reply × Device)
  | .input i => (d.step i).map fun d' => (d.replyTo i, d')
  | .configure u =>
    match d with
    | idle _ _ => some (.absent, d)
    | running n =>
      match u.run n.config with
      | .stays reply config => some (.configured reply, running { n with config })
      | .restarts config => some (.restarted, left config n.link)

/-- All of a device but the way in which its store moves several bytes. -/
inductive View where
  | idle (bytes : Array UInt8) (link : Link)
  | running (n : Node.View)

def view : Device → View
  | idle store link => .idle store.bytes link
  | running n => .running n.view

/-- What uses one after the other tell and what there is to see of the device after each, up to a
    fault. -/
def transcript (d : Device) : List Use → List (Reply × View)
  | [] => []
  | u :: us =>
    match d.use? u with
    | none => []
    | some (reply, d') => (reply, d'.view) :: d'.transcript us

theorem replyTo_moving (i : Input) : (d.moving k).replyTo i = d.replyTo i := by
  cases i with
  | boot b format => exact congrArg (fun r => Reply.booted r.2) (d.boot_moving b format)
  | cycle now =>
    cases d with
    | idle store link => rfl
    | running n =>
      simp only [replyTo, moving, n.cycle_moving]
      rcases n.cycle now with x | o
      · rfl
      · exact congrArg Reply.cycled o.given_moving
  | deliver f =>
    simp only [replyTo, deliver?_moving, Option.isSome_map]
  | collect => exact congrArg (fun r => Reply.collected r.1) collect_moving
  | ask r =>
    cases d with
    | idle store link => rfl
    | running n => exact congrArg (Reply.answered r) r.answer_moving
  | factoryRestart => cases d <;> rfl

theorem use?_moving (u : Use) :
    (d.moving k).use? u = (d.use? u).map fun r => (r.1, r.2.moving k) := by
  cases u with
  | input i =>
    simp only [use?, step_moving, replyTo_moving]
    rcases d.step i with _ | d' <;> rfl
  | configure u =>
    cases d with
    | idle store link => rfl
    | running n =>
      have hrun : u.run (n.moving k).config = (u.run n.config).moving k := u.run_moving
      simp only [use?, moving, hrun]
      rcases u.run n.config with ⟨reply, c⟩ | c <;> rfl

theorem view_moving : (d.moving k).view = d.view := by
  cases d with
  | idle store link => rfl
  | running n => exact congrArg View.running Node.view_moving

/-- Whatever is done with a device, it does not show how its store moves several bytes. -/
theorem transcript_moving (us : List Use) : (d.moving k).transcript us = d.transcript us := by
  induction us generalizing d with
  | nil => rfl
  | cons u us ih =>
    unfold transcript
    rw [use?_moving]
    rcases d.use? u with _ | ⟨reply, d'⟩
    · rfl
    · exact congrArg₂ (fun v rest => (reply, v) :: rest) view_moving ih

end Device

/-! ## Stores with the same bytes -/

/-- Two stores that nothing tells from each other, as long as nobody reaches outside. -/
structure Store.Alike (s s' : Store) : Prop where
  readBytes : ∀ a n, a + n ≤ s.capacity → s.readBytes a n = s'.readBytes a n
  writeBytes : ∀ a vs, a + vs.length ≤ s.capacity →
    (s.writeBytes a vs).bytes = (s'.writeBytes a vs).bytes
  /-- What configurations over them tell and leave. -/
  visits : ∀ vs, s.visits vs = s'.visits vs
  /-- What devices over them tell and leave. -/
  transcript : ∀ link us, (Device.idle s link).transcript us = (Device.idle s' link).transcript us
  /-- Where every access has to stay inside, devices over both of them get through. -/
  bounded : ∀ link inputs, (∀ i ∈ inputs, Checked.Device.Input.Valid s.capacity i) →
    ∃ d d', (Checked.Device.idle s link).run inputs = .ok d ∧
      (Checked.Device.idle s' link).run inputs = .ok d' ∧
      d.store.bytes = d'.store.bytes ∧ d.link = d'.link

namespace Store

/-- Under bounds a device does what it does without them, which is the same for both stores. -/
theorem bounded_moving (s : Store) (link : Link) {inputs : List Checked.Device.Input}
    (hi : ∀ i ∈ inputs, i.Valid s.capacity) :
    ∃ d d', (Checked.Device.idle s link).run inputs = .ok d ∧
      (Checked.Device.idle (s.moving k) link).run inputs = .ok d' ∧
      d.store.bytes = d'.store.bytes ∧ d.link = d'.link := by
  obtain ⟨d, e, hd, he, hrel, _⟩ := Checked.Device.run_represents (.idle s link) hi
  obtain ⟨d', e', hd', he', hrel', _⟩ :=
    Checked.Device.run_represents (.idle (s.moving k) link) hi
  have hmoving : ((Device.idle s link).moving k).run (inputs.map Checked.Device.Input.plain) =
      some (e.moving k) := by
    rw [Device.run_moving, he]
    rfl
  obtain rfl : e.moving k = e' := Option.some.inj (hmoving.symm.trans he')
  refine ⟨d, d', hd, hd', ?_, ?_⟩
  · rw [hrel.store_eq, hrel'.store_eq, Device.store_moving]
    rfl
  · rw [hrel.link_eq, hrel'.link_eq, Device.link_moving]

theorem alike_moving (s : Store) : s.Alike (s.moving k) where
  readBytes _ _ h := (readBytes_moving h).symm
  writeBytes _ _ h := (congrArg Store.bytes (writeBytes_moving (k := k) h)).symm
  visits vs := (s.visits_moving vs).symm
  transcript link us := (Device.transcript_moving (d := .idle s link) us).symm
  bounded link _ hi := s.bounded_moving link hi

/-- Nothing tells a store that moves several bytes as a block from one that moves them one by
    one. -/
theorem alike_transfers (bytes : Array UInt8) :
    (Store.mk bytes .block).Alike (Store.mk bytes .bytewise) :=
  alike_moving (Store.mk bytes .block)

/-- A visit that files two events and takes one of them away, and one that finds the other. -/
def filingVisits : List Configuration.Visit :=
  [⟨.compact 2 4 2, [.start, .write (.writeEvent 3 ⟨1, 2⟩), .write (.writeEvent 0 ⟨1, 3⟩),
      .write .reindexAll, .write (.clearEvent 0), .write (.reindex 0)]⟩,
    ⟨.compact 2 4 2, [.start, .ask (.find ⟨1, 2⟩)]⟩]

/-- A blank device resets its store and restarts. Its node gets the number 7, and an event is filed
    behind its back. -/
def numberUses : List Device.Use :=
  .input (.boot Device.smallBuild false) ::
    (Device.session [.advanceMode, .received (.addressed Opcode.snn.byte 7 [])]).map .input ++
    [.configure (.write (.writeEvent 1 ⟨1, 2⟩)), .configure (.write .reindexAll),
      .configure (.ask (.find ⟨1, 2⟩)), .input (.cycle 1), .input (.cycle 1), .input .collect]

/-- The last bytes of a blank store, the visits, the uses down to the last, and a session under
    bounds. -/
theorem alike_blank :
    (blank 64 .block).readBytes 62 2 = (blank 64 .bytewise).readBytes 62 2 ∧
    ((blank 64 .block).writeBytes 62 [1, 2]).bytes =
      ((blank 64 .bytewise).writeBytes 62 [1, 2]).bytes ∧
    (blank 64 .block).visits filingVisits = (blank 64 .bytewise).visits filingVisits ∧
    (Device.idle (blank 64 .block) (.ofCapacities 8 8)).transcript numberUses =
      (Device.idle (blank 64 .bytewise) (.ofCapacities 8 8)).transcript numberUses ∧
    ((Device.idle (blank 64 .block) (.ofCapacities 8 8)).transcript numberUses).length =
      numberUses.length ∧
    ∃ d d', (Checked.Device.idle (blank 64 .block) (.ofCapacities 8 8)).run
        Checked.Device.fullSession = .ok d ∧
      (Checked.Device.idle (blank 64 .bytewise) (.ofCapacities 8 8)).run
        Checked.Device.fullSession = .ok d' ∧
      d.store.bytes = d'.store.bytes ∧ d.link = d'.link := by
  have halike : (blank 64 .block).Alike (blank 64 .bytewise) :=
    alike_transfers (Array.replicate 64 erased)
  exact ⟨halike.readBytes 62 2 (by decide), halike.writeBytes 62 [1, 2] (by decide),
    halike.visits filingVisits, halike.transcript _ numberUses, by decide +kernel,
    halike.bounded _ Checked.Device.fullSession (by decide)⟩

end Store

end RailNode
