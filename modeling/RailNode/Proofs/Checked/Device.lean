import RailNode.Proofs.Checked.Node
import RailNode.Proofs.Checked.Start
import RailNode.Proofs.Device.Identity

/-
  A device under bounds, and runs of it. `step_leads` says what a step comes to: it does what the
  device without bounds does, and it ends in a restart only if it has a reason to. `safe_of_run`
  carries this over every run, so that no bound is ever passed.
-/
namespace RailNode.Checked

/-! ## New services -/

/-- What the application does with a service for long messages before it hands it to a node. -/
inductive LongMessage.Call where
  | subscribe (stream : UInt8)
  | send (stream : UInt8) (payload : List UInt8)

namespace LongMessage

/-- Serves a call; one that is refused changes nothing. -/
def serve (b : LongMessage) : Call → Except Halt LongMessage
  | .subscribe stream => return (b.subscribe? stream).getD b
  | .send stream payload => do
    let sent ← b.send stream payload
    return sent.toOption.getD b

/-- What a call does without the buffers. -/
def Call.apply (s : RailNode.LongMessage) : Call → RailNode.LongMessage
  | subscribe stream => (s.subscribe? stream).getD s
  | send stream payload => (s.send stream payload).toOption.getD s

variable {b : LongMessage} {s : RailNode.LongMessage}

theorem serve_represents (call : Call) (h : b.Represents s) :
    ∃ b', b.serve call = .ok b' ∧ b'.Represents (call.apply s) := by
  cases call with
  | subscribe stream => exact ⟨_, rfl, rel_getD (subscribe?_rel stream h) h⟩
  | send stream payload =>
    obtain ⟨sent, hsent, hrel⟩ := send_rel stream payload h
    refine ⟨sent.toOption.getD b, ?_, rel_getD hrel h⟩
    rw [serve, hsent]
    rfl

theorem serveAll_represents (calls : List Call) (h : b.Represents s) :
    ∃ b', calls.foldlM serve b = .ok b' ∧ b'.Represents (calls.foldl Call.apply s) := by
  induction calls generalizing b s with
  | nil => exact ⟨b, rfl, h⟩
  | cons call calls ih =>
    obtain ⟨between, hcall, hbetween⟩ := serve_represents call h
    obtain ⟨b', hcalls, hb'⟩ := ih hbetween
    refine ⟨b', ?_, hb'⟩
    rw [List.foldlM_cons, hcall, ok_bind, hcalls]

end LongMessage

/-- How a service is made. One for long messages works on two buffers, whatever is in them. -/
inductive NewService where
  | minimumNode
  | busAccess
  | nodeVariables
  | teaching
  | consumer (consumesOwn : Bool)
  | producer
  | acknowledge
  | longMessage (timing : LongMessageTiming) (received sent : List UInt8)
      (calls : List LongMessage.Call)

namespace NewService

def newConsumer (consumesOwn : Bool) : EventConsumer where
  consumesOwn
  pending := .mk [] {} (Nat.zero_le EventConsumer.capacity)

def make : NewService → Except Halt Service
  | minimumNode => return .minimumNode {}
  | busAccess => return .busAccess {}
  | nodeVariables => return .nodeVariables {}
  | teaching => return .teaching {}
  | consumer consumesOwn => return .consumer (newConsumer consumesOwn)
  | producer => return .producer {}
  | acknowledge => return .acknowledge {}
  | longMessage timing received sent calls =>
    (calls.foldlM LongMessage.serve (.ofBuffers timing received sent)).map .longMessage

/-- The service without bounds. -/
def service : NewService → RailNode.Service
  | minimumNode => .minimumNode {}
  | busAccess => .busAccess {}
  | nodeVariables => .nodeVariables {}
  | teaching => .teaching {}
  | consumer consumesOwn => .consumer (newConsumer consumesOwn)
  | producer => .producer {}
  | acknowledge => .acknowledge {}
  | longMessage timing received sent calls =>
    .longMessage
      (calls.foldl LongMessage.Call.apply (.ofCapacities timing received.length sent.length))

/-- A service that has just been made, as `s'` is without bounds. -/
structure Made (s : Service) (s' : RailNode.Service) : Prop where
  represents : s.Represents s'
  short : Service.Short s'

theorem isNew_service (p : NewService) : p.service.IsNew := by
  cases p <;> trivial

theorem make_eq (p : NewService) : ∃ s, p.make = .ok s ∧ Made s p.service := by
  cases p with
  | minimumNode => exact ⟨_, rfl, .minimumNode _, Series.short_none⟩
  | busAccess => exact ⟨_, rfl, .busAccess _, trivial⟩
  | nodeVariables => exact ⟨_, rfl, .nodeVariables _, trivial⟩
  | teaching => exact ⟨_, rfl, .teaching _, Series.short_none⟩
  | consumer consumesOwn => exact ⟨_, rfl, .consumer _, trivial⟩
  | producer => exact ⟨_, rfl, .producer _, trivial⟩
  | acknowledge => exact ⟨_, rfl, .acknowledge _, trivial⟩
  | longMessage timing received sent calls =>
    obtain ⟨b, hb, hrepresents⟩ :=
      LongMessage.serveAll_represents calls (LongMessage.represents_ofBuffers timing received sent)
    refine ⟨.longMessage b, ?_, .longMessage hrepresents, trivial⟩
    rw [make, hb]
    rfl

theorem makeAll_eq (ps : List NewService) :
    ∃ ss, ps.mapM make = .ok ss ∧ List.Forall₂ Made ss (ps.map service) := by
  induction ps with
  | nil => exact ⟨[], rfl, .nil⟩
  | cons p ps ih =>
    obtain ⟨s, hs, hmade⟩ := p.make_eq
    obtain ⟨ss, hss, hrest⟩ := ih
    refine ⟨s :: ss, ?_, .cons hmade hrest⟩
    rw [List.mapM_cons, hs, ok_bind, hss]
    rfl

variable {ss : List Service} {ss' : List RailNode.Service}

theorem flags_eq (h : List.Forall₂ Made ss ss') :
    ss.map (·.face.flags) = ss'.map (·.flags) := by
  induction h with
  | nil => rfl
  | cons hs _ ih => rw [List.map_cons, List.map_cons, hs.represents.flags_eq, ih]

theorem entries_represents (h : List.Forall₂ Made ss ss') :
    List.Forall₂ Entry.Represents (ss.map fun service => { service })
      (ss'.map fun service => { service }) := by
  rw [List.forall₂_map_left_iff, List.forall₂_map_right_iff]
  exact h.imp fun _ _ hs => ⟨hs.represents, hs.short, rfl, Series.short_none⟩

end NewService

/-! ## Devices -/

/-- How the node of a device is put together at each start. -/
structure Plan where
  layout : Layout
  info : ModuleInfo
  timing : Timing
  services : List NewService

def Plan.build (p : Plan) : Build where
  layout := p.layout
  info := p.info
  timing := p.timing
  services := p.services.map NewService.service

inductive Device where
  /-- No node runs. -/
  | idle (store : Store) (link : Link)
  | running (n : Node)

namespace Device

/-- What happens to a device. -/
inductive Input where
  | boot (p : Plan) (format : Bool)
  | cycle (now : Time)
  | deliver (f : Frame)
  | collect
  | ask (r : RailNode.Node.Request)

/-- The input of the device without bounds. -/
def Input.plain : Input → RailNode.Device.Input
  | boot p format => .boot p.build format
  | cycle now => .cycle now
  | deliver f => .deliver f
  | collect => .collect
  | ask r => .ask r

/-- A start is valid if its layout fits a store of this size; everything else is always valid. -/
def Input.Valid (capacity : Nat) : Input → Prop
  | boot p _ => p.layout.error? capacity = none
  | _ => True

instance (capacity : Nat) (i : Input) : Decidable (i.Valid capacity) :=
  match i with
  | .boot _ _ => inferInstanceAs (Decidable (_ = _))
  | .cycle _ => .isTrue trivial
  | .deliver _ => .isTrue trivial
  | .collect => .isTrue trivial
  | .ask _ => .isTrue trivial

/-- How a step ends: it returns, or the device restarts instead. -/
inductive Ending where
  | returned (d : Device)
  | restarted (d : Device)

/-- The device as it is left. -/
def Ending.device : Ending → Device
  | returned d => d
  | restarted d => d

def store : Device → Store
  | idle store _ => store
  | running n => n.config.store

def link : Device → Link
  | idle _ link => link
  | running n => n.link

def setLink (link : Link) : Device → Device
  | idle store _ => idle store link
  | running n => running { n with link }

/-- Puts a node together; `none` if there are too many services. -/
def assemble? (p : Plan) (config : Configuration) (link : Link) (services : List Service) :
    Option Node :=
  if RailNode.Node.maxServices < services.length then none
  else
    some
      { config, link
        queue := .mk [] {} (Nat.zero_le queueCapacity)
        parameters :=
          { info := p.info
            layout := config.layout
            serviceFlags := (services.map (·.face.flags)).foldl (· ||| ·) 0 }
        timing := p.timing
        entries := services.map fun service => { service }
        indication := {} }

def start (n : Node) : Except Halt Ending := do
  match ← Configuration.start n.config with
  | .restart config => return .restarted (idle config.store n.link)
  | .ready config =>
    return .returned
      (running { n with config, link := n.link.reset, indication := { mode := config.mode } })

/-- Puts a node together over a configuration and starts it. -/
def launch (p : Plan) (config : Configuration) (link : Link) : Except Halt Ending := do
  let services ← p.services.mapM NewService.make
  match assemble? p config link services with
  | none => return .returned (idle config.store link)
  | some n => start n

def boot (p : Plan) (format : Bool) (d : Device) : Except Halt Ending := do
  match ← Configuration.ofStore p.layout d.store with
  | .error _ => return .returned (idle d.store d.link)
  | .ok config =>
    if format then
      let config ← Configuration.factoryReset config
      launch p config d.link
    else launch p config d.link

def cycle (now : Time) (n : Node) : Except Halt Ending :=
  match n.cycle now with
  | .ok n => .ok (.returned (running n))
  | .error (.restart shared _) => .ok (.restarted (idle shared.config.store shared.link))
  | .error .fault => .error .fault

/-- What comes of an input; without a node there are no cycles and nobody to ask. -/
def step (d : Device) : Input → Except Halt Ending
  | .boot p format => d.boot p format
  | .cycle now =>
    match d with
    | idle _ _ => return .returned d
    | running n => cycle now n
  | .deliver f => return .returned ((d.link.deliver? f).elim d fun link => d.setLink link)
  | .collect => return .returned (d.setLink { d.link with outgoing := d.link.outgoing.clear })
  | .ask r =>
    match d with
    | idle _ _ => return .returned d
    | running n => do
      let n ← n.serve r
      return .returned (running n)

/-- What comes of inputs one after the other. -/
def run (d : Device) (inputs : List Input) : Except Halt Device :=
  inputs.foldlM (fun d i => (d.step i).map Ending.device) d

/-- A device does what `d'` does without bounds. -/
inductive Represents : Device → RailNode.Device → Prop
  | idle (store : Store) (link : Link) : Represents (idle store link) (.idle store link)
  | running {n : Node} {n' : RailNode.Node} : n.Represents n' →
      Represents (running n) (.running n')

/-- What makes a device restart: a message that tells it to, or a start over a virgin store. -/
inductive Restarts : Device → Input → Prop
  | told {n : Node} {now : Time} {m : Message} : (n.facts now).received? = some m →
      (m.opcode? = some .nnrst ∨ m.opcode? = some .nnrsm) → Restarts (running n) (.cycle now)
  | virgin {d : Device} {p : Plan} {c : RailNode.Configuration} : c.store = d.store →
      c.isVirgin = true → Restarts d (.boot p false)

/-! ## Steps -/

/-- A step passes no bound and leads where the device without bounds is led. It ends in a restart
    only for this reason. -/
def Leads (x : Except Halt Ending) (d' : RailNode.Device) (reason : Prop) : Prop :=
  ∃ e, x = .ok e ∧ e.device.Represents d' ∧ ∀ left, e = .restarted left → reason

variable {d : Device} {d' : RailNode.Device} {reason : Prop} {n : Node} {n' : RailNode.Node}

theorem leads_returned (h : d.Represents d') : Leads (.ok (.returned d)) d' reason :=
  ⟨.returned d, rfl, h, fun _ heq => Ending.noConfusion heq⟩

theorem leads_restarted (h : d.Represents d') (hreason : reason) :
    Leads (.ok (.restarted d)) d' reason :=
  ⟨.restarted d, rfl, h, fun _ _ => hreason⟩

theorem Leads.imp {x : Except Halt Ending} {P Q : Prop} (h : Leads x d' P) (hPQ : P → Q) :
    Leads x d' Q := by
  obtain ⟨e, he, hrepresents, hreason⟩ := h
  exact ⟨e, he, hrepresents, fun left hleft => hPQ (hreason left hleft)⟩

theorem Represents.store_eq (h : d.Represents d') : d.store = d'.store := by
  cases h with
  | idle store link => rfl
  | running h => exact congrArg (·.store) h.config

theorem Represents.link_eq (h : d.Represents d') : d.link = d'.link := by
  cases h with
  | idle store link => rfl
  | running h => exact h.link

theorem Represents.setLink (link : Link) (h : d.Represents d') :
    (d.setLink link).Represents (d'.setLink link) := by
  cases h with
  | idle store _ => exact .idle store link
  | running h =>
    exact .running
      ⟨⟨h.config, rfl, h.queue, h.parameters, h.timing, h.entries, h.indication⟩, h.sound, h.few⟩

/-! ### Starts -/

theorem assemble?_rel (p : Plan) (c : Configuration) (link : Link) {ss : List Service}
    {ss' : List RailNode.Service} (h : List.Forall₂ NewService.Made ss ss')
    (hnew : ∀ s ∈ ss', s.IsNew) :
    Option.Rel (fun n n' => n.Represents n' ∧ n'.config = c) (assemble? p c link ss)
      (RailNode.Node.assemble? c link p.info p.timing ss') := by
  unfold assemble? RailNode.Node.assemble?
  rw [h.length_eq, NewService.flags_eq h]
  split_ifs with hmany
  · exact .none
  · refine .some ⟨⟨⟨rfl, rfl, rfl, rfl, rfl, NewService.entries_represents h, rfl⟩, ?_, ?_⟩, rfl⟩
    · intro s hs
      obtain ⟨e, he, rfl⟩ := List.mem_map.1 hs
      obtain ⟨s, hs', rfl⟩ := List.mem_map.1 he
      exact Service.sound_of_isNew (hnew s hs')
    · rw [List.length_map]
      exact Nat.not_lt.1 hmany

theorem start_leads (h : n.Represents n') :
    Leads (start n) (RailNode.Device.start n').1 (n'.config.isVirgin = true) := by
  rw [start, h.config, Configuration.start_eq, ok_bind, h.link]
  unfold RailNode.Device.start RailNode.Configuration.start
  rcases hvirgin : n'.config.isVirgin with _ | _
  · refine leads_returned (.running ⟨⟨rfl, rfl, h.queue, h.parameters, h.timing, h.entries, rfl⟩,
      ?_, h.few⟩)
    intro s hs
    show s.Sound _ n'.config.load.layout
    rw [n'.config.layout_load]
    exact h.sound s hs
  · exact leads_restarted (.idle _ _) rfl

theorem launch_leads (p : Plan) (c : Configuration) (link : Link) :
    Leads (launch p c link)
      (match RailNode.Node.assemble? c link p.build.info p.build.timing p.build.services with
        | none => (RailNode.Device.left c link, BootResult.tooManyServices)
        | some n => RailNode.Device.start n).1
      (c.isVirgin = true) := by
  obtain ⟨ss, hss, hmade⟩ := NewService.makeAll_eq p.services
  have hnew : ∀ s ∈ p.build.services, s.IsNew := by
    intro s hs
    obtain ⟨q, _, rfl⟩ := List.mem_map.1 hs
    exact q.isNew_service
  have hrel : Option.Rel (fun n n' => n.Represents n' ∧ n'.config = c) (assemble? p c link ss)
      (RailNode.Node.assemble? c link p.build.info p.build.timing p.build.services) :=
    assemble?_rel p c link hmade hnew
  rw [launch, hss, ok_bind]
  generalize assemble? p c link ss = x,
    RailNode.Node.assemble? c link p.build.info p.build.timing p.build.services = y at hrel ⊢
  cases hrel with
  | some hn => exact hn.2 ▸ start_leads hn.1
  | none => exact leads_returned (.idle _ _)

theorem boot_leads (p : Plan) (format : Bool) (h : d.Represents d')
    (hl : p.layout.error? d.store.capacity = none) :
    Leads (d.boot p format) (d'.boot p.build format).1 (Restarts d (.boot p format)) := by
  obtain ⟨c, hc⟩ := RailNode.Configuration.exists_ofStore hl
  have hc' : RailNode.Configuration.ofStore p.build.layout d.store = .ok c := hc
  unfold boot RailNode.Device.boot
  rw [Configuration.ofStore_eq hl, ok_bind, ← h.store_eq, ← h.link_eq, hc, hc']
  dsimp only
  cases format with
  | true =>
    rw [if_pos rfl, if_pos rfl, Configuration.factoryReset_eq, ok_bind]
    refine (launch_leads p c.factoryReset d.link).imp fun hvirgin => ?_
    rw [c.spellsHome_factoryReset.isVirgin] at hvirgin
    contradiction
  | false =>
    have hstore := RailNode.Configuration.store_ofStore hc
    exact (launch_leads p c d.link).imp fun hvirgin => .virgin hstore hvirgin

/-! ### Cycles -/

/-- Only the service that every node has restarts the device, when a message tells it to. -/
theorem restarts_of_cycle {now : Time} {shared : Shared} {trace : Trace} (h : n.Represents n')
    (hcycle : n'.cycle now = .error (.restart shared trace)) :
    Restarts (running n) (.cycle now) := by
  obtain ⟨_, _, _, _, _, _, hturn⟩ := RailNode.Node.exists_of_cycle_eq_error hcycle
  obtain ⟨_, m, hm, hopcode⟩ := RailNode.Service.turn_eq_restart hturn
  rw [← Node.facts_eq now h] at hm
  exact .told hm hopcode

theorem cycle_leads (now : Time) (h : n.Represents n') :
    ∃ d', RailNode.Device.cycle? now n' = some d' ∧
      Leads (cycle now n) d' (Restarts (running n) (.cycle now)) := by
  have hagrees := Node.cycle_agrees now h
  have hfault := h.sound.cycle_ne_fault now
  unfold cycle RailNode.Device.cycle?
  generalize hx : n.cycle now = x, hy : n'.cycle now = y at hagrees hfault
  cases hagrees with
  | ok hm => exact ⟨_, rfl, leads_returned (.running hm)⟩
  | error e =>
    cases e with
    | restart shared trace =>
      exact ⟨_, rfl, leads_restarted (.idle _ _) (restarts_of_cycle h hy)⟩
    | fault => contradiction

/-! ### All steps -/

/-- No valid step passes a bound, and each leads where the device without bounds is led. -/
theorem step_leads {i : Input} (h : d.Represents d') (hi : i.Valid d.store.capacity) :
    ∃ e', d'.step i.plain = some e' ∧ Leads (d.step i) e' (Restarts d i) := by
  cases i with
  | boot p format => exact ⟨_, rfl, boot_leads p format h hi⟩
  | cycle now =>
    cases h with
    | idle store link => exact ⟨_, rfl, leads_returned (.idle store link)⟩
    | running hn => exact cycle_leads now hn
  | deliver f =>
    refine ⟨_, rfl, leads_returned ?_⟩
    unfold RailNode.Device.deliver?
    rw [h.link_eq]
    cases d'.link.deliver? f with
    | none => exact h
    | some link => exact h.setLink link
  | collect =>
    refine ⟨_, rfl, leads_returned ?_⟩
    rw [h.link_eq]
    exact h.setLink _
  | ask r =>
    cases h with
    | idle store link => exact ⟨_, rfl, leads_returned (.idle store link)⟩
    | @running n n' hn =>
      obtain ⟨m, hm, hrepresents⟩ := Node.serve_represents r hn
      refine ⟨_, rfl, ?_⟩
      show Leads (n.serve r >>= fun n => .ok (.returned (running n))) _ _
      rw [hm]
      exact leads_returned (.running hrepresents)

/-! ## Runs -/

theorem Leads.represents {x : Except Halt Ending} (h : Leads x d' reason) :
    ∃ d, x.map Ending.device = .ok d ∧ d.Represents d' := by
  obtain ⟨e, rfl, hrepresents, _⟩ := h
  exact ⟨e.device, rfl, hrepresents⟩

/-- A run of valid inputs comes to its end, where the run without bounds is. -/
theorem run_represents {inputs : List Input} (h : d.Represents d')
    (hi : ∀ i ∈ inputs, i.Valid d.store.capacity) :
    ∃ e e', d.run inputs = .ok e ∧ d'.run (inputs.map Input.plain) = some e' ∧ e.Represents e' ∧
      e.store.capacity = d.store.capacity := by
  induction inputs generalizing d d' with
  | nil => exact ⟨d, d', rfl, rfl, h, rfl⟩
  | cons i inputs ih =>
    obtain ⟨between', hstep', hleads⟩ := step_leads h (hi i List.mem_cons_self)
    obtain ⟨between, hstep, hbetween⟩ := hleads.represents
    have hcapacity : between.store.capacity = d.store.capacity := by
      rw [hbetween.store_eq, h.store_eq]
      exact RailNode.Device.capacity_step hstep'
    obtain ⟨e, e', hrun, hrun', he, hsize⟩ := ih hbetween fun j hj => by
      rw [hcapacity]
      exact hi j (List.mem_cons_of_mem i hj)
    refine ⟨e, e', ?_, ?_, he, hsize.trans hcapacity⟩
    · rw [run, List.foldlM_cons, hstep, ok_bind]
      exact hrun
    · rw [List.map_cons, RailNode.Device.run_cons, hstep']
      exact hrun'

/-- A device passes no bound, whatever valid input comes next: the step returns unless there is a
    reason to restart. Nor is a bound passed when the application reads what the first service for
    long messages has received. -/
structure Safe (d : Device) : Prop where
  takes : ∀ i : Input, i.Valid d.store.capacity →
    ∃ e, d.step i = .ok e ∧ ∀ left, e = .restarted left → Restarts d i
  reads : ∀ n b, d = running n → n.longMessage? = some b →
    ∃ data, b.reception.received = .ok data

theorem Represents.safe (h : d.Represents d') : d.Safe where
  takes i hi := by
    obtain ⟨_, _, e, he, _, hreason⟩ := step_leads h hi
    exact ⟨e, he, hreason⟩
  reads n b hn hb := by
    subst hn
    cases h with
    | @running _ n' hn =>
      have hrel := Node.longMessage?_rel hn.toResembles
      rw [hb] at hrel
      generalize n'.longMessage? = y at hrel
      cases hrel with
      | some hs => exact ⟨_, LongMessage.received_eq hs⟩

/-- Whatever is in the store, a run of valid inputs passes no bound and leads where the run without
    bounds does, and the device is safe where it ends. -/
theorem safe_of_run (store : Store) (link : Link) {inputs : List Input}
    (hi : ∀ i ∈ inputs, i.Valid store.capacity) :
    ∃ d d', (idle store link).run inputs = .ok d ∧
      (RailNode.Device.idle store link).run (inputs.map Input.plain) = some d' ∧
      d.Represents d' ∧ d.store.capacity = store.capacity ∧ d.Safe := by
  obtain ⟨d, d', hrun, hrun', h, hsize⟩ := run_represents (.idle store link) hi
  exact ⟨d, d', hrun, hrun', h, hsize, h.safe⟩

/-- A plan with a service of every kind. The one for long messages is subscribed to a stream, and
    what it was to send at first has been too long. -/
def fullPlan : Plan where
  layout := .compact 2 4 2
  info := .standard
  timing := .standard
  services :=
    [.minimumNode, .busAccess, .nodeVariables, .teaching, .consumer true, .producer, .acknowledge,
      .longMessage .standard (List.replicate 8 0) (List.replicate 8 0)
        [.subscribe 3, .send 3 (List.replicate 9 1)]]

/-- A blank device starts and takes the number 7. The header of a long message comes in with two
    bytes missing, a slot is sent that is not in the table, and a long message is on its way out
    when the clock jumps to its end. -/
def fullSession : List Input :=
  [.boot fullPlan true, .ask (.put .advanceMode), .cycle 0,
    .deliver (.message .unassigned (.addressed Opcode.snn.byte 7 [])),
    .deliver (.message .unassigned (.ofOpcode .dtxc [3, 0, 0, 6])),
    .cycle 1, .cycle 1, .cycle 1, .cycle 1, .cycle 1, .ask (.produce 200 true []),
    .ask (.send 3 [1, 2, 3, 4, 5, 6]), .cycle Time.last, .cycle 1, .collect]

theorem exists_running {x : Except Halt Device} {p : Node → Bool}
    (h : x.toOption.any (fun | idle _ _ => false | running n => p n) = true) :
    ∃ n, x = .ok (running n) ∧ p n = true := by
  rcases x with _ | ⟨store, link⟩ | n
  · contradiction
  · contradiction
  · exact ⟨n, rfl, h⟩

theorem safe_of_fullSession :
    ∃ n, (idle (.blank 64 .block) (.ofCapacities 8 8)).run fullSession = .ok (running n) ∧
      n.config.nodeNumber = 7 ∧ (running n).Safe := by
  have hvalid : ∀ i ∈ fullSession, i.Valid (Store.blank 64 .block).capacity := by decide
  obtain ⟨d, _, hd, _, _, _, hsafe⟩ :=
    safe_of_run (.blank 64 .block) (.ofCapacities 8 8) hvalid
  have hrun : ((idle (.blank 64 .block) (.ofCapacities 8 8)).run fullSession).toOption.any
      (fun | idle _ _ => false | running n => n.config.nodeNumber == 7) = true := by
    decide +kernel
  obtain ⟨n, hn, hseven⟩ := exists_running hrun
  obtain rfl : d = running n := Except.ok.inj (hd.symm.trans hn)
  exact ⟨n, hn, beq_iff_eq.1 hseven, hsafe⟩

end Device

end RailNode.Checked
