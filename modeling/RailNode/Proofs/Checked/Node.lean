import Mathlib.Data.List.Forall2
import Mathlib.Data.Option.Defs
import RailNode.Proofs.Checked.Service
import RailNode.Proofs.Node.Requests

/-
  A node under bounds. Its entries are counted in bytes, of which twelve services are far from the
  end. `Node.Represents` ties it to the node without bounds; `cycle_agrees` and `serve_represents`
  say that a cycle and a request keep it so.
-/
namespace RailNode.Checked

/-- A service of a node and the reporter of its diagnostics. -/
structure Entry where
  service : Service
  reporter : Reporter := {}
deriving DecidableEq, Repr

structure Node where
  config : Configuration
  link : Link
  queue : Backlog Action queueCapacity
  parameters : Parameters
  timing : Timing
  entries : List Entry
  indication : Indication

/-- An entry does what `e'` does, and the numbers that it has still to report are bytes. -/
structure Entry.Represents (e : Entry) (e' : RailNode.Entry) : Prop where
  service : e.service.Represents e'.service
  short : Service.Short e'.service
  reporter : e.reporter = e'.reporter
  shortReporter : Series.Short e'.reporter.listing

namespace Node

open RailNode.Node (EntryTrace Request RequestError)

/-! ## The turns of the entries -/

/-- The position of an entry in the list, counted from 1. -/
def position (index : Nat) : Except Halt Nat := add byteLimit (Series.lowByte index) 1

def entryTurn (c : Cycle) (index : Nat) (e : Entry) (shared : Shared) :
    Except Halt (Entry × Shared) := do
  let position ← position index
  let t ← Service.turn c { self := e.service, shared }
  let r ← Reporter.turn c t.self position { self := e.reporter, shared := t.shared }
  return (⟨t.self, r.self⟩, r.shared)

/-- The turns of entries one after the other, the first of them at this index. -/
def turns (c : Cycle) (index : Nat) (shared : Shared) :
    List Entry → Except Halt (List Entry × Shared)
  | [] => return ([], shared)
  | e :: rest => do
    let (e, shared) ← entryTurn c index e shared
    let (rest, shared) ← turns c (index + 1) shared rest
    return (e :: rest, shared)

variable {c : Cycle} {index : Nat} {e : Entry} {e' : RailNode.Entry} {shared : Shared}
  {es : List Entry} {es' : List RailNode.Entry}

theorem position_eq (h : index < 255) : position index = .ok (index + 1) := by
  rw [position, Series.lowByte_eq (by omega), add_eq (by unfold byteLimit; omega)]

/-- The turn of an entry under bounds is the turn without them. -/
theorem entryTurn_agrees (hc : c.services.length ≤ 255) (hindex : index < 255)
    (h : e.Represents e') (hsound : e'.service.Sound c.services.length shared.config.layout) :
    Agree (fun r r' => r.1.Represents r'.1.1 ∧ r.2 = r'.2) (entryTurn c index e shared)
      (RailNode.Node.entryTurn c (index + 1) e' shared) := by
  rw [entryTurn, position_eq hindex, ok_bind]
  have hcontinues :
      Service.Continues { self := e.service, shared } { self := e'.service, shared } :=
    ⟨rfl, rfl, h.service, h.short⟩
  refine (Service.turn_agrees hc hcontinues hsound).bind fun {t t'} _ ht => ?_
  obtain ⟨hr, hshort⟩ := Reporter.turn_eq (c := c) (t := ⟨e'.reporter, t'.shared, {}⟩) ht.self
    (index + 1) h.shortReporter
  rw [h.reporter, ht.shared, hr]
  exact .ok ⟨⟨ht.self, ht.short, rfl, hshort⟩, rfl⟩

theorem turns_agree (hc : c.services.length ≤ 255) (hindex : index + es.length ≤ 255)
    (h : List.Forall₂ Entry.Represents es es')
    (hsound : ∀ e' ∈ es', e'.service.Sound c.services.length shared.config.layout) :
    Agree (fun r r' => List.Forall₂ Entry.Represents r.1 (r'.1.map (·.1)) ∧ r.2 = r'.2)
      (turns c index shared es) (RailNode.Node.turns c (index + 1) shared es') := by
  induction h generalizing index shared with
  | nil => exact .ok ⟨.nil, rfl⟩
  | @cons e e' es es' he hes ih =>
    rw [List.length_cons] at hindex
    have hfirst : index < 255 := by omega
    have hlater : index + 1 + es.length ≤ 255 := by omega
    have hentry := entryTurn_agrees hc hfirst he (hsound e' List.mem_cons_self)
    refine hentry.bind fun {r r'} hr' hr => ?_
    obtain ⟨e₁, between⟩ := r
    obtain ⟨⟨e₁', trace⟩, between'⟩ := r'
    obtain ⟨he₁, rfl⟩ : e₁.Represents e₁' ∧ between = between' := hr
    have hlayout := (RailNode.Node.edits_entryTurn hr').changesOnly.layout
    have hsound' : ∀ x ∈ es', x.service.Sound c.services.length between.config.layout := by
      intro x hx
      rw [hlayout]
      exact hsound x (List.mem_cons_of_mem _ hx)
    exact (ih hlater hsound').bind fun {_ _} _ h => .ok ⟨.cons he₁ h.1, h.2⟩

/-! ## The cycle -/

def services (n : Node) : List ServiceInfo := n.entries.map (·.service.face.info)

/-- The action that the next cycle takes from the queue, and the queue without it. -/
def nextAction (n : Node) : Option Action × Backlog Action queueCapacity :=
  match n.queue.pop? with
  | none => (none, n.queue)
  | some (a, queue) => (some a, queue)

/-- What the services can know of the cycle that comes next. -/
def facts (now : Time) (n : Node) : Cycle where
  now
  action := n.nextAction.1
  services := n.services
  parameters := n.parameters
  timing := n.timing

/-- What the first service of the next cycle finds. -/
def opening (n : Node) : Shared where
  config := n.config
  link := n.link
  queue := n.nextAction.2

/-- Runs a cycle. -/
def cycle (now : Time) (n : Node) : Except Halt Node :=
  (turns (n.facts now) 0 n.opening n.entries).map fun (entries, shared) =>
    { n with
      config := shared.config
      link := shared.link
      queue := shared.queue
      entries
      indication := RailNode.Node.indicate n.indication n.nextAction.1 }

/-- A node is put together as `n'`, and each of its entries does what that of `n'` does. -/
structure Resembles (n : Node) (n' : RailNode.Node) : Prop where
  config : n.config = n'.config
  link : n.link = n'.link
  queue : n.queue = n'.queue
  parameters : n.parameters = n'.parameters
  timing : n.timing = n'.timing
  entries : List.Forall₂ Entry.Represents n.entries n'.entries
  indication : n.indication = n'.indication

/-- A node does what `n'` does, which has few services, and what each of them has still to report
    is there. -/
structure Represents (n : Node) (n' : RailNode.Node) : Prop extends n.Resembles n' where
  sound : n'.Sound
  few : n'.entries.length ≤ RailNode.Node.maxServices

variable {n : Node} {n' : RailNode.Node}

theorem infos_eq (h : List.Forall₂ Entry.Represents es es') :
    es.map (·.service.face.info) = es'.map (·.service.info) := by
  induction h with
  | nil => rfl
  | cons he _ ih => rw [List.map_cons, List.map_cons, he.service.info_eq, ih]

theorem nextAction_eq (h : n.queue = n'.queue) : n.nextAction = n'.nextAction := by
  obtain ⟨config, link, queue, parameters, timing, entries, indication⟩ := n
  obtain rfl : queue = n'.queue := h
  rfl

theorem facts_eq (now : Time) (h : n.Represents n') : n.facts now = n'.facts now := by
  have hservices : n.services = n'.services := infos_eq h.entries
  rw [facts, RailNode.Node.facts, nextAction_eq h.queue, hservices, h.parameters, h.timing]

theorem opening_eq (h : n.Represents n') : n.opening = n'.opening := by
  rw [opening, RailNode.Node.opening, h.config, h.link, nextAction_eq h.queue]

/-- A cycle under bounds is the cycle without them. -/
theorem cycle_agrees (now : Time) (h : n.Represents n') :
    Agree (fun m o => m.Represents o.node) (n.cycle now) (n'.cycle now) := by
  have hfew : n'.entries.length ≤ 12 := h.few
  have hlength : n.entries.length = n'.entries.length := h.entries.length_eq
  have hservices : (n'.facts now).services.length ≤ 255 := by
    rw [RailNode.Node.length_services]
    omega
  have hroom : 0 + n.entries.length ≤ 255 := by omega
  have hturns := turns_agree hservices hroom h.entries (h.sound.entries now)
  rw [cycle, facts_eq now h, opening_eq h, RailNode.Node.cycle_eq]
  refine hturns.map fun {r r'} hr' hr => ?_
  have hcycle : n'.cycle now = .ok (n'.outcome r') := by
    rw [RailNode.Node.cycle_eq, hr']
    rfl
  have hids := congrArg List.length (RailNode.Node.ids_cycle hcycle)
  rw [List.length_map, List.length_map] at hids
  exact {
    config := congrArg Shared.config hr.2
    link := congrArg Shared.link hr.2
    queue := congrArg Shared.queue hr.2
    parameters := h.parameters
    timing := h.timing
    entries := hr.1
    indication := by
      show RailNode.Node.indicate n.indication n.nextAction.1 =
        RailNode.Node.indicate n'.indication n'.nextAction.1
      rw [h.indication, nextAction_eq h.queue]
    sound := h.sound.cycle hcycle
    few := hids ▸ h.few }

/-! ## Requests -/

def put (a : Action) (n : Node) : Except Halt Node := do
  let queue ← Backlog.put a n.queue
  return { n with queue }

def takeActivity (n : Node) : Node :=
  { n with indication := { n.indication with activity := false } }

/-- Replaces the first service for which `f` gives another. -/
def updateFirst {α : Type} (f : Service → Option (α × Service)) :
    List Entry → Option (α × List Entry)
  | [] => none
  | e :: rest =>
    match f e.service with
    | some (a, service) => some (a, { e with service } :: rest)
    | none => (updateFirst f rest).map fun (a, rest) => (a, e :: rest)

def countEvent : Service → Option (Unit × Service)
  | .producer s => some ((), .producer s.count)
  | _ => none

def produce (slot : Nat) (on : Bool) (data : List UInt8) (n : Node) :
    Except Halt (Except RequestError Node) :=
  match updateFirst countEvent n.entries with
  | none => return .error .noService
  | some (_, entries) => do
    let _ ← position (n.entries.findIdx fun e => (countEvent e.service).isSome)
    match ← EventProducer.message n.config slot on data with
    | .error e => return .error (.produce e)
    | .ok m => do
      let n ← put (.transmit m) { n with entries }
      return .ok n

def takeEvent : Service → Option (RecognisedEvent × Service)
  | .consumer s => s.take?.map fun (e, s) => (e, .consumer s)
  | _ => none

def takeConsumed? (n : Node) : Option (RecognisedEvent × Node) :=
  (updateFirst takeEvent n.entries).map fun (e, entries) => (e, { n with entries })

/-- The first long message service. -/
def longMessage? (n : Node) : Option LongMessage :=
  n.entries.findSome? fun e =>
    match e.service with
    | .longMessage s => some s
    | _ => none

def replaceLongMessage (b : LongMessage) : Service → Option (Unit × Service)
  | .longMessage _ => some ((), .longMessage b)
  | _ => none

def setLongMessage (b : LongMessage) (n : Node) : Node :=
  { n with entries := (updateFirst (replaceLongMessage b) n.entries).elim n.entries (·.2) }

def send (stream : UInt8) (payload : List UInt8) (n : Node) : Except Halt Node :=
  match n.longMessage? with
  | none => return n
  | some b => do
    let sent ← b.send stream payload
    return sent.toOption.elim n n.setLongMessage

/-- Serves a request; one that is refused changes nothing. -/
def serve (n : Node) : Request → Except Halt Node
  | .put a => n.put a
  | .takeActivity => return n.takeActivity
  | .produce slot on data => do
    let produced ← n.produce slot on data
    return produced.toOption.getD n
  | .takeConsumed => return n.takeConsumed?.elim n (·.2)
  | .subscribe stream => return (n.longMessage?.bind (·.subscribe? stream)).elim n n.setLongMessage
  | .send stream payload => n.send stream payload
  | .takeReceipt =>
    return (n.longMessage?.bind (·.takeReceipt?)).elim n fun r => n.setLongMessage r.2

/-- The same is given and the services do the same, with nothing more to report. -/
def SameUpdate {α : Type} (r : α × Service) (r' : α × RailNode.Service) : Prop :=
  r.1 = r'.1 ∧ r.2.Represents r'.2 ∧ Service.Short r'.2

/-- The same is given and the entries do the same. -/
def SameEntries {α : Type} (r : α × List Entry) (r' : α × List RailNode.Entry) : Prop :=
  r.1 = r'.1 ∧ List.Forall₂ Entry.Represents r.2 r'.2

theorem updateFirst_rel {α : Type} {f : Service → Option (α × Service)}
    {g : RailNode.Service → Option (α × RailNode.Service)}
    (hfg : ∀ {s : Service} {s' : RailNode.Service}, s.Represents s' →
      Option.Rel SameUpdate (f s) (g s'))
    (h : List.Forall₂ Entry.Represents es es') :
    Option.Rel SameEntries (updateFirst f es) (RailNode.Node.updateFirst g es') := by
  induction h with
  | nil => exact .none
  | @cons e e' es es' he hes ih =>
    have hservice := hfg he.service
    unfold updateFirst RailNode.Node.updateFirst
    generalize f e.service = x, g e'.service = y at hservice
    cases hservice with
    | some h =>
      obtain ⟨ha, hs, hshort⟩ := h
      exact .some ⟨ha, .cons ⟨hs, hshort, he.reporter, he.shortReporter⟩ hes⟩
    | none =>
      dsimp only
      generalize updateFirst f es = x, RailNode.Node.updateFirst g es' = y at ih
      cases ih with
      | some h => exact .some ⟨h.1, .cons he h.2⟩
      | none => exact .none

theorem longMessage?_rel (h : n.Resembles n') :
    Option.Rel LongMessage.Represents n.longMessage? n'.longMessage? := by
  have hentries := h.entries
  unfold longMessage? RailNode.Node.longMessage?
  generalize n.entries = es, n'.entries = es' at hentries
  induction hentries with
  | nil => exact .none
  | @cons e e' es es' he hes ih =>
    rw [List.findSome?_cons, List.findSome?_cons]
    have hservice := he.service
    generalize e.service = s, e'.service = s' at hservice
    cases hservice with
    | longMessage h => exact .some h
    | _ => exact ih

theorem resembles_put (a : Action) (h : n.Resembles n') :
    ∃ m, n.put a = .ok m ∧ m.Resembles (n'.put a) := by
  refine ⟨{ n with queue := n.queue.put a }, ?_, h.config, h.link, ?_, h.parameters, h.timing,
    h.entries, h.indication⟩
  · rw [put, Backlog.put_eq _ _ (by decide)]
    rfl
  · exact congrArg (·.put a) h.queue

theorem resembles_setLongMessage {b : LongMessage} {s : RailNode.LongMessage}
    (hs : b.Represents s) (h : n.Resembles n') :
    (n.setLongMessage b).Resembles (n'.setLongMessage s) := by
  refine ⟨h.config, h.link, h.queue, h.parameters, h.timing, ?_, h.indication⟩
  unfold setLongMessage RailNode.Node.setLongMessage
  dsimp only
  generalize hx : updateFirst (replaceLongMessage b) n.entries = x,
    hy : RailNode.Node.updateFirst _ n'.entries = y
  have hupdate : Option.Rel SameEntries x y := by
    rw [← hx, ← hy]
    refine updateFirst_rel (fun hservice => ?_) h.entries
    cases hservice with
    | longMessage _ => exact .some ⟨rfl, .longMessage hs, trivial⟩
    | _ => exact .none
  cases hupdate with
  | some h => exact h.2
  | none => exact h.entries

theorem produce_rel (slot : Nat) (on : Bool) (data : List UInt8) (h : n.Represents n') :
    ∃ produced, n.produce slot on data = .ok produced ∧
      Option.Rel Resembles produced.toOption (n'.produce slot on data).toOption := by
  have hposition : (n.entries.findIdx fun e => (countEvent e.service).isSome) < 255 := by
    have hfew : n'.entries.length ≤ 12 := h.few
    have hlength := h.entries.length_eq
    refine Nat.lt_of_le_of_lt List.findIdx_le_length ?_
    omega
  unfold produce RailNode.Node.produce
  dsimp only
  generalize hx : updateFirst countEvent n.entries = x,
    hy : RailNode.Node.updateFirst _ n'.entries = y
  have hupdate : Option.Rel SameEntries x y := by
    rw [← hx, ← hy]
    refine updateFirst_rel (fun hservice => ?_) h.entries
    cases hservice with
    | producer s => exact .some ⟨rfl, .producer _, trivial⟩
    | _ => exact .none
  cases hupdate with
  | none => exact ⟨_, rfl, .none⟩
  | @some r r' hr =>
    dsimp only
    rw [position_eq hposition, ok_bind, EventProducer.message_eq, ok_bind, ← h.config]
    rcases RailNode.EventProducer.message n.config slot on data with e | m
    · exact ⟨_, rfl, .none⟩
    · have hentries : ({ n with entries := r.2 } : Node).Resembles { n' with entries := r'.2 } :=
        ⟨h.config, h.link, h.queue, h.parameters, h.timing, hr.2, h.indication⟩
      obtain ⟨k, hk, hresembles⟩ := resembles_put (.transmit m) hentries
      rw [← h.config] at hresembles
      dsimp only
      rw [hk]
      exact ⟨_, rfl, .some hresembles⟩

theorem takeConsumed?_rel (h : n.Resembles n') :
    Option.Rel (fun r r' => r.2.Resembles r'.2) n.takeConsumed? n'.takeConsumed? := by
  unfold takeConsumed? RailNode.Node.takeConsumed?
  dsimp only
  generalize hx : updateFirst takeEvent n.entries = x,
    hy : RailNode.Node.updateFirst _ n'.entries = y
  have hupdate : Option.Rel SameEntries x y := by
    rw [← hx, ← hy]
    refine updateFirst_rel (fun hservice => ?_) h.entries
    cases hservice with
    | consumer s =>
      unfold takeEvent
      dsimp only
      rcases s.take? with _ | ⟨e, s'⟩
      · exact .none
      · exact .some ⟨rfl, .consumer _, trivial⟩
    | _ => exact .none
  cases hupdate with
  | none => exact .none
  | some hr =>
    exact .some ⟨h.config, h.link, h.queue, h.parameters, h.timing, hr.2, h.indication⟩

/-- A service that is put in place of the first long message service, if it is given. -/
theorem resembles_elim {x : Option LongMessage} {y : Option RailNode.LongMessage}
    (hxy : Option.Rel LongMessage.Represents x y) (h : n.Resembles n') :
    (x.elim n n.setLongMessage).Resembles (y.elim n' n'.setLongMessage) :=
  rel_elim hxy h fun hs => resembles_setLongMessage hs h

theorem resembles_send (stream : UInt8) (payload : List UInt8) (h : n.Resembles n') :
    ∃ m, n.send stream payload = .ok m ∧ m.Resembles (n'.serve (.send stream payload)) := by
  have hlong := longMessage?_rel h
  unfold send RailNode.Node.serve
  generalize n.longMessage? = x, n'.longMessage? = y at hlong ⊢
  cases hlong with
  | some hs =>
    obtain ⟨sent, hsent, hrel⟩ := LongMessage.send_rel stream payload hs
    dsimp only
    rw [hsent]
    exact ⟨_, rfl, resembles_elim hrel h⟩
  | none => exact ⟨n, rfl, h⟩

theorem resembles_serve (r : Request) (h : n.Represents n') :
    ∃ m, n.serve r = .ok m ∧ m.Resembles (n'.serve r) := by
  have hlong := longMessage?_rel h.toResembles
  cases r with
  | put a => exact resembles_put a h.toResembles
  | takeActivity =>
    exact ⟨_, rfl, h.config, h.link, h.queue, h.parameters, h.timing, h.entries,
      congrArg (fun i : Indication => { i with activity := false }) h.indication⟩
  | produce slot on data =>
    obtain ⟨produced, hproduced, hrel⟩ := produce_rel slot on data h
    exact ⟨produced.toOption.getD n, by rw [serve, hproduced]; rfl, rel_getD hrel h.toResembles⟩
  | takeConsumed => exact ⟨_, rfl, rel_elim (takeConsumed?_rel h.toResembles) h.toResembles id⟩
  | subscribe stream =>
    have hrel := rel_bind hlong (LongMessage.subscribe?_rel stream)
    exact ⟨_, rfl, resembles_elim hrel h.toResembles⟩
  | send stream payload => exact resembles_send stream payload h.toResembles
  | takeReceipt =>
    refine ⟨_, rfl, rel_elim (rel_bind hlong LongMessage.takeReceipt?_rel) h.toResembles ?_⟩
    exact fun hr => resembles_setLongMessage hr.2 h.toResembles

/-- A request under bounds is served as it is without them. -/
theorem serve_represents (r : Request) (h : n.Represents n') :
    ∃ m, n.serve r = .ok m ∧ m.Represents (n'.serve r) := by
  obtain ⟨m, hm, hresembles⟩ := resembles_serve r h
  have hcore := n'.sameCore_serve r
  have hids := congrArg List.length hcore.ids
  rw [List.length_map, List.length_map] at hids
  exact ⟨m, hm, hresembles, hcore.sound h.sound, hids ▸ h.few⟩

end Node

end RailNode.Checked
