import Mathlib.Data.List.Forall2
import RailNode.Node.Application
import RailNode.Proofs.Node.Visit

/-
  Services as they are made, and what the application can ask of a node between two cycles. What a
  request can do at all is said once (`exists_serve_eq`). None reaches the configuration, nor a
  service that works on it (`sameCore_serve`).
-/
namespace RailNode

/-- What the application can ask of a node between two cycles. -/
inductive Node.Request where
  | put (a : Action)
  | takeActivity
  | produce (slot : Nat) (on : Bool) (data : List UInt8)
  | takeConsumed
  | subscribe (stream : UInt8)
  | send (stream : UInt8) (payload : List UInt8)
  | takeReceipt

/-- Serves a request; one that is refused changes nothing. -/
def Node.serve (n : Node) : Node.Request → Node
  | .put a => n.put a
  | .takeActivity => n.takeActivity.2
  | .produce slot on data => (n.produce slot on data).toOption.getD n
  | .takeConsumed => n.takeConsumed?.elim n (·.2)
  | .subscribe stream => (n.longMessage?.bind (·.subscribe? stream)).elim n n.setLongMessage
  | .send stream payload =>
    (n.longMessage?.bind fun s => (s.send stream payload).toOption).elim n n.setLongMessage
  | .takeReceipt => (n.longMessage?.bind (·.takeReceipt?)).elim n fun r => n.setLongMessage r.2

/-- A service as it is made. A long message service may have been put to use before it is handed
    to a node. -/
def Service.IsNew : Service → Prop
  | minimumNode s => s = {}
  | busAccess s => s = {}
  | nodeVariables s => s = {}
  | teaching s => s = {}
  | consumer s => s.pending = {}
  | producer s => s = {}
  | acknowledge s => s = {}
  | longMessage _ => True

/-- A consumer as it is made. -/
def EventConsumer.new : EventConsumer where
  pending := ⟨[], {}, Nat.zero_le EventConsumer.capacity⟩

/-- A new service has nothing to report. -/
theorem Service.sound_of_isNew {n : Nat} {l : Layout} {s : Service} (h : s.IsNew) :
    s.Sound n l := by
  cases s with
  | minimumNode s =>
    obtain rfl : s = {} := h
    exact nofun
  | nodeVariables s =>
    obtain rfl : s = {} := h
    exact nofun
  | _ => trivial

/-- A service without what the application can change between two cycles. -/
def Service.core : Service → Service
  | consumer _ => consumer {}
  | producer _ => producer {}
  | longMessage _ => longMessage (.ofCapacities .standard 0 0)
  | s => s

theorem Service.id_core (s : Service) : s.core.id = s.id := by
  cases s <;> rfl

/-- What the application can make of a service between two cycles. -/
inductive Service.Touched : Service → Service → Prop
  | same (s : Service) : Touched s s
  | consumer (s s' : EventConsumer) : Touched (.consumer s) (.consumer s')
  | producer (s s' : EventProducer) : Touched (.producer s) (.producer s')
  | longMessage {s s' : LongMessage} : (s'.transmission = s.transmission ∨
      ∃ stream payload, s.send stream payload = .ok s') →
      Touched (.longMessage s) (.longMessage s')

theorem Service.Touched.core_eq {s s' : Service} (h : s.Touched s') : s'.core = s.core := by
  cases h <;> rfl

/-- What the application can make of an entry between two cycles. -/
structure Entry.Touched (e e' : Entry) : Prop where
  reporter : e'.reporter = e.reporter
  service : e.service.Touched e'.service

theorem Entry.Touched.refl (e : Entry) : e.Touched e := ⟨rfl, .same _⟩

/-- The services of a node without what the application can change. -/
def Node.cores (n : Node) : List Service := n.entries.map (·.service.core)

/-- What requests and the driver leave of a node: all but the link, the queue and the cores. -/
structure Node.SameCore (n n' : Node) : Prop where
  config : n'.config = n.config
  cores : n'.cores = n.cores
  parameters : n'.parameters = n.parameters
  timing : n'.timing = n.timing

namespace Node

theorem SameCore.refl (n : Node) : n.SameCore n := ⟨rfl, rfl, rfl, rfl⟩

theorem SameCore.ids {n n' : Node} (h : n.SameCore n') :
    n'.entries.map (·.service.id) = n.entries.map (·.service.id) := by
  have hid : ∀ m : Node, m.entries.map (·.service.id) = m.cores.map Service.id := by
    intro m
    rw [Node.cores, List.map_map]
    exact List.map_congr_left fun e _ => e.service.id_core.symm
  rw [hid, hid, h.cores]

theorem SameCore.hasOne {n n' : Node} {id : ServiceId} (h : n.SameCore n') (hn : n.HasOne id) :
    n'.HasOne id := by
  unfold HasOne
  rw [h.ids]
  exact hn

theorem SameCore.sound {n n' : Node} (h : n.SameCore n') (hn : n.Sound) : n'.Sound := by
  have hcore : ∀ (k : Nat) (l : Layout) (s : Service), s.core.Sound k l ↔ s.Sound k l := by
    intro k l s
    cases s <;> rfl
  have hlen : n'.entries.length = n.entries.length := by
    have hcores := congrArg List.length h.cores
    rwa [Node.cores, Node.cores, List.length_map, List.length_map] at hcores
  intro s hs
  rw [hlen, h.config, ← hcore]
  obtain ⟨e, he, rfl⟩ := List.mem_map.1 hs
  have hmem : e.service.core ∈ n.cores := by
    rw [← h.cores]
    exact List.mem_map.2 ⟨e, he, rfl⟩
  obtain ⟨e', he', heq⟩ := List.mem_map.1 hmem
  rw [← heq, hcore]
  exact hn e'.service (List.mem_map.2 ⟨e', he', rfl⟩)

/-! ## What requests do -/

section Requests

variable {n m : Node} {α : Type} {f : Service → Option (α × Service)} {es es' : List Entry} {a : α}

/-- An update reaches one service, the first that it is for. -/
theorem exists_of_updateFirst (h : updateFirst f es = some (a, es')) :
    ∃ before e after s, es = before ++ e :: after ∧ (∀ x ∈ before, f x.service = none) ∧
      f e.service = some (a, s) ∧ es' = before ++ { e with service := s } :: after := by
  induction es generalizing es' with
  | nil => contradiction
  | cons e es ih =>
    unfold updateFirst at h
    split at h
    · rename_i s hs
      obtain ⟨rfl, rfl⟩ := Prod.mk.inj (Option.some.inj h)
      exact ⟨[], e, es, s, rfl, fun _ hx => absurd hx List.not_mem_nil, hs, rfl⟩
    · rename_i hnone
      obtain ⟨⟨b, rest⟩, hrest, heq⟩ := Option.map_eq_some_iff.1 h
      obtain ⟨rfl, rfl⟩ := Prod.mk.inj heq
      obtain ⟨before, e', after, s, rfl, hbefore, hs, rfl⟩ := ih hrest
      exact ⟨e :: before, e', after, s, rfl, List.forall_mem_cons.2 ⟨hnone, hbefore⟩, hs, rfl⟩

theorem touched_append {before after : List Entry} {e : Entry} {s : Service}
    (h : e.service.Touched s) : List.Forall₂ Entry.Touched (before ++ e :: after)
      (before ++ { e with service := s } :: after) :=
  List.rel_append (List.forall₂_same.2 fun x _ => .refl x)
    (.cons ⟨rfl, h⟩ (List.forall₂_same.2 fun x _ => .refl x))

theorem touched_of_updateFirst (h : updateFirst f es = some (a, es'))
    (hf : ∀ {s s' : Service} {a : α}, f s = some (a, s') → s.Touched s') :
    List.Forall₂ Entry.Touched es es' := by
  obtain ⟨before, e, after, s, rfl, _, hs, rfl⟩ := exists_of_updateFirst h
  exact touched_append (hf hs)

theorem exists_of_produce {slot : Nat} {on : Bool} {data : List UInt8}
    (h : n.produce slot on data = .ok m) :
    ∃ entries message, EventProducer.message n.config slot on data = .ok message ∧
      m = { n with entries, queue := n.queue.put (.transmit message) } ∧
      List.Forall₂ Entry.Touched n.entries entries := by
  unfold produce at h
  dsimp only at h
  split at h
  · contradiction
  · rename_i entries hcount
    split at h
    · contradiction
    · rename_i message hmessage
      refine ⟨entries, message, hmessage, (Except.ok.inj h).symm, ?_⟩
      refine touched_of_updateFirst hcount fun {s _ _} hs => ?_
      cases s with
      | producer s =>
        rw [← (Prod.mk.inj (Option.some.inj hs)).2]
        exact .producer _ _
      | _ => contradiction

theorem exists_of_takeConsumed? {e : RecognisedEvent} (h : n.takeConsumed? = some (e, m)) :
    ∃ entries, m = { n with entries } ∧ List.Forall₂ Entry.Touched n.entries entries := by
  obtain ⟨⟨_, entries⟩, htake, heq⟩ := Option.map_eq_some_iff.1 h
  refine ⟨entries, (Prod.mk.inj heq).2.symm, ?_⟩
  refine touched_of_updateFirst htake fun {s _ _} hs => ?_
  cases s with
  | consumer s =>
    obtain ⟨_, _, heq⟩ := Option.map_eq_some_iff.1 hs
    rw [← (Prod.mk.inj heq).2]
    exact .consumer _ _
  | _ => contradiction

/-- The long message service that is replaced is the one that was found. -/
theorem exists_setLongMessage_eq {s s' : LongMessage} (h : n.longMessage? = some s)
    (hs : (Service.longMessage s).Touched (.longMessage s')) : ∃ entries,
      n.setLongMessage s' = { n with entries } ∧ List.Forall₂ Entry.Touched n.entries entries := by
  refine ⟨_, rfl, ?_⟩
  rcases hupdate : updateFirst _ n.entries with _ | ⟨u, entries⟩
  · exact List.forall₂_same.2 fun x _ => .refl x
  · obtain ⟨before, e, after, service, hsplit, hbefore, he, rfl⟩ := exists_of_updateFirst hupdate
    rw [Option.elim_some, hsplit]
    refine touched_append ?_
    rw [longMessage?, hsplit, List.findSome?_append] at h
    rcases Option.or_eq_some_iff.1 h with h | ⟨_, h⟩
    · obtain ⟨x, hx, hlong⟩ := List.exists_of_findSome?_eq_some h
      have hnone := hbefore x hx
      split at hlong
      · rename_i hservice
        rw [hservice] at hnone
        contradiction
      · contradiction
    · rw [List.findSome?_cons] at h
      rcases hservice : e.service with _ | _ | _ | _ | _ | _ | _ | x
      all_goals rw [hservice] at he h
      case longMessage =>
        obtain rfl : x = s := Option.some.inj h
        rw [← (Prod.mk.inj (Option.some.inj he)).2]
        exact hs
      all_goals contradiction

/-- What requests do: they touch services, show less, and put something in the queue. -/
theorem exists_serve_eq (n : Node) (r : Request) : ∃ entries indication queue,
    n.serve r = { n with entries, indication, queue } ∧
      List.Forall₂ Entry.Touched n.entries entries := by
  have hsame : List.Forall₂ Entry.Touched n.entries n.entries :=
    List.forall₂_same.2 fun x _ => .refl x
  -- A request to the long message service ends with the service that replaces it.
  have hlong : ∀ {s s' : LongMessage}, n.longMessage? = some s →
      (Service.longMessage s).Touched (.longMessage s') → ∃ entries indication queue,
        n.setLongMessage s' = { n with entries, indication, queue } ∧
          List.Forall₂ Entry.Touched n.entries entries := by
    intro s s' hs htouched
    obtain ⟨entries, heq, hentries⟩ := exists_setLongMessage_eq hs htouched
    exact ⟨entries, n.indication, n.queue, heq, hentries⟩
  cases r with
  | put a => exact ⟨_, _, _, rfl, hsame⟩
  | takeActivity => exact ⟨_, _, _, rfl, hsame⟩
  | produce slot on data =>
    unfold serve
    dsimp only
    rcases h : n.produce slot on data with _ | m
    · exact ⟨_, _, _, rfl, hsame⟩
    · obtain ⟨entries, message, _, rfl, hentries⟩ := exists_of_produce h
      exact ⟨_, _, _, rfl, hentries⟩
  | takeConsumed =>
    unfold serve
    dsimp only
    rcases h : n.takeConsumed? with _ | ⟨e, m⟩
    · exact ⟨_, _, _, rfl, hsame⟩
    · obtain ⟨entries, rfl, hentries⟩ := exists_of_takeConsumed? h
      exact ⟨_, _, _, rfl, hentries⟩
  | subscribe stream =>
    unfold serve
    dsimp only
    rcases h : n.longMessage?.bind (·.subscribe? stream) with _ | s'
    · exact ⟨_, _, _, rfl, hsame⟩
    · obtain ⟨s, hs, hsubscribe⟩ := Option.bind_eq_some_iff.1 h
      obtain ⟨reception, _, hs'⟩ := Option.map_eq_some_iff.1 hsubscribe
      exact hlong hs (.longMessage (Or.inl (hs' ▸ rfl)))
  | send stream payload =>
    unfold serve
    dsimp only
    rcases h : n.longMessage?.bind fun s => (s.send stream payload).toOption with _ | s'
    · exact ⟨_, _, _, rfl, hsame⟩
    · obtain ⟨s, hs, hsend⟩ := Option.bind_eq_some_iff.1 h
      exact hlong hs (.longMessage (Or.inr ⟨stream, payload, toOption_eq_some_iff.1 hsend⟩))
  | takeReceipt =>
    unfold serve
    dsimp only
    rcases h : n.longMessage?.bind (·.takeReceipt?) with _ | ⟨receipt, s'⟩
    · exact ⟨_, _, _, rfl, hsame⟩
    · obtain ⟨s, hs, htake⟩ := Option.bind_eq_some_iff.1 h
      obtain ⟨taken, _, htaken⟩ := Option.map_eq_some_iff.1 htake
      exact hlong hs (.longMessage (Or.inl ((Prod.mk.inj htaken).2 ▸ rfl)))

/-- What touching leaves of entries, they show alike before and after. -/
theorem map_eq_of_touched {β : Type} {g : Entry → β} (h : List.Forall₂ Entry.Touched es es')
    (hg : ∀ {e e' : Entry}, e.Touched e' → g e' = g e) : es'.map g = es.map g := by
  induction h with
  | nil => rfl
  | cons he _ ih => rw [List.map_cons, List.map_cons, hg he, ih]

/-- No request reaches the configuration or the services that work on it. -/
theorem sameCore_serve (n : Node) (r : Request) : n.SameCore (n.serve r) := by
  obtain ⟨entries, indication, queue, heq, hentries⟩ := n.exists_serve_eq r
  rw [heq]
  exact ⟨rfl, map_eq_of_touched hentries fun he => he.service.core_eq, rfl, rfl⟩

end Requests

end Node

end RailNode
