import RailNode.Proofs.Node.Silence
import RailNode.Proofs.Node.Stops

/-
  Whatever a node says of its own accord is well formed. Its services and reporters speak in the
  stops of its cycles, through the queue except for the release before a reset, and the application
  lets it send events. A long message service is the only one that keeps messages from one cycle to
  another, so it is for that service that runs have to be looked at (`pends_of_run`).
-/
namespace RailNode

open RailNode.Configuration

namespace Node

/-- The actions that an entry has queued, with the configurations at these moments. -/
def EntryTrace.queued (t : EntryTrace) : List (Emission Action) :=
  t.service.queued ++ t.reporter.queued

/-- What a node says next is well formed. The last clause is about what goes past the queue: the
    release with which the node gives its number up when an NNRSM message resets it. -/
structure SpeaksWell (n : Node) : Prop where
  ends : ∀ now, n.cycle now ≠ .error .fault
  queued : ∀ {now s}, n.Reaches now s → ∀ x ∈ (s.trace (n.facts now)).queued, x.WellFormed
  produced : ∀ {slot on data m}, n.produce slot on data = .ok m →
    ∃ message, m.queue = n.queue.put (.transmit message) ∧ message.WellFormed n.config.nodeNumber
  released : ∀ {now s}, n.Reaches now s → s.entry.service.id ≠ .busAccess →
    (∀ x, x ∈ (s.trace (n.facts now)).service.offered ↔
      s.Resets (n.facts now) ∧ x = ⟨s.found.config.release, s.found.config⟩) ∧
    s.found.config.release.data.WellFormed s.found.config.nodeNumber

variable {n : Node} {c : Cycle} {s : Stop}

theorem wellFormed_release (d : Configuration) : d.release.data.WellFormed d.nodeNumber :=
  Message.wellFormed_addressed Message.length_noArgs_le (by decide)

theorem Stop.wellFormed_queued (hs : s.entry.service.Pends LongMessage.IsPart) :
    ∀ x ∈ (s.trace c).queued, x.WellFormed := by
  intro x hx
  rcases List.mem_append.1 hx with hx | hx
  · have hx : x ∈ (told (s.turn c)).queued := hx
    rcases hturn : s.turn c with (⟨left, trace⟩ | _) | t
    · rw [hturn] at hx
      rcases restart_cases hturn with ⟨_, _, rfl⟩ | ⟨_, _, rfl⟩
      · exact nomatch hx
      · exact nomatch hx
    · rw [hturn] at hx
      exact nomatch hx
    · rw [hturn] at hx
      exact Service.speaksWell_turn (t := { self := s.entry.service, shared := s.found }) hs
          (fun _ h => absurd h List.not_mem_nil)
        hturn x hx
  · unfold trace at hx
    dsimp only at hx
    split at hx
    · rename_i t _
      exact Reporter.speaksWell_turn (t := { self := s.entry.reporter, shared := t.shared })
        (fun _ h => absurd h List.not_mem_nil)
        x hx
    · exact nomatch hx

/-- A sound node speaks well, as long as its long message services keep parts of long messages. -/
theorem Sound.speaksWell (hn : n.Sound) (hparts : n.Pends LongMessage.IsPart) :
    n.SpeaksWell where
  ends := hn.cycle_ne_fault
  queued h := Stop.wellFormed_queued (hparts _ h.mem_entries)
  produced h := by
    obtain ⟨entries, message, hmessage, rfl, _⟩ := exists_of_produce h
    exact ⟨message, rfl, EventProducer.wellFormed_message hmessage⟩
  released _ hid := ⟨Stop.offered_service hid, wellFormed_release _⟩

end Node

namespace Device

variable {d d' : Device} {i : Input} {inputs : List Input} {n : Node}

/-- What every node has that is put together as `Q` says, and what cycles, the driver and the
    application keep, every running node has. -/
theorem running_of_step {R : Node → Prop} {Q : Build → Prop}
    (hboot : ∀ {b : Build} {format : Bool} {d : Device} {n : Node}, Q b →
      Boots b format d (running n) → R n)
    (hcycle : ∀ {n : Node} {now : Time} {o : Node.Outcome}, n.cycle now = .ok o → R n → R o.node)
    (hlink : ∀ {n : Node} (link : Link), R n → R { n with link })
    (hserve : ∀ {n : Node} (r : Node.Request), R n → R (n.serve r))
    (hi : i.Starts Q) (h : d.step i = some d') (hd : ∀ n, d = running n → R n) :
    ∀ n, d' = running n → R n := by
  rintro n rfl
  cases i with
  | boot b format =>
    have hend : (d.boot b format).1 = running n := Option.some.inj h
    exact hboot hi (hend ▸ boots_boot b format d)
  | cycle now =>
    cases d with
    | idle store link => exact Device.noConfusion (Option.some.inj h)
    | running m =>
      simp only [step, cycle?] at h
      split at h
      · rename_i hm
        exact running.inj (Option.some.inj h) ▸ hcycle hm (hd m rfl)
      · exact Device.noConfusion (Option.some.inj h)
      · contradiction
  | deliver f =>
    have h : (d.deliver? f).getD d = running n := Option.some.inj h
    unfold deliver? at h
    rcases hf : d.link.deliver? f with _ | link
    · rw [hf] at h
      exact hd n h
    · rw [hf] at h
      cases d with
      | idle store link => exact Device.noConfusion h
      | running m => exact running.inj h ▸ hlink link (hd m rfl)
  | collect =>
    have h : d.collect.2 = running n := Option.some.inj h
    cases d with
    | idle store link => exact Device.noConfusion h
    | running m => exact running.inj h ▸ hlink _ (hd m rfl)
  | ask r =>
    cases d with
    | idle store link => exact Device.noConfusion (Option.some.inj h)
    | running m => exact running.inj (Option.some.inj h) ▸ hserve r (hd m rfl)
  | factoryRestart =>
    cases d with
    | idle store link => exact Device.noConfusion (Option.some.inj h)
    | running m => exact Device.noConfusion (Option.some.inj h)

/-- A node is put together from new services, and what they still have to send are parts of long
    messages. -/
structure SpeaksInParts (b : Build) : Prop where
  isNew : ∀ s ∈ b.services, s.IsNew
  parts : ∀ s ∈ b.services, s.Pends LongMessage.IsPart

theorem pends_of_run (hi : ∀ i ∈ inputs, i.Starts SpeaksInParts)
    (h : d.run inputs = some d') (hd : ∀ n, d = running n → n.Sound ∧ n.Pends LongMessage.IsPart) :
    ∀ n, d' = running n → n.Sound ∧ n.Pends LongMessage.IsPart := by
  refine run_preserves (P := fun d => ∀ n, d = running n → n.Sound ∧ n.Pends _) h ?_ hi hd
  intro d d' i hi hstep hd
  refine running_of_step (Q := SpeaksInParts) ?_ ?_ ?_ ?_ hi hstep hd
  · intro b format d n hb hboot
    refine ⟨sound_of_boots hb.isNew hboot, ?_⟩
    cases hboot with
    | started c n _ _ _ _ hentries _ =>
      intro e he
      rw [hentries] at he
      obtain ⟨s, hs, rfl⟩ := List.mem_map.1 he
      exact hb.parts s hs
  · exact fun hcycle hn => ⟨hn.1.cycle hcycle, hn.2.cycle hcycle⟩
  · exact fun _ hn => hn
  · exact fun r hn => ⟨(Node.sameCore_serve _ r).sound hn.1, hn.2.serve id r⟩

/-- In every run, from any store and with any services, every node that runs speaks well. -/
theorem speaksWell_of_run {store : Store} {link : Link}
    (hi : ∀ i ∈ inputs, i.Starts SpeaksInParts)
    (h : (idle store link).run inputs = some (running n)) : n.SpeaksWell := by
  obtain ⟨hsound, hparts⟩ := pends_of_run hi h (fun _ hidle => nomatch hidle) n rfl
  exact hsound.speaksWell hparts

/-- A small device with a service for long messages. -/
def talkativeBuild : Build :=
  { smallBuild with services := [.minimumNode {}, .longMessage (.ofCapacities .standard 8 8)] }

theorem speaksInParts_talkativeBuild : SpeaksInParts talkativeBuild := by
  constructor <;> intro s hs
  all_goals
    simp only [talkativeBuild, List.mem_cons, List.not_mem_nil, or_false] at hs
    rcases hs with rfl | rfl
  · rfl
  · trivial
  · trivial
  · exact nofun

/-- A session in which a node gets the number 300. Then it is to send a long message, and the user
    asks for another number. -/
def talkativeSession : List Input :=
  [.boot talkativeBuild false, .ask (.put .advanceMode),
      .ask (.put (.received (.addressed Opcode.snn.byte 300 [])))] ++
    List.replicate 8 (.cycle 0) ++ [.ask (.send 3 [1, 2]), .ask (.put .advanceMode)]

/-- In the next cycle the node gives its number up and sends the header of the message. Both are
    well formed. -/
theorem speaksWell_of_talkativeSession :
    ∃ n, smallDevice.run talkativeSession = some (running n) ∧ n.SpeaksWell ∧
      ∀ m ∈ [Message.addressed Opcode.nnrel.byte 300 [], LongMessage.header 3 2],
        m.WellFormed 300 ∧ ∃ s x, n.Reaches 0 s ∧ x ∈ (s.trace (n.facts 0)).queued ∧
          x.item = .transmit m ∧ x.config.nodeNumber = 300 := by
  have hrun : ((smallDevice.run talkativeSession).bind node?).any (fun n =>
      (n.cycle 0).toOption.any fun o =>
        [Message.addressed Opcode.nnrel.byte 300 [], LongMessage.header 3 2].all fun m =>
          o.traces.any fun t => t.queued.any fun x =>
            x.item == .transmit m && x.config.nodeNumber == 300) = true := by
    decide +kernel
  obtain ⟨n, hn, h⟩ := exists_running hrun
  have hstarts : ∀ i ∈ talkativeSession, i.Starts SpeaksInParts := by
    intro i hi
    simp only [talkativeSession, List.mem_append, List.mem_cons, List.mem_replicate,
      List.not_mem_nil, or_false] at hi
    rcases hi with ((rfl | rfl | rfl) | ⟨_, rfl⟩) | rfl | rfl
    · exact speaksInParts_talkativeBuild
    all_goals trivial
  have hspeaks := speaksWell_of_run hstarts hn
  refine ⟨n, hn, hspeaks, fun m hm => ?_⟩
  obtain ⟨o, ho, hall⟩ := Option.any_eq_true _ _ |>.1 h
  obtain ⟨t, ht, hqueued⟩ := List.any_eq_true.1 (List.all_eq_true.1 hall m hm)
  obtain ⟨x, hx, hitem⟩ := List.any_eq_true.1 hqueued
  rw [Bool.and_eq_true, beq_iff_eq, beq_iff_eq] at hitem
  obtain ⟨s, hs, rfl⟩ := Node.exists_reaches_of_cycle (toOption_eq_some_iff.1 ho) ht
  refine ⟨?_, s, x, hs, hx, hitem.1, hitem.2⟩
  have hwell := hspeaks.queued hs x hx m hitem.1
  rwa [hitem.2] at hwell

end Device

end RailNode
