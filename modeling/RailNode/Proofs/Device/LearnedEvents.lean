import RailNode.Proofs.Device.Run
import RailNode.Proofs.Service.Learning

/-
  The learned events over runs of a device that starts from a factory reset. No event is ever
  stored twice, so the table is a finite map; each command of the teaching service is the operation
  on the map that it stands for, and nothing else that happens in a cycle touches the map.
-/
namespace RailNode

open RailNode.Configuration

namespace Configuration

/-- The bytes of every record are the same. -/
def SameRecords (c d : Configuration) : Prop :=
  d.layout = c.layout ∧
    ∀ slot < c.layout.slots, ∀ i < c.layout.recordSize, d.recordByte slot i = c.recordByte slot i

variable {c d e : Configuration}

theorem SameRecords.trans (h : SameRecords c d) (h' : SameRecords d e) : SameRecords c e :=
  ⟨h'.1.trans h.1, fun slot hs i hi =>
    (h'.2 slot (by rw [h.1]; exact hs) i (by rw [h.1]; exact hi)).trans (h.2 slot hs i hi)⟩

theorem ChangesOnly.sameRecords {A : List Part} (h : ChangesOnly A c d)
    (hA : Part.records ∉ A) : SameRecords c d :=
  ⟨h.layout, fun _ hs _ hi => h.recordByte hA hs hi⟩

theorem SameRecords.table (h : SameRecords c d) : d.table = c.table :=
  table_congr h.1 (fun _ hs => record?_congr h.1 (recordHeader_congr (h.2 _ hs)) hs)
    fun _ hs => variables_congr h.1 (h.2 _ hs)

theorem stored_unique : Stored Unique := fun _ _ hl hs hu =>
  unique_congr hl (fun slot _ => record?_congr_store hl hs slot) hu

end Configuration

/-! ## Cycles -/

namespace Teaching

/-- The parts that the other services may change. -/
def otherParts : List Part := [.mode, .number, .address, .flags, .learning, .nodeVariables]

theorem parts_subset_otherParts {s : Service} (h : s.id ≠ .teaching) : s.parts ⊆ otherParts := by
  cases s with
  | teaching _ => exact absurd rfl h
  | _ => simp only [Service.parts]; decide

theorem sameRecords_of_others {c d : Configuration} (h : Edits otherParts c d) :
    SameRecords c d := h.changesOnly.sameRecords (by decide)

/-- In a cycle a command has been obeyed or refused by the service, which found `found`: the map of
    the node is the one that the command asks for, or no record has changed, and the answers have
    been queued, before at most one report of the table. -/
structure Obeys (command : Opcode) (result : Except CommandError EventTable) (found : Shared)
    (n : Node) (o : Node.Outcome) : Prop where
  table : ∀ T, result = .ok T → o.node.config.table = T
  records : ∀ e, result = .error e → SameRecords n.config o.node.config
  given : ∃ reports,
    n.givenBy .teaching o = answers found.config.nodeNumber command result ++ reports ∧
      (∀ a ∈ reports, IsReport a) ∧ reports.length ≤ 1

variable {n : Node} {now : Time} {m : Message} {o : Node.Outcome}

/-- What the visit of the only teaching service in a cycle consists of. -/
theorem visit (hone : n.HasOne .teaching) (h : n.cycle now = .ok o) :
    ∃ found s, ∃ t : Turn Teaching, n.foundBy .teaching now = .ok found ∧
      Edits otherParts n.config found.config ∧
      turn (n.facts now) { self := s, shared := found } = .ok t ∧
      n.givenBy .teaching o = t.given ∧ Edits otherParts t.config o.node.config := by
  obtain ⟨e, _, he, found, t, hfound, hbefore, hturn, hgiven, hafter, _⟩ :=
    Node.visit_of_cycle hone (fun s => parts_subset_otherParts) h
  obtain ⟨s, hs⟩ := exists_teaching he
  unfold Service.turn at hturn
  rw [hs] at hturn
  obtain ⟨u, hu, rfl⟩ := map_eq_ok_iff.1 hturn
  exact ⟨found, s, u, hfound, hbefore, hu, hgiven, hafter⟩

theorem received?_facts : (n.facts now).received? = some m ↔
    n.nextAction.1 = some (.received m) := by
  unfold Cycle.received? Node.facts
  dsimp only
  split
  · rename_i h
    rw [h]
    simp
  · rename_i h
    exact iff_of_false (by simp) fun hm => h m hm

theorem obeys_of_cycle {command : Opcode} {result : Except CommandError EventTable}
    {found : Shared} (hone : n.HasOne .teaching) (hc : n.config.IndexAgrees)
    (hu : n.config.Unique) (hm : n.nextAction.1 = some (.received m))
    (h : n.cycle now = .ok o) (hfound : n.foundBy .teaching now = .ok found)
    (hdemand : demandIn? m found.config = some (command, result))
    (hne : command = .evlrn → ¬ m.TeachesErased n.config.layout) :
    Obeys command result found n o := by
  obtain ⟨found', s, t, hfound', hbefore, hturn, hgiven, hafter⟩ := visit hone h
  rw [hfound] at hfound'
  cases Except.ok.inj hfound'
  rw [← hbefore.changesOnly.layout] at hne
  obtain ⟨t', ht', hanswered⟩ := answered_turn (t := { self := s, shared := found })
    (hbefore.indexAgrees hc) (hu.edits hc hbefore) (received?_facts.2 hm) hdemand hne
  rw [hturn] at ht'
  cases Except.ok.inj ht'
  refine ⟨fun T hT => ?_, fun e he => ?_, ?_⟩
  · rw [(sameRecords_of_others hafter).table, hanswered.table T hT]
  · have hsame := sameRecords_of_others hafter
    rw [hanswered.config e he] at hsame
    exact (sameRecords_of_others hbefore).trans hsame
  · obtain ⟨reports, hreports⟩ := hanswered.given
    exact ⟨reports, by rw [hgiven]; exact hreports.1, hreports.2⟩

/-- Without a command for the service a cycle leaves the records. -/
theorem sameRecords_of_cycle (hone : n.HasOne .teaching) (h : n.cycle now = .ok o)
    (hdemand : ∀ m found, n.nextAction.1 = some (.received m) →
      n.foundBy .teaching now = .ok found → demandIn? m found.config = none) :
    SameRecords n.config o.node.config := by
  obtain ⟨found, s, t, hfound, hbefore, hturn, _, hafter⟩ := visit hone h
  obtain ⟨t', ht', hch⟩ := changesOnly_turn (c := n.facts now)
    (t := { self := s, shared := found })
    fun m hm => hdemand m found (received?_facts.1 hm) hfound
  rw [hturn] at ht'
  cases Except.ok.inj ht'
  have hsame := hch.sameRecords (by decide)
  exact (sameRecords_of_others hbefore).trans (hsame.trans (sameRecords_of_others hafter))

/-- The table of a node with this layout is a finite map of limited size, each command about it is
    the operation on the map that it stands for, and nothing else changes it. What counts is
    whether learn mode is on when the service gets its turn. -/
structure RefinesMap (l : Layout) (n : Node) : Prop where
  /-- No two occupied slots hold the same event. -/
  unique : ∀ slot < l.slots, ∀ slot' < l.slots, n.config.isFree slot = false →
    n.config.isFree slot' = false → n.config.event slot = n.config.event slot' → slot = slot'
  card_le : n.config.table.keys.card ≤ l.slots
  length_eq : ∀ e vs, n.config.table.lookup e = some vs → vs.length = l.eventVariables
  /-- Only what a complete lesson about the erased event does is left open; with a variable that
      there is not, or incomplete, it is refused like any other. -/
  learn : ∀ now m, n.nextAction.1 = some (.received m) → m.opcode? = some .evlrn →
    ∃ found o, n.foundBy .teaching now = .ok found ∧ n.cycle now = .ok o ∧
      (found.config.learning = true → ¬ m.TeachesErased l →
        Obeys .evlrn (n.config.table.obeyLearn l m) found n o)
  unlearn : ∀ now m, n.nextAction.1 = some (.received m) → m.opcode? = some .evuln →
    ∃ found o, n.foundBy .teaching now = .ok found ∧ n.cycle now = .ok o ∧
      (found.config.learning = true → Obeys .evuln (n.config.table.obeyUnlearn m) found n o)
  clear : ∀ now m, n.nextAction.1 = some (.received m) → m.opcode? = some .nnclr →
    ∃ found o, n.foundBy .teaching now = .ok found ∧ n.cycle now = .ok o ∧
      (m.nodeNumber? = some found.config.nodeNumber →
        Obeys .nnclr (if found.config.learning then .ok ∅ else .error .notInLearnMode) found n o)
  others : ∀ now o, n.cycle now = .ok o → (∀ m found, n.nextAction.1 = some (.received m) →
    n.foundBy .teaching now = .ok found → demandIn? m found.config = none) →
      SameRecords n.config o.node.config

/-- A cycle with a command for the service comes to its end. -/
theorem exists_cycle (hone : n.HasOne .teaching) (hsound : n.Sound)
    (hm : n.nextAction.1 = some (.received m))
    (ho : m.opcode? ≠ some .nnrst ∧ m.opcode? ≠ some .nnrsm) (now : Time) :
    ∃ found o, n.foundBy .teaching now = .ok found ∧ n.cycle now = .ok o ∧
      SameRecords n.config found.config := by
  obtain ⟨o, hcycle⟩ := hsound.exists_cycle now fun m' hm' => by
    rw [received?_facts, hm] at hm'
    cases hm'
    exact ho
  obtain ⟨found, s, t, hfound, hbefore, _⟩ := visit hone hcycle
  exact ⟨found, o, hfound, hcycle, sameRecords_of_others hbefore⟩

theorem demandIn?_of_sameRecords {c d : Configuration} (h : SameRecords c d) :
    demandIn? m d = demand? c.layout d.nodeNumber d.learning m c.table := by
  rw [demandIn?, h.1, h.table]

theorem refinesMap (hone : n.HasOne .teaching) (hsound : n.Sound) (hc : n.config.IndexAgrees)
    (hu : n.config.Unique) : RefinesMap n.config.layout n where
  unique slot hs slot' hs' hf hf' he := by
    have hheld : ∀ j < n.config.layout.slots, n.config.isFree j = false →
        ∃ e, n.config.record? j = some e := by
      intro j hj hfree
      have hv : ¬ n.config.Vacant j := fun hv => by
        rw [(hc.isFree_iff hj).2 hv] at hfree
        contradiction
      exact Option.ne_none_iff_exists'.1 (mt (record?_eq_none_iff hj).1 hv)
    obtain ⟨e, hrecord⟩ := hheld slot hs hf
    obtain ⟨e', hrecord'⟩ := hheld slot' hs' hf'
    rw [event_of_record? _ hs hrecord, event_of_record? _ hs' hrecord'] at he
    cases Except.ok.inj he
    exact hu slot hs slot' hs' e hrecord hrecord'
  card_le := by
    rw [hu.card_keys_table, ← hc.storedCount_eq]
    have := n.config.storedCount_add_freeCount
    omega
  length_eq _ _ h := hu.length_of_lookup_table h
  learn now m hm ho := by
    obtain ⟨found, o, hfound, hcycle, hsame⟩ :=
      exists_cycle hone hsound hm (by rw [ho]; decide) now
    refine ⟨found, o, hfound, hcycle, fun hl hne => ?_⟩
    refine obeys_of_cycle hone hc hu hm hcycle hfound ?_ fun _ => hne
    rw [demandIn?_of_sameRecords hsame, demand?, ho, hl]
    rfl
  unlearn now m hm ho := by
    obtain ⟨found, o, hfound, hcycle, hsame⟩ :=
      exists_cycle hone hsound hm (by rw [ho]; decide) now
    refine ⟨found, o, hfound, hcycle, fun hl => ?_⟩
    refine obeys_of_cycle hone hc hu hm hcycle hfound ?_ nofun
    rw [demandIn?_of_sameRecords hsame, demand?, ho, hl]
    rfl
  clear now m hm ho := by
    obtain ⟨found, o, hfound, hcycle, hsame⟩ :=
      exists_cycle hone hsound hm (by rw [ho]; decide) now
    refine ⟨found, o, hfound, hcycle, fun hnamed => ?_⟩
    refine obeys_of_cycle hone hc hu hm hcycle hfound ?_ nofun
    rw [demandIn?_of_sameRecords hsame, demand?, ho]
    exact if_pos hnamed
  others now o hcycle hdemand := sameRecords_of_cycle hone hcycle hdemand

end Teaching

/-! ## Runs -/

namespace Device

/-- From a factory reset on, no event is ever stored twice. -/
theorem holds_unique_of_run {l : Layout} {d d' : Device} {inputs : List Input}
    (h : d.run inputs = some d') (hi : ∀ i ∈ inputs, i.Starts (·.layout = l))
    (hd : Holds l Unique d) : Holds l Unique d' :=
  run_preserves h
    (fun hi hstep hd => hd.of_moves stored_unique
      (fun c => unique_of_forall_vacant c.vacant_factoryReset) (fun hc he hu => hu.edits hc he) hi
      (moves_of_step hstep))
    hi hd

/-- In every state of every run from a factory reset, the table of learned events of a node with
    one teaching service is a finite map, and the service works on it as on a map. -/
theorem refinesMap_of_run {c : Configuration} {link : Link} {inputs : List Input} {n : Node}
    (hstart : ∀ i ∈ inputs, i.Starts fun b => b.layout = c.layout ∧ b.HasOne .teaching)
    (h : (idle c.factoryReset.store link).run inputs = some (running n)) :
    Teaching.RefinesMap c.layout n := by
  have hlayout : ∀ i ∈ inputs, i.Starts (·.layout = c.layout) :=
    fun i hi => (hstart i hi).imp And.left
  have hbuild : ∀ i ∈ inputs, i.Starts (Build.HasOne .teaching) :=
    fun i hi => (hstart i hi).imp And.right
  have hholds := holds_unique_of_run h hlayout
    (holds_idle c.factoryReset stored_unique c.layout_factoryReset
      (unique_of_forall_vacant c.vacant_factoryReset))
  obtain ⟨hone, hsound⟩ := hasOne_of_run h hbuild (fun _ h => Device.noConfusion h) n rfl
  have hl := hholds.layout n rfl
  exact hl ▸ Teaching.refinesMap hone hsound (hholds.index n rfl) (hholds.store n.config hl rfl)

theorem refinesMap_of_learningSession :
    ∃ n, smallDevice.run learningSession = some (running n) ∧
      n.config.find ⟨1, 2⟩ = .ok 0 ∧ Teaching.RefinesMap smallConfiguration.layout n := by
  obtain ⟨n, hn, hfind⟩ := exists_learningSession
  have hbuild : smallBuild.HasOne .teaching := hasOne_smallBuild (by decide)
  exact ⟨n, hn, hfind, refinesMap_of_run (starts_session ⟨rfl, hbuild⟩ _) hn⟩

end Device

end RailNode
