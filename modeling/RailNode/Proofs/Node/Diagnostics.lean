import RailNode.Proofs.Device.Addressing
import RailNode.Proofs.Device.Quiet
import RailNode.Proofs.Node.Silence
import RailNode.Proofs.Node.Stops
import RailNode.Proofs.Service.Diagnostics

/-
  What a node answers to a complete request for a diagnostic value. At each stop of the cycle the
  service and its reporter decide for themselves, and see no more than the position of the entry
  and how many services there are (`Stop.filter_trace`). Together they give one set of answers
  (`Diagnosed`): every service that has the value reports it, or the one service reports or refuses
  it, or the service that every node has refuses the index. Kinds of services may repeat, so all
  of this goes by the position of an entry.
-/
namespace RailNode.Node

/-! ## The answers at a stop -/

namespace Stop

variable {c : Cycle} {s : Stop} {m : Message} {index code : UInt8}

/-- The diagnostic value that the service has after its turn. -/
def value? (c : Cycle) (code : Nat) (s : Stop) : Option UInt16 :=
  (s.turn c).toOption.bind fun t => t.self.diagnostic? c t.shared code

/-- The report of that value. -/
def report (c : Cycle) (number : UInt16) (code : Nat) (s : Stop) : Action :=
  diagnosis number s.position code ((s.value? c code).getD 0)

/-- How many diagnostic values the service has. -/
def count (s : Stop) : Nat := s.entry.service.diagnosticCount

/-- The code that is due of a long answer to an earlier request. -/
def due? (c : Cycle) (s : Stop) : Option Nat :=
  (Series.pollLeft c.now c.timing.replyGap s.entry.reporter.listing).1

/-- What the service and its reporter answer. -/
def answers (c : Cycle) (number : UInt16) (index code : Nat) (s : Stop) : List Action :=
  (if s.entry.service.id = .minimumNode ∧ c.services.length < index then
      [rejection number .minimumNode .invalidService]
    else []) ++
    Reporter.answers number s.entry.service s.position index code ((s.value? c code).getD 0)

theorem exists_value (c : Cycle) {code : Nat} (hcode : code ≠ 0) (hle : code ≤ s.count)
    {t : Turn Service} (ht : s.turn c = .ok t) : ∃ value, s.value? c code = some value := by
  have hcount : t.self.diagnosticCount = s.count := by
    rw [Service.diagnosticCount_eq, Service.id_turn ht, count, Service.diagnosticCount_eq]
  obtain ⟨value, hvalue⟩ := t.self.exists_diagnostic? c t.shared (Nat.pos_of_ne_zero hcode)
    (hcount ▸ hle)
  refine ⟨value, ?_⟩
  rw [value?, ht]
  exact hvalue

/-- At a stop the request is answered, and then a long answer to an earlier one goes on. -/
theorem filter_trace (hm : c.action = some (.received m))
    (hx : m.AsksFor s.found.config.nodeNumber index code) (hs : s.entry.service.HasFragments)
    {t : Turn Service} (ht : s.turn c = .ok t)
    (hnumber : t.config.nodeNumber = s.found.config.nodeNumber) :
    ∃ value, (s.trace c).actions.filter Action.diagnoses =
      s.answers c s.found.config.nodeNumber index.toNat code.toNat ++
        (s.due? c).toList.map fun k =>
          diagnosis s.found.config.nodeNumber s.position k value := by
  have hservice := Service.filter_turn hm hx hs ht
  obtain ⟨value, hreporter⟩ := Reporter.filter_turn t.self s.position
    (t := { self := s.entry.reporter, shared := t.shared }) hm (hnumber.symm ▸ hx) rfl
  have hself : Reporter.answers s.found.config.nodeNumber t.self =
      Reporter.answers s.found.config.nodeNumber s.entry.service := by
    unfold Reporter.answers
    rw [Service.diagnosticCount_eq, Service.id_turn ht, ← Service.diagnosticCount_eq]
  have hactions : (s.trace c).actions = t.given ++ (Reporter.turn c t.self s.position
      { self := s.entry.reporter, shared := t.shared }).given := by
    unfold trace
    rw [ht]
    rfl
  refine ⟨value, ?_⟩
  rw [hactions, List.filter_append, hservice, hreporter, answers, value?, ht, ← hself, ← hnumber,
    List.append_assoc]
  rfl

end Stop

/-! ## The answers of a cycle -/

/-- What is queued about a request for the diagnostic value with a code, of the service with an
    index or of all of them: `answers s` at the stop `s`, and behind it what an earlier request has
    left to be told there. -/
structure Diagnosed (now : Time) (n : Node) (o : Outcome) (index code : Nat)
    (answers : Stop → List Action) : Prop where
  queued : ∃ earlier : Stop → List Action,
    o.queued.filter Action.diagnoses = (n.stops now).flatMap (fun s => answers s ++ earlier s) ∧
    ∀ s ∈ n.stops now, ∃ value, earlier s = (s.due? (n.facts now)).toList.map fun k =>
      diagnosis n.config.nodeNumber s.position k value
  value : ∀ s ∈ n.stops now, code ≤ s.count →
    ∃ t value, s.turn (n.facts now) = .ok t ∧
      t.self.diagnostic? (n.facts now) t.shared code = some value ∧
      s.report (n.facts now) n.config.nodeNumber code =
        diagnosis n.config.nodeNumber s.position code value
  all : index = 0 → (n.stops now).flatMap answers = ((n.stops now).filter (code ≤ ·.count)).map
    (Stop.report (n.facts now) n.config.nodeNumber code)
  one : ∀ s ∈ n.stops now, s.position = index → (n.stops now).flatMap answers =
    [if code ≤ s.count then s.report (n.facts now) n.config.nodeNumber code
      else rejection n.config.nodeNumber s.entry.service.id .invalidDiagnostic]
  none : n.entries.length < index → (n.stops now).flatMap answers =
    [rejection n.config.nodeNumber .minimumNode .invalidService]

variable {n m : Node} {now : Time} {o : Outcome} {x : Message} {index code : UInt8} {s : Stop}

theorem map_stops (h : n.cycle now = .ok o) :
    (n.stops now).map Stop.entry = n.entries ∧
      (n.stops now).map Stop.position = List.range' 1 n.entries.length ∧
      (n.stops now).map (Stop.trace (n.facts now)) = o.traces := by
  obtain ⟨r, hr, rfl⟩ := cycle_eq_ok h
  exact map_stopsOf hr

/-- A request for diagnostics assigns no number. -/
theorem not_assigns_of_asksFor (ha : n.nextAction.1 = some (.received x))
    (hx : x.AsksFor n.config.nodeNumber index code) (number : UInt16) :
    ¬ Standing.Assigns number n.nextAction.1 := by
  rintro ⟨y, hy, ho, _⟩
  rw [ha] at hy
  obtain rfl := Action.received.inj (Option.some.inj hy)
  rw [hx.opcode] at ho
  contradiction

/-- In such a cycle every stop finds the number of the node, and leaves it. -/
theorem Recalls.nodeNumber_stop (hn : n.Recalls)
    (hno : ∀ k, ¬ Standing.Assigns k n.nextAction.1) (hs : n.Reaches now s) :
    s.found.config.nodeNumber = n.config.nodeNumber ∧
      ∀ t, s.turn (n.facts now) = .ok t → t.config.nodeNumber = s.found.config.nodeNumber := by
  obtain ⟨first, after, r, hsplit, -, hfirst⟩ := hs
  have hentries := hn.entries
  have hfound : s.found.config.nodeNumber = n.config.nodeNumber := by
    refine nodeNumber_turns (c := n.facts now) hno (fun e he => hentries e ?_) hfirst
    rw [hsplit]
    exact List.mem_append_left _ he
  refine ⟨hfound, fun t ht => Service.nodeNumber_turn hno (fun y hy g hg => ?_) ht⟩
  have hmem : s.entry ∈ n.entries := by
    rw [hsplit]
    exact List.mem_append_right _ List.mem_cons_self
  exact (hentries s.entry hmem y hy g hg).trans hfound.symm

/-! ## Lists of answers -/

theorem flatMap_ite {α β : Type} (p : α → Bool) (f : α → β) (l : List α) :
    (l.flatMap fun a => if p a then [f a] else []) = (l.filter p).map f := by
  induction l with
  | nil => rfl
  | cons a l ih =>
    rw [List.flatMap_cons, ih, List.filter_cons]
    cases p a <;> rfl

/-- Where all but one of several have no answer, the answer is that one's. -/
theorem flatMap_eq_of_forall {α β κ : Type} {l : List α} {key : α → κ} {f : α → List β} {a : α}
    (ha : a ∈ l) (hl : (l.map key).Nodup) (hnone : ∀ b ∈ l, key b ≠ key a → f b = []) :
    l.flatMap f = f a := by
  obtain ⟨before, after, rfl⟩ := List.append_of_mem ha
  rw [List.map_append, List.map_cons, List.nodup_append, List.nodup_cons] at hl
  obtain ⟨-, ⟨hafter, -⟩, hdisjoint⟩ := hl
  have hfirst : before.flatMap f = [] := by
    refine List.flatMap_eq_nil_iff.2 fun b hb => hnone b (List.mem_append_left _ hb) ?_
    exact hdisjoint _ (List.mem_map_of_mem hb) _ List.mem_cons_self
  have hlast : after.flatMap f = [] := by
    refine List.flatMap_eq_nil_iff.2 fun b hb => hnone b ?_ fun heq => hafter ?_
    · exact List.mem_append_right _ (List.mem_cons_of_mem _ hb)
    · exact heq ▸ List.mem_map_of_mem hb
  rw [List.flatMap_append, List.flatMap_cons, hfirst, hlast, List.nil_append, List.append_nil]

section Answers

variable {c : Cycle} {number : UInt16} {stops : List Stop} {index code : Nat}

/-- A request with the index 0 is answered at every stop that has the value. -/
theorem flatMap_answers_zero :
    stops.flatMap (Stop.answers c number 0 code) =
      (stops.filter (code ≤ ·.count)).map (Stop.report c number code) := by
  rw [← flatMap_ite]
  refine List.flatMap_congr fun s _ => ?_
  unfold Stop.answers Reporter.answers
  rw [if_neg fun h => Nat.not_lt_zero _ h.2, if_pos (Or.inl rfl), if_pos rfl, List.nil_append]
  simp only [decide_eq_true_eq]
  rfl

/-- A request with the position of a stop is answered there and nowhere else. -/
theorem flatMap_answers_position (hpositions : (stops.map Stop.position).Nodup) (hs : s ∈ stops)
    (hle : s.position ≤ c.services.length) (hpos : s.position ≠ 0) :
    stops.flatMap (Stop.answers c number s.position code) =
      [if code ≤ s.count then s.report c number code
        else rejection number s.entry.service.id .invalidDiagnostic] := by
  rw [flatMap_eq_of_forall hs hpositions]
  · unfold Stop.answers Reporter.answers
    rw [if_neg fun h => Nat.not_lt.2 hle h.2, if_pos (Or.inr rfl), if_neg hpos, List.nil_append]
    unfold Stop.count
    split_ifs <;> rfl
  · intro b _ hne
    unfold Stop.answers Reporter.answers
    rw [if_neg fun h => Nat.not_lt.2 hle h.2, if_neg (by omega), List.nil_append]

/-- A request with an index behind all positions is answered by the service that every node
    has. -/
theorem flatMap_answers_above (hpositions : ∀ s ∈ stops, s.position ≤ c.services.length)
    (hlt : c.services.length < index)
    (hone : stops.countP (·.entry.service.id == .minimumNode) = 1) :
    stops.flatMap (Stop.answers c number index code) =
      [rejection number .minimumNode .invalidService] := by
  have hanswers : ∀ s ∈ stops, s.answers c number index code =
      if s.entry.service.id == .minimumNode then [rejection number .minimumNode .invalidService]
      else [] := by
    intro s hs
    have hposition := hpositions s hs
    unfold Stop.answers Reporter.answers
    rw [if_neg (by omega : ¬ (index = 0 ∨ index = s.position)), List.append_nil]
    simp only [hlt, and_true, beq_iff_eq]
  rw [List.countP_eq_length_filter] at hone
  obtain ⟨s, hs⟩ := List.length_eq_one_iff.1 hone
  rw [List.flatMap_congr hanswers, flatMap_ite, hs]
  rfl

end Answers

/-! ## Cycles and runs -/

theorem position_of_mem_stops (h : n.cycle now = .ok o) (hs : s ∈ n.stops now) :
    1 ≤ s.position ∧ s.position ≤ n.entries.length := by
  have hmem := List.mem_map_of_mem (f := Stop.position) hs
  rw [(map_stops h).2.1, List.mem_range'_1] at hmem
  omega

/-- Every stop of a cycle answers the request that the cycle has begun with. -/
theorem Recalls.filter_trace (hn : n.Recalls) (hfragments : n.HasFragments)
    (ha : n.nextAction.1 = some (.received x)) (hx : x.AsksFor n.config.nodeNumber index code)
    (h : n.cycle now = .ok o) (hs : s ∈ n.stops now) :
    ∃ value, (s.trace (n.facts now)).actions.filter Action.diagnoses =
      s.answers (n.facts now) n.config.nodeNumber index.toNat code.toNat ++
        (s.due? (n.facts now)).toList.map fun k =>
          diagnosis n.config.nodeNumber s.position k value := by
  have hreaches := reaches_of_mem_stops h hs
  obtain ⟨t, ht⟩ := hreaches.exists_turn h
  obtain ⟨hfound, hleft⟩ := hn.nodeNumber_stop (not_assigns_of_asksFor ha hx) hreaches
  rw [← hfound] at hx ⊢
  exact Stop.filter_trace ha hx (hfragments _ hreaches.mem_entries) ht (hleft t ht)

theorem diagnosed_of_cycle (hone : n.HasOne .minimumNode) (hn : n.Recalls)
    (hfragments : n.HasFragments) (ha : n.nextAction.1 = some (.received x))
    (hx : x.AsksFor n.config.nodeNumber index code) (h : n.cycle now = .ok o) :
    Diagnosed now n o index.toNat code.toNat
      (Stop.answers (n.facts now) n.config.nodeNumber index.toNat code.toNat) := by
  obtain ⟨hentries, hpositions, htraces⟩ := map_stops h
  have hcode : code.toNat ≠ 0 := fun hzero => hx.code_ne (UInt8.toNat_inj.1 hzero)
  have hbounds : ∀ s ∈ n.stops now, s.position ≤ (n.facts now).services.length := by
    intro s hs
    rw [length_services]
    exact (position_of_mem_stops h hs).2
  choose! value hvalue using fun s (hs : s ∈ n.stops now) =>
    hn.filter_trace hfragments ha hx h hs
  refine ⟨⟨fun s => (s.due? (n.facts now)).toList.map fun k =>
    diagnosis n.config.nodeNumber s.position k (value s), ?_, fun s _ => ⟨value s, rfl⟩⟩,
    ?_, ?_, ?_, ?_⟩
  · rw [Outcome.queued, ← htraces, List.flatMap_map, List.filter_flatMap]
    exact List.flatMap_congr hvalue
  · intro s hs hle
    obtain ⟨t, ht⟩ := (reaches_of_mem_stops h hs).exists_turn h
    obtain ⟨v, hv⟩ := s.exists_value (n.facts now) hcode hle ht
    refine ⟨t, v, ht, ?_, by rw [Stop.report, hv]; rfl⟩
    rwa [Stop.value?, ht] at hv
  · intro hzero
    rw [hzero]
    exact flatMap_answers_zero
  · intro s hs hposition
    rw [← hposition]
    refine flatMap_answers_position ?_ hs (hbounds s hs)
      (Nat.ne_of_gt (position_of_mem_stops h hs).1)
    rw [hpositions]
    exact List.nodup_range'
  · intro hlt
    refine flatMap_answers_above hbounds ((n.length_services now).symm ▸ hlt) ?_
    rw [HasOne, ← hentries, List.map_map, List.count, List.countP_map] at hone
    exact hone

/-- Only so many services are put together. -/
theorem length_services_of_boot {b : Build} {format : Bool} {d : Device}
    (h : (d.boot b format).1 = .running n) : b.services.length ≤ maxServices := by
  unfold Device.boot at h
  split at h
  · contradiction
  · dsimp only at h
    split at h
    · contradiction
    · rename_i hassemble
      exact (Device.config_of_assemble? hassemble).2

/-- In every state that a node can reach after a start, whatever services it has besides the one for
    its number and whatever its store holds: a cycle that takes a complete request for a diagnostic
    value from the queue comes to its end, and queues one set of answers to it. The stops of the
    cycle are the entries of the node in their order, of which the first has the position 1. -/
theorem diagnosed_of_run {b : Build} {format : Bool} {d : Device} {inputs : List Input}
    {events : List Event} (hb : b.HasOne .minimumNode)
    (hfragments : ∀ s ∈ b.services, s.HasFragments)
    (hboot : (d.boot b format).1 = .running n) (h : n.run inputs = some (m, events))
    (ha : m.nextAction.1 = some (.received x)) (hx : x.AsksFor m.config.nodeNumber index code)
    (now : Time) :
    m.entries.length = b.services.length ∧ b.services.length ≤ maxServices ∧
      ∃ o answers, m.cycle now = .ok o ∧
        (m.stops now).map Stop.entry = m.entries ∧
        (m.stops now).map Stop.position = List.range' 1 m.entries.length ∧
        Diagnosed now m o index.toNat code.toNat answers := by
  have hstart := startsFrom_of_boot hboot
  have hids : m.entries.map (·.service.id) = n.entries.map (·.service.id) :=
    run_preserves (R := fun m => m.entries.map (·.service.id) = n.entries.map (·.service.id)) h
      (fun hmoves hm => hmoves.ids.trans hm) rfl
  have hlength : m.entries.length = b.services.length := by
    have heq := congrArg List.length hids
    rwa [List.length_map, List.length_map, hstart.entries, List.length_map] at heq
  have hone : m.HasOne .minimumNode := run_preserves h Moves.hasOne (hstart.hasOne hb)
  have hboots : Device.Boots b format d (.running n) := hboot ▸ Device.boots_boot b format d
  have hrecalls : m.Recalls :=
    run_preserves h (fun hmoves => hmoves.standsIn Standing.lasts_recalls)
      (Device.standsIn_of_boots Standing.lasts_recalls ⟨hb.isNew, hb.count.le⟩ hboots)
  have hsound : m.Sound := run_preserves h Moves.sound (hstart.sound hb.isNew)
  obtain ⟨o, ho⟩ := hsound.exists_cycle now fun y hy => by
    obtain rfl : x = y := by
      have hreceived : (m.facts now).received? = some x := Cycle.received?_eq ha
      exact Option.some.inj (hreceived.symm.trans hy)
    rw [hx.opcode]
    decide
  obtain ⟨hentries, hpositions, -⟩ := map_stops ho
  exact ⟨hlength, length_services_of_boot hboot, o, _, ho, hentries, hpositions,
    diagnosed_of_cycle hone hrecalls (hasFragments_of_run hfragments hstart h) ha hx ho⟩

/-- A small node is asked for the fourth value of all its services. -/
def fourthValues : Request := .put (.received (.addressed Opcode.rdgn.byte 0 [0, 4]))

/-- The first two of its services have one; the third has no values, and the last has three. -/
theorem diagnosed_of_fourthValues : ∃ o answers, (small.serve fourthValues).cycle 0 = .ok o ∧
    o.queued.filter Action.diagnoses = [diagnosis 0 1 4 0, diagnosis 0 2 4 0] ∧
    Diagnosed 0 (small.serve fourthValues) o 0 4 answers := by
  have hrun : small.run [.ask fourthValues] =
      some (small.serve fourthValues, [.asked small fourthValues]) := rfl
  have ha : (small.serve fourthValues).nextAction.1 =
      some (.received (.addressed Opcode.rdgn.byte 0 [0, 4])) := by
    decide +kernel
  have hx : (Message.addressed Opcode.rdgn.byte 0 [0, 4]).AsksFor
      (small.serve fourthValues).config.nodeNumber 0 4 := by
    constructor <;> decide +kernel
  have hqueued : (((small.serve fourthValues).cycle 0).toOption.any fun o =>
      o.queued.filter Action.diagnoses == [diagnosis 0 1 4 0, diagnosis 0 2 4 0]) = true := by
    decide +kernel
  obtain ⟨_, _, o, answers, ho, _, _, hdiagnosed⟩ := diagnosed_of_run
    (Device.hasOne_smallBuild (by decide)) hasFragments_smallBuild boot_small hrun ha hx 0
  rw [ho] at hqueued
  exact ⟨o, answers, ho, beq_iff_eq.1 hqueued, hdiagnosed⟩

end RailNode.Node
