import RailNode.Proofs.Node.Speakers
import RailNode.Proofs.Service.WellFormed

/-
  Who queues what looks like a part of a long answer: nobody but the speaker that gives the answer
  (`filter_queued`). The other services have no opcode for it, as long as a long message service has
  just parts of long messages left to send, and that every step of a node keeps
  (`Node.Pends`, `Moves.hasFragments`). The reporters of other services tell of another position.
-/
namespace RailNode

/-! ## Parts of long messages -/

theorem LongMessage.opcode?_of_isPart {m : Message} (h : IsPart m) : m.opcode? = some .dtxc := by
  obtain ⟨args, hargs, rfl⟩ := h.exists_eq
  exact Message.opcode?_ofOpcode .dtxc args hargs.le

variable {P : Message → Prop}

namespace Service

theorem hasFragments_iff {s : Service} :
    s.HasFragments ↔ s.Pends fun m => m.opcode? = some .dtxc := by
  cases s <;> exact Iff.rfl

theorem pends_of_ne {s : Service} (h : s.id ≠ .longMessage) : s.Pends P := by
  cases s with
  | longMessage s => exact absurd rfl h
  | _ => trivial

/-- A long message service that has started to send a payload has the parts of it to send. -/
theorem pends_send {s s' : LongMessage} {stream : UInt8} {payload : List UInt8}
    (hP : ∀ {m}, LongMessage.IsPart m → P m) (h : s.send stream payload = .ok s') :
    (longMessage s').Pends P := by
  obtain ⟨transmission, hsend, rfl⟩ := map_eq_ok_iff.1 h
  unfold LongMessage.Transmission.send at hsend
  split_ifs at hsend
  rw [← Except.ok.inj hsend]
  exact fun m hm => hP ⟨stream, payload, hm⟩

theorem pends_of_touched {s s' : Service} (hP : ∀ {m}, LongMessage.IsPart m → P m)
    (h : s.Touched s') (hs : s.Pends P) : s'.Pends P := by
  cases h with
  | same => exact hs
  | consumer => trivial
  | producer => trivial
  | longMessage h =>
    rcases h with h | ⟨stream, payload, hsend⟩
    · show ∀ m ∈ _, _
      rw [h]
      exact hs
    · exact pends_send hP hsend

theorem pends_turn {c : Cycle} {s : Service} {shared : Shared} {t : Turn Service}
    (h : turn c { self := s, shared } = .ok t) (hs : s.Pends P) : t.self.Pends P := by
  cases s with
  | longMessage s =>
    rw [← Except.ok.inj h]
    show (longMessage (s.visit ⟨c, shared⟩).self).Pends P
    rw [LongMessage.self_visit]
    intro m hm
    refine hs m ?_
    rw [← s.transmission.poll_pending c.now]
    exact List.mem_append_right _ hm
  | _ => exact pends_of_ne (by rw [id_turn h]; simp only [id]; decide)

end Service

namespace Node

/-- What the long message services still have to send is as `P` says. -/
def Pends (P : Message → Prop) (n : Node) : Prop := ∀ e ∈ n.entries, e.service.Pends P

/-- The long message services have just parts of long messages left to send. -/
def HasFragments (n : Node) : Prop := ∀ e ∈ n.entries, e.service.HasFragments

variable {n m : Node} {now : Time} {o : Outcome} {events : List Event}

theorem hasFragments_iff : n.HasFragments ↔ n.Pends fun m => m.opcode? = some .dtxc :=
  forall₂_congr fun _ _ => Service.hasFragments_iff

theorem pends_turns {c : Cycle} {position : Nat} {shared : Shared} {es : List Entry}
    {r : List (Entry × EntryTrace) × Shared} (h : turns c position shared es = .ok r)
    (hes : ∀ e ∈ es, e.service.Pends P) : ∀ x ∈ r.1, x.1.service.Pends P := by
  induction es generalizing position shared r with
  | nil =>
    rw [← Except.ok.inj h]
    exact fun _ hx => absurd hx List.not_mem_nil
  | cons e es ih =>
    obtain ⟨e', trace, between, rest, last, he, hrest, rfl⟩ := turns_cons_eq_ok h
    obtain ⟨t, ht, hself, _, _⟩ := entryTurn_eq_ok he
    intro x hx
    rcases List.mem_cons.1 hx with rfl | hx
    · rw [hself]
      exact Service.pends_turn ht (hes e List.mem_cons_self)
    · exact ih hrest (fun y hy => hes y (List.mem_cons_of_mem _ hy)) x hx

namespace Pends

theorem cycle (hn : n.Pends P) (h : n.cycle now = .ok o) : o.node.Pends P := by
  obtain ⟨r, hr, rfl⟩ := cycle_eq_ok h
  intro e he
  obtain ⟨x, hx, rfl⟩ := List.mem_map.1 he
  exact pends_turns hr hn x hx

theorem serve (hP : ∀ {m}, LongMessage.IsPart m → P m) (hn : n.Pends P) (r : Request) :
    (n.serve r).Pends P := by
  obtain ⟨entries, indication, queue, heq, hentries⟩ := n.exists_serve_eq r
  rw [heq]
  show ∀ e ∈ entries, e.service.Pends P
  unfold Pends at hn
  clear heq
  generalize n.entries = es at hentries hn
  induction hentries with
  | nil => exact hn
  | cons he _ ih =>
    rw [List.forall_mem_cons] at hn ⊢
    exact ⟨Service.pends_of_touched hP he.service hn.1, ih hn.2⟩

end Pends

theorem Moves.hasFragments (h : n.Moves m events) (hn : n.HasFragments) : m.HasFragments := by
  cases h with
  | nothing => exact hn
  | round hcycle => exact hasFragments_iff.2 ((hasFragments_iff.1 hn).cycle hcycle)
  | delivered _ => exact hn
  | collected _ => exact hn
  | asked r =>
    exact hasFragments_iff.2 ((hasFragments_iff.1 hn).serve LongMessage.opcode?_of_isPart r)

/-- The long message services of a node that has started with nothing but parts of long messages
    never have anything else to send. -/
theorem hasFragments_of_run {b : Build} {inputs : List Input}
    (hb : ∀ s ∈ b.services, s.HasFragments) (hstart : n.StartsFrom b)
    (h : n.run inputs = some (m, events)) : m.HasFragments := by
  refine run_preserves h Moves.hasFragments fun e he => ?_
  rw [hstart.entries] at he
  obtain ⟨s, hs, rfl⟩ := List.mem_map.1 he
  exact hb s hs

theorem hasFragments_smallBuild : ∀ s ∈ Device.smallBuild.services, s.HasFragments := by
  intro s hs
  simp only [Device.smallBuild, List.mem_cons, List.not_mem_nil, or_false] at hs
  rcases hs with rfl | rfl | rfl | rfl <;> trivial

end Node

/-! ## Turns -/

variable {a : LongAnswer} {c : Cycle} {shared : Shared} {position q : Nat}

/-- A service that does not give the long answer queues nothing that looks like a part of it. -/
theorem Service.filter_owns {s : Service} {t : Turn Service} (hne : a.speaker ≠ .service s.id)
    (hevents : a ≠ .events) (hs : s.HasFragments) (h : turn c { self := s, shared } = .ok t) :
    t.trace.actions.filter (a.owns q) = [] := by
  obtain ⟨as, has, hwithin⟩ := queues_turn h
  have hgiven : t.trace.actions = as := has.given
  rw [hgiven, List.filter_eq_nil_iff]
  intro x hx howns
  exact reply_notMem hne hevents hs (hwithin x hx _ (LongAnswer.sends_of_owns howns))

/-- A reporter queues nothing that looks like a part of the long answer of a service, or of a
    reporter at another position. -/
theorem Reporter.filter_owns {service : Service} {r : Reporter} {u : Turn Reporter}
    (hevents : a ≠ .events)
    (hposition : ∀ id, a = .diagnostics id → UInt8.ofNat position ≠ UInt8.ofNat q)
    (h : turn c service position { self := r, shared } = u) :
    u.trace.actions.filter (a.owns q) = [] := by
  subst h
  obtain ⟨as, has, hwithin⟩ := (speaks_turn c service position { self := r, shared }).queues
  have hgiven : (turn c service position { self := r, shared }).trace.actions = as := has.given
  have hreports : ∀ x ∈ (turn c service position { self := r, shared }).sent .dgn,
      x.reportsOn position :=
    reportsOn_turn fun _ hx => absurd hx List.not_mem_nil
  rw [List.filter_eq_nil_iff]
  intro x hx howns
  have hsends := LongAnswer.sends_of_owns howns
  have hmem := hwithin x (hgiven ▸ hx) _ hsends
  cases a with
  | events => exact hevents rfl
  | diagnostics id =>
    have hreport := hreports x (List.mem_filter.2 ⟨hx, hsends⟩)
    have hq := beq_iff_eq.1 (Bool.and_eq_true_iff.1 howns).2
    rw [beq_iff_eq.1 (Bool.and_eq_true_iff.1 hreport).2] at hq
    exact hposition id rfl (Option.some.inj hq)
  | _ => exact absurd hmem (by simp only [LongAnswer.reply]; decide)

/-! ## The cycle -/

namespace Node

variable {n : Node} {now : Time} {o : Outcome} {e e' : Entry} {es : List Entry} {left : Shared}
  {trace : EntryTrace} {r : List (Entry × EntryTrace) × Shared}

/-- An entry of another service queues nothing that looks like a part of the long answer. -/
theorem filter_owns_entryTurn (hevents : a ≠ .events) (he : e.service.HasFragments)
    (hid : e.service.id ≠ a.speaker.id) (hq : UInt8.ofNat position ≠ UInt8.ofNat q)
    (h : entryTurn c position e shared = .ok ((e', trace), left)) :
    trace.actions.filter (a.owns q) = [] := by
  obtain ⟨t, ht, u, hu, -, rfl, -⟩ := entryTurn_eq_ok_iff.1 h
  have hne : a.speaker ≠ .service e.service.id := fun heq => hid (congrArg Speaker.id heq).symm
  rw [EntryTrace.actions, List.filter_append, Service.filter_owns hne hevents he ht,
    Reporter.filter_owns hevents (fun _ _ => hq) hu]
  rfl

/-- In the entry of the speaker nobody but the speaker queues what looks like a part of its long
    answer. -/
theorem filter_owns_said (hevents : a ≠ .events) (he : e.service.HasFragments)
    (h : entryTurn c position e shared = .ok ((e', trace), left)) :
    trace.actions.filter (a.owns q) = (trace.said a.speaker).filter (a.owns q) := by
  obtain ⟨t, ht, u, hu, -, rfl, -⟩ := entryTurn_eq_ok_iff.1 h
  rw [EntryTrace.actions, List.filter_append]
  cases ha : a.speaker with
  | service id =>
    have hnone : u.trace.actions.filter (a.owns q) = [] := by
      refine Reporter.filter_owns hevents (fun id' hid => ?_) hu
      rw [hid] at ha
      contradiction
    rw [hnone, List.append_nil]
    rfl
  | reporter id =>
    have hne : a.speaker ≠ .service e.service.id := by
      rw [ha]
      exact fun h => Speaker.noConfusion h
    rw [Service.filter_owns hne hevents he ht]
    rfl

theorem filter_owns_turns (hevents : a ≠ .events) (hes : ∀ e ∈ es, e.service.HasFragments)
    (hids : ∀ e ∈ es, e.service.id ≠ a.speaker.id)
    (hq : ∀ i < es.length, UInt8.ofNat (position + i) ≠ UInt8.ofNat q)
    (h : turns c position shared es = .ok r) :
    ((r.1.map (·.2)).flatMap EntryTrace.actions).filter (a.owns q) = [] := by
  induction es generalizing position shared r with
  | nil =>
    rw [← Except.ok.inj h]
    rfl
  | cons e es ih =>
    obtain ⟨e', trace, between, rest, last, he, hrest, rfl⟩ := turns_cons_eq_ok h
    rw [List.forall_mem_cons] at hes hids
    have hlater : ∀ i < es.length, UInt8.ofNat (position + 1 + i) ≠ UInt8.ofNat q := by
      intro i hi
      rw [Nat.add_right_comm, Nat.add_assoc]
      exact hq (i + 1) (Nat.succ_lt_succ hi)
    rw [List.map_cons, List.flatMap_cons, List.filter_append, ih hes.2 hids.2 hlater hrest,
      filter_owns_entryTurn hevents hes.1 hids.1 (hq 0 (Nat.succ_pos _)) he]
    rfl

/-- A node that has each service at most once has no more of them than there are kinds. -/
theorem length_entries_le (hids : (n.entries.map (·.service.id)).Nodup) :
    n.entries.length ≤ ServiceId.all.length := by
  have hsubset : n.entries.map (·.service.id) ⊆ ServiceId.all := by
    intro id hid
    obtain ⟨e, _, rfl⟩ := List.mem_map.1 hid
    exact e.service.id_mem_all
  have hle := (hids.subperm hsubset).length_le
  rwa [List.length_map] at hle

theorem ofNat_ne_ofNat {i j : Nat} (hi : i < 256) (hj : j < 256) (h : i ≠ j) :
    UInt8.ofNat i ≠ UInt8.ofNat j := by
  intro heq
  refine h ?_
  have hnat := congrArg UInt8.toNat heq
  rwa [UInt8.toNat_ofNat', UInt8.toNat_ofNat', Nat.mod_eq_of_lt hi, Nat.mod_eq_of_lt hj] at hnat

/-- Nobody but the speaker queues what looks like a part of its long answer. -/
theorem filter_queued (hids : (n.entries.map (·.service.id)).Nodup) (hn : n.HasFragments)
    (hone : n.HasOne a.speaker.id) (hevents : a ≠ .events) (h : n.cycle now = .ok o)
    (hq : q = 1 + (n.before a.speaker.id).length) :
    o.queued.filter (a.owns q) = (n.saidBy a.speaker o).filter (a.owns q) := by
  obtain ⟨p, rfl⟩ := hone.exists_passage h
  have hlength : n.entries.length = (n.before a.speaker.id).length + (p.after.length + 1) := by
    conv_lhs => rw [p.entries, List.length_append, List.length_cons]
  -- There are so few services that a report tells the position of its service in one byte.
  have hle : n.entries.length ≤ 8 := length_entries_le hids
  unfold HasFragments at hn
  rw [p.entries, List.forall_mem_append, List.forall_mem_cons] at hn
  obtain ⟨hbefore, hentry, hafter⟩ := hn
  have hfirst := filter_owns_turns (q := q) hevents hbefore p.before_ne
    (fun i hi => ofNat_ne_ofNat (by omega) (by omega) (by omega)) p.turns_before
  have hrest := filter_owns_turns (q := q) hevents hafter p.after_ne
    (fun i hi => ofNat_ne_ofNat (by omega) (by omega) (by omega)) p.turns_after
  rw [Outcome.queued, p.traces_outcome, List.flatMap_append, List.flatMap_cons,
    List.filter_append, List.filter_append, hfirst, hrest, List.append_nil, List.nil_append,
    filter_owns_said hevents hentry p.turn, saidBy, p.getElem?_traces]
  rfl

end Node

end RailNode
