import Mathlib.Data.List.Chain
import RailNode.Proofs.Service.LongMessage.Fragments

/-
  A long message from one service to another. The receiving side stands in the middle of the
  payload: what came before is kept as far as there is room, and the messages that are still to
  come are the fragments of the rest (`Reception.having`). By induction over the cycles of the
  receiver the whole payload arrives (`foldl_turn_of_delivers`), whatever other traffic there is
  between.
-/
namespace RailNode.LongMessage

/-! ## The fragments of a payload -/

theorem nextSequence_ne_zero (n : UInt8) : nextSequence n ≠ 0 := by
  unfold nextSequence
  split
  · decide
  · rename_i h
    intro hzero
    refine h ?_
    have hn : n = 0 - 1 := by rw [← hzero, UInt8.add_sub_cancel]
    rw [hn]
    decide

theorem continues_of_bytes {stream sequence : UInt8} (h : sequence ≠ 0) {bytes : List UInt8}
    {m : Message} (hm : m.bytes = [0xE9, stream, sequence] ++ bytes) :
    Continues stream sequence bytes m := by
  refine ⟨⟨?_, ?_⟩, ?_, h, ?_⟩
  · rw [Message.opcode?, Message.opcodeByte?, hm]
    exact Opcode.ofByte?_byte .dtxc
  · rw [Message.byte?, hm]
    rfl
  · rw [Message.byte?, hm]
    rfl
  · rw [hm]
    rfl

/-- The first fragment of what is left of a payload brings five bytes of it, or all that is left;
    the zeros after the end of the payload do not count. -/
theorem fragments_eq_cons (stream : UInt8) {sequence : UInt8} (hsequence : sequence ≠ 0)
    {rest : List UInt8} (h : rest ≠ []) :
    ∃ m bytes, fragments stream sequence rest =
        m :: fragments stream (nextSequence sequence) (rest.drop 5) ∧
      Continues stream sequence bytes m ∧ bytes.take rest.length = rest.take 5 := by
  obtain ⟨m, hfragments, hm⟩ := fragments_of_ne_nil stream sequence h
  refine ⟨m, _, hfragments, continues_of_bytes hsequence hm, ?_⟩
  unfold List.rightpad
  rcases Nat.le_total rest.length 5 with hle | hle
  · rw [List.take_of_length_le hle, List.take_left']
    rfl
  · rw [List.length_take, Nat.min_eq_left hle, Nat.sub_self, List.replicate_zero,
      List.append_nil, List.take_take, Nat.min_eq_right hle]

theorem eq_nil_of_fragments_eq_nil {stream sequence : UInt8} (hsequence : sequence ≠ 0)
    {rest : List UInt8} (h : fragments stream sequence rest = []) : rest = [] := by
  by_cases hrest : rest = []
  · exact hrest
  · obtain ⟨m, bytes, hcons, _, _⟩ := fragments_eq_cons stream hsequence hrest
    rw [hcons] at h
    contradiction

theorem announces_header (stream : UInt8) (length : Nat) :
    Announces stream (UInt16.ofNat length) (header stream length) := by
  refine ⟨⟨?_, rfl⟩, rfl, ?_⟩
  · exact Opcode.ofByte?_byte .dtxc
  · exact congrArg some (Word.join_high_low _)

theorem toNat_announced {length : Nat} (h : length ≤ maxLength) :
    (UInt16.ofNat length).toNat = length := by
  have hlt : length < 65536 := Nat.lt_succ_of_le h
  rw [UInt16.toNat_ofNat', Nat.mod_eq_of_lt hlt]

/-! ## The receiving side -/

namespace Reception

/-- What has been kept of bytes, when more of them come. -/
theorem take_take_append (n : Nat) (got more : List UInt8) :
    (got.take n ++ more).take n = (got ++ more).take n := by
  rw [List.take_append, List.take_append, List.take_take, Nat.min_self, List.length_take]
  rcases Nat.le_total n got.length with h | h
  · rw [Nat.min_eq_left h, Nat.sub_self, Nat.sub_eq_zero_of_le h]
  · rw [Nat.min_eq_right h]

/-- The receiving side in the middle of a payload, with `remaining` bytes still to come. -/
def midway (stream : UInt8) (got : List UInt8) (remaining : Nat) (next : UInt8) (latest : Time)
    (r : Reception) : Reception :=
  let kept := got.take r.capacity
  { r with
    data := kept
    inbound := some { stream, received := got.length, remaining, next, latest, kept } }

/-- The receiving side after all of a payload. -/
def received (stream : UInt8) (payload : List UInt8) (r : Reception) : Reception :=
  { r with data := payload.take r.capacity }.complete stream payload.length

/-- The receiving side after `got` of a payload, with `rest` still to come. -/
def having (stream : UInt8) (got rest : List UInt8) (next : UInt8) (latest : Time)
    (r : Reception) : Reception :=
  if rest = [] then r.received stream got else r.midway stream got rest.length next latest

variable {r : Reception} {stream next : UInt8} {latest now : Time} {got rest : List UInt8}

theorem having_nil : r.having stream got [] next latest = r.received stream got := if_pos rfl

theorem having_of_ne_nil (h : rest ≠ []) :
    r.having stream got rest next latest = r.midway stream got rest.length next latest :=
  if_neg h

@[simp]
theorem streams_having : (r.having stream got rest next latest).streams = r.streams := by
  unfold having
  split <;> rfl

@[simp]
theorem timeout_having : (r.having stream got rest next latest).timeout = r.timeout := by
  unfold having
  split <;> rfl

/-- A header opens the transfer of a payload; that of an empty payload is all of it. -/
theorem announce_eq_having (now : Time) (payload : List UInt8) :
    r.announce now stream payload.length = r.having stream [] payload 1 now := by
  unfold announce
  cases payload with
  | nil =>
    rw [having_nil]
    unfold received
    rw [List.take_nil]
    rfl
  | cons b rest =>
    rw [having_of_ne_nil (List.cons_ne_nil b rest)]
    unfold midway
    rw [List.take_nil]
    rfl

/-- A fragment brings five more bytes of the payload, or all that was still to come. -/
theorem extend_having (hidle : r.inbound = none) (hrest : rest ≠ []) {bytes : List UInt8}
    (hbytes : bytes.take rest.length = rest.take 5) {i : Inbound}
    (hi : (r.having stream got rest next latest).inbound = some i) :
    (r.having stream got rest next latest).extend now i bytes =
      r.having stream (got ++ rest.take 5) (rest.drop 5) (nextSequence next) now := by
  rw [having_of_ne_nil hrest] at hi ⊢
  have hlength : rest.length - (rest.take 5).length = (rest.drop 5).length := by
    simp only [List.length_take, List.length_drop]
    omega
  rw [← Option.some.inj hi]
  unfold extend midway
  simp only [hbytes, hlength, take_take_append]
  by_cases hdone : rest.drop 5 = []
  · rw [hdone, having_nil]
    unfold received
    simp only [List.length_nil, if_true, List.length_append]
    obtain ⟨_, _, _, _, _, _, _, _⟩ := r
    cases hidle
    rfl
  · have hpos : (rest.drop 5).length ≠ 0 := fun hzero => hdone (List.length_eq_zero_iff.1 hzero)
    rw [having_of_ne_nil hdone, if_neg hpos]
    unfold midway
    rw [List.length_append]

theorem exists_inbound_having (r : Reception) (stream next : UInt8) (latest : Time)
    (got : List UInt8) (hrest : rest ≠ []) :
    ∃ i, (r.having stream got rest next latest).inbound = some i := by
  rw [having_of_ne_nil hrest]
  exact ⟨_, rfl⟩

theorem inbound_having (hidle : r.inbound = none) {i : Inbound}
    (hi : (r.having stream got rest next latest).inbound = some i) :
    rest ≠ [] ∧ i.stream = stream ∧ i.next = next ∧ i.latest = latest := by
  by_cases hrest : rest = []
  · rw [hrest, having_nil] at hi
    have hnone : (r.received stream got).inbound = none := hidle
    rw [hnone] at hi
    contradiction
  · rw [having_of_ne_nil hrest] at hi
    rw [← Option.some.inj hi]
    exact ⟨hrest, rfl, rfl, rfl⟩

theorem pollTimeout_having (hidle : r.inbound = none)
    (h : rest ≠ [] → Time.elapsed now latest ≤ r.timeout) :
    (r.having stream got rest next latest).pollTimeout now =
      r.having stream got rest next latest := by
  rcases hi : (r.having stream got rest next latest).inbound with _ | i
  · exact pollTimeout_of_none hi
  · obtain ⟨hrest, _, _, hlatest⟩ := inbound_having hidle hi
    refine pollTimeout_of_le hi ?_
    rw [hlatest, timeout_having]
    exact h hrest

/-! ## Cycles of the receiver -/

/-- The cycle in which the header comes. -/
theorem turn_of_announces {c : Cycle} {m : Message} {payload : List UInt8}
    (hidle : r.inbound = none) (hs : stream ∈ r.streams) (hlength : payload.length ≤ maxLength)
    (hc : c.received? = some m) (hm : Announces stream (UInt16.ofNat payload.length) m) :
    r.turn c = r.having stream [] payload 1 c.now := by
  rw [turn_of_received hc, receive_of_announces hs hm, toNat_announced hlength,
    announce_eq_having]
  refine pollTimeout_having hidle fun _ => ?_
  rw [Time.elapsed, Nat.sub_self]
  exact Nat.zero_le _

/-- A cycle in which a fragment comes. -/
theorem turn_of_continues {c : Cycle} {m : Message} {bytes : List UInt8}
    (hidle : r.inbound = none) (hs : stream ∈ r.streams) (hrest : rest ≠ [])
    (hc : c.received? = some m) (hm : Continues stream next bytes m)
    (hbytes : bytes.take rest.length = rest.take 5) :
    (r.having stream got rest next latest).turn c =
      r.having stream (got ++ rest.take 5) (rest.drop 5) (nextSequence next) c.now := by
  obtain ⟨i, hi⟩ := exists_inbound_having r stream next latest got hrest
  obtain ⟨_, hstream, hnext, _⟩ := inbound_having hidle hi
  have hs' : stream ∈ (r.having stream got rest next latest).streams := by
    rw [streams_having]
    exact hs
  rw [turn_of_received hc, receive_of_continues hs' hi hstream hnext hm,
    extend_having hidle hrest hbytes hi]
  refine pollTimeout_having hidle fun _ => ?_
  rw [Time.elapsed, Nat.sub_self]
  exact Nat.zero_le _

end Reception

/-- The cycle brings no header on one of the streams, and no fragment on the stream. -/
def Aside (streams : List UInt8) (stream : UInt8) (c : Cycle) : Prop :=
  ∀ m ∈ c.received?, ¬ IsFragment stream m ∧ ∀ s ∈ streams, ¬ IsHeader s m

instance (streams : List UInt8) (stream : UInt8) (c : Cycle) :
    Decidable (Aside streams stream c) :=
  inferInstanceAs (Decidable (∀ m ∈ c.received?, _))

/-- The cycle brings no header on one of the streams, and nothing on the stream. -/
def Bystands (streams : List UInt8) (stream : UInt8) (c : Cycle) : Prop :=
  ∀ m ∈ c.received?, ¬ IsOn stream m ∧ ∀ s ∈ streams, ¬ IsHeader s m

instance (streams : List UInt8) (stream : UInt8) (c : Cycle) :
    Decidable (Bystands streams stream c) :=
  inferInstanceAs (Decidable (∀ m ∈ c.received?, _))

theorem Bystands.aside {streams : List UInt8} {stream : UInt8} {c : Cycle}
    (h : Bystands streams stream c) : Aside streams stream c := fun m hm =>
  ⟨fun hfragment => (h m hm).1 hfragment.1, (h m hm).2⟩

/-- In these cycles a receiver that has subscribed to `streams` takes in the messages of a transfer
    on `stream`, in order and each of them once, with other messages between. While there are
    messages to come, no cycle between lies more than `limit` after the latest. -/
inductive Delivers (streams : List UInt8) (stream : UInt8) (limit : Time) :
    Option Time → List Message → List Cycle → Prop
  | done {latest : Option Time} {cycles : List Cycle} :
      (∀ c ∈ cycles, Bystands streams stream c) →
      Delivers streams stream limit latest [] cycles
  | next {latest : Option Time} {m : Message} {ms : List Message} {c : Cycle}
      {cycles : List Cycle} : c.received? = some m →
      Delivers streams stream limit (some c.now) ms cycles →
      Delivers streams stream limit latest (m :: ms) (c :: cycles)
  | between {latest : Option Time} {m : Message} {ms : List Message} {c : Cycle}
      {cycles : List Cycle} : Bystands streams stream c →
      (∀ t ∈ latest, Time.elapsed c.now t ≤ limit) →
      Delivers streams stream limit latest (m :: ms) cycles →
      Delivers streams stream limit latest (m :: ms) (c :: cycles)

/-- The cycles that do not bystand. -/
def involved (streams : List UInt8) (stream : UInt8) (cycles : List Cycle) : List Cycle :=
  cycles.filter fun c => ¬ Bystands streams stream c

section Involved

variable {streams : List UInt8} {stream : UInt8} {c : Cycle} {cycles : List Cycle}

theorem involved_cons_of_bystands (h : Bystands streams stream c) :
    involved streams stream (c :: cycles) = involved streams stream cycles :=
  List.filter_cons_of_neg (by simpa using h)

theorem involved_cons_of_not (h : ¬ Bystands streams stream c) :
    involved streams stream (c :: cycles) = c :: involved streams stream cycles :=
  List.filter_cons_of_pos (by simpa using h)

theorem bystands_of_involved_eq_nil (h : involved streams stream cycles = []) :
    ∀ c ∈ cycles, Bystands streams stream c := fun c hc => by
  simpa using List.filter_eq_nil_iff.1 h c hc

end Involved

/-- On a clock that does not go backwards it is enough that the messages follow one another closely
    enough. -/
theorem delivers_of_gaps {streams : List UInt8} {stream : UInt8} {limit : Time}
    {latest : Option Time} {ms : List Message} {cycles : List Cycle}
    (hsorted : cycles.Pairwise fun c d => c.now ≤ d.now)
    (hms : (involved streams stream cycles).map Cycle.received? = ms.map some)
    (hgaps : (involved streams stream cycles).IsChain fun c d => Time.elapsed d.now c.now ≤ limit)
    (hlatest : ∀ t ∈ latest, ∀ c ∈ (involved streams stream cycles).head?,
      Time.elapsed c.now t ≤ limit) :
    Delivers streams stream limit latest ms cycles := by
  induction cycles generalizing latest ms with
  | nil =>
    have hnil : ms = [] := List.map_eq_nil_iff.1 hms.symm
    rw [hnil]
    exact .done (by simp)
  | cons c cycles ih =>
    obtain ⟨hlater, hsorted⟩ := List.pairwise_cons.1 hsorted
    by_cases hc : Bystands streams stream c
    · rw [involved_cons_of_bystands hc] at hms hgaps hlatest
      have hrest := ih hsorted hms hgaps hlatest
      cases ms with
      | nil =>
        have hquiet := bystands_of_involved_eq_nil (List.map_eq_nil_iff.1 hms)
        exact .done (List.forall_mem_cons.2 ⟨hc, hquiet⟩)
      | cons m ms =>
        refine .between hc (fun t ht => ?_) hrest
        rcases hparts : involved streams stream cycles with _ | ⟨d, parts⟩
        · rw [hparts] at hms
          contradiction
        · have hinvolved : d ∈ involved streams stream cycles := hparts ▸ List.mem_cons_self
          have hd : d ∈ cycles := (List.mem_filter.1 hinvolved).1
          have hle : d.now - t ≤ limit := hlatest t ht d (by rw [hparts]; rfl)
          exact Nat.le_trans (Nat.sub_le_sub_right (hlater d hd) t) hle
    · rw [involved_cons_of_not hc] at hms hgaps
      cases ms with
      | nil => contradiction
      | cons m ms =>
        obtain ⟨hm, hms⟩ := List.cons_eq_cons.1 hms
        obtain ⟨hfirst, hgaps⟩ := List.isChain_cons.1 hgaps
        refine .next hm (ih hsorted hms hgaps ?_)
        intro t ht d hd
        rw [← Option.some.inj ht]
        exact hfirst d hd

namespace Reception

variable {r : Reception} {stream next : UInt8} {latest : Time} {got rest : List UInt8}

/-- A cycle that has nothing to do with the transfer leaves its time to be looked at. -/
theorem turn_of_aside {c : Cycle} (hidle : r.inbound = none) (hc : Aside r.streams stream c) :
    (r.having stream got rest next latest).turn c =
      (r.having stream got rest next latest).pollTimeout c.now := by
  unfold turn react
  rcases hm : c.received? with _ | m
  · rfl
  · obtain ⟨hfragment, hheader⟩ := hc m hm
    dsimp only
    rw [receive_of_aside]
    · rw [streams_having]
      exact hheader
    · intro i hi
      obtain ⟨_, his, _, _⟩ := inbound_having hidle hi
      rw [his]
      exact hfragment

theorem turn_of_bystands {c : Cycle} (hidle : r.inbound = none)
    (hc : Bystands r.streams stream c)
    (htime : rest ≠ [] → Time.elapsed c.now latest ≤ r.timeout) :
    (r.having stream got rest next latest).turn c = r.having stream got rest next latest := by
  rw [turn_of_aside hidle hc.aside, pollTimeout_having hidle htime]

/-- Cycles that bring the fragments of the rest of a payload complete it. By induction over the
    cycles; the rest of the payload gets shorter with every fragment. -/
theorem foldl_turn_having (hidle : r.inbound = none) (hs : stream ∈ r.streams)
    (hnext : next ≠ 0) {cycles : List Cycle}
    (h : Delivers r.streams stream r.timeout (some latest) (fragments stream next rest) cycles) :
    cycles.foldl (fun r c => r.turn c) (r.having stream got rest next latest) =
      r.received stream (got ++ rest) := by
  generalize hlatest : some latest = latest', hms : fragments stream next rest = ms at h
  induction h generalizing got rest next latest with
  | @done latest' cycles hquiet =>
    have hrest : rest = [] := eq_nil_of_fragments_eq_nil hnext hms
    have hnone : (r.received stream got).inbound = none := hidle
    rw [hrest, List.append_nil, having_nil]
    exact foldl_turn_of_none hnone fun c hc m hm => (hquiet c hc m hm).2
  | @next latest' m ms c cycles hc hrec ih =>
    have hrest : rest ≠ [] := by
      rintro rfl
      contradiction
    obtain ⟨m', bytes, hcons, hm, hbytes⟩ := fragments_eq_cons stream hnext hrest
    rw [hms] at hcons
    obtain ⟨hmm, hms'⟩ := List.cons_eq_cons.1 hcons
    rw [List.foldl_cons, turn_of_continues hidle hs hrest hc (hmm ▸ hm) hbytes,
      ih (nextSequence_ne_zero next) rfl hms'.symm, List.append_assoc, List.take_append_drop]
  | @between latest' m ms c cycles hc htime hrec ih =>
    have helapsed : Time.elapsed c.now latest ≤ r.timeout := htime latest hlatest.symm
    rw [List.foldl_cons, turn_of_bystands hidle hc fun _ => helapsed]
    exact ih hnext hlatest hms

/-- Cycles that bring the messages of a payload leave one receipt more and the payload. -/
theorem foldl_turn_of_delivers (hidle : r.inbound = none) (hs : stream ∈ r.streams)
    {payload : List UInt8} (hlength : payload.length ≤ maxLength) {cycles : List Cycle}
    (h : Delivers r.streams stream r.timeout none (messages stream payload) cycles) :
    cycles.foldl (fun r c => r.turn c) r = r.received stream payload := by
  generalize hlatest : (none : Option Time) = latest, hms : messages stream payload = ms at h
  induction h with
  | done hquiet => contradiction
  | @next latest m ms c cycles hc hrec ih =>
    obtain ⟨rfl, rfl⟩ := List.cons_eq_cons.1 hms
    rw [List.foldl_cons, turn_of_announces hidle hs hlength hc (announces_header stream _),
      foldl_turn_having hidle hs (by decide) hrec, List.nil_append]
  | @between latest m ms c cycles hc htime hrec ih =>
    rw [List.foldl_cons, turn_of_none hidle fun m' hm => (hc m' hm).2]
    exact ih hlatest hms

end Reception

/-! ## From one service to another -/

/-- A payload that one service accepts and sends arrives at another that has subscribed to the
    stream and is not taking in anything else: one receipt more waits there, with the length of the
    payload, and the payload is there as far as there is room for it. -/
theorem received_of_send {sender sending receiver : LongMessage} {stream : UInt8}
    {payload : List UInt8} {sends receives : List Visit} {sent : List Message}
    (hsend : sender.send stream payload = .ok sending)
    (hdone : (sending.after sends).transmission.isSending = false)
    (hsent : sending.emitted sends = sent.map .transmit)
    (hsubscribed : stream ∈ receiver.reception.streams)
    (hidle : receiver.reception.inbound = none)
    (hdelivers : Delivers receiver.reception.streams stream receiver.reception.timeout none sent
      (receives.map Visit.cycle)) :
    let r := receiver.reception
    let r' := (receiver.after receives).reception
    r'.receipts = r.receipts.put
        { stream, length := payload.length
          status := if payload.length ≤ r.capacity then .complete else .truncated } ∧
      r'.data = payload.take r.capacity ∧ r'.inbound = none := by
  have hmessages : sent = messages stream payload := by
    have hmap := hsent.symm.trans (emitted_eq_messages hsend hdone)
    exact (List.map_injective_iff.2 fun _ _ h => Action.transmit.inj h) hmap
  rw [hmessages] at hdelivers
  have hreception : (receiver.after receives).reception =
      receiver.reception.received stream payload := by
    rw [reception_after]
    exact Reception.foldl_turn_of_delivers hidle hsubscribed (length_le_of_send hsend) hdelivers
  dsimp only
  rw [hreception]
  refine ⟨?_, rfl, hidle⟩
  unfold Reception.received Reception.complete Reception.leave
  rcases Nat.lt_or_ge receiver.reception.capacity payload.length with h | h
  · simp only [if_pos h, if_neg (Nat.not_le.2 h)]
  · simp only [if_neg (Nat.not_lt.2 h), if_pos h]

/-! ## A short transfer -/

/-- A service that sends seven bytes on stream 3. -/
def sampleSending : LongMessage :=
  let s := ofCapacities .standard 0 16
  { s with transmission := { s.transmission with pending := messages 3 [1, 2, 3, 4, 5, 6, 7] } }

/-- A service that takes in stream 3 and keeps five bytes of a payload. -/
def sampleReceiver : LongMessage :=
  let s := ofCapacities .standard 5 0
  { s with reception := { s.reception with streams := [3] } }

/-- A turn at a time, with a message that came in or with none. -/
def sampleVisit (now : Time) (received : Option Message) : Visit where
  cycle :=
    { now
      action := received.map .received
      services := []
      parameters := { info := .standard, layout := .compact 0 0 0, serviceFlags := 0 }
      timing := .standard }
  shared :=
    { config :=
        { layout := .compact 0 0 0
          store := .blank 10 .block
          mode := .uninitialised
          nodeNumber := 0
          address := .unassigned
          flags := 0
          learning := false
          index := Vector.replicate _ 0
          fits := by decide }
      link := .ofCapacities 0 0
      queue := .mk [] {} (Nat.zero_le queueCapacity) }

def sampleSends : List Visit := [0, 20000, 30000, 40000].map fun now => sampleVisit now none

/-- The cycles of the receiver, with a fragment on another stream between. -/
def sampleReceives : List Visit :=
  [sampleVisit 100 (header 3 7), sampleVisit 200 (fragment 4 1 0 0 0 0 0),
    sampleVisit 20000 (fragment 3 1 1 2 3 4 5), sampleVisit 30000 none,
    sampleVisit 40000 (fragment 3 2 6 7 0 0 0)]

theorem received_sample :
    (sampleReceiver.after sampleReceives).reception.receipts.items =
        [{ stream := 3, length := 7, status := .truncated }] ∧
      (sampleReceiver.after sampleReceives).reception.data = [1, 2, 3, 4, 5] := by
  have hsend : (ofCapacities .standard 0 16).send 3 [1, 2, 3, 4, 5, 6, 7] = .ok sampleSending := by
    decide
  have hdone : (sampleSending.after sampleSends).transmission.isSending = false := by decide
  have hsent : sampleSending.emitted sampleSends =
      (messages 3 [1, 2, 3, 4, 5, 6, 7]).map .transmit := by decide
  have hdelivers : Delivers sampleReceiver.reception.streams 3 sampleReceiver.reception.timeout
      none (messages 3 [1, 2, 3, 4, 5, 6, 7]) (sampleReceives.map Visit.cycle) :=
    delivers_of_gaps (by decide) (by decide +kernel) (by decide +kernel) (by decide)
  obtain ⟨hreceipts, hdata, _⟩ :=
    received_of_send hsend hdone hsent (by decide) (by decide) hdelivers
  rw [hreceipts, hdata]
  exact ⟨by decide, by decide⟩

end RailNode.LongMessage
