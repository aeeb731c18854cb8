import RailNode.Proofs.Backlog
import RailNode.Proofs.Service.LongMessage.RoundTrip

/-
  What becomes of a long message of which fragments are lost. Sequence numbers repeat after 255
  fragments, so as long as fewer are lost in a row the next one that comes has another number than
  the one that is expected (`iterate_nextSequence_ne`). By induction over the cycles, the receiving
  side has what came in order, or it has given the transfer up at the first gap or at the first long
  silence (`foldl_turn_cases`). So what is lost never goes unnoticed (`losses_detected`).
-/
namespace RailNode.LongMessage

/-! ## Sequence numbers -/

theorem toNat_nextSequence {n : UInt8} (h : n ≠ 0) :
    (nextSequence n).toNat = n.toNat % 255 + 1 := by
  have hlt : n.toNat < 256 := n.toNat_lt
  have hpos : n.toNat ≠ 0 := fun hzero => h (UInt8.toNat_inj.1 hzero)
  unfold nextSequence
  split
  · rename_i hlast
    rw [hlast]
    rfl
  · rename_i hlast
    have hne : n.toNat ≠ 255 := fun heq => hlast (UInt8.toNat_inj.1 heq)
    rw [UInt8.toNat_add, Nat.mod_eq_of_lt (a := n.toNat) (by omega)]
    exact Nat.mod_eq_of_lt (by show n.toNat + 1 < 256; omega)

theorem iterate_nextSequence_ne_zero {n : UInt8} (h : n ≠ 0) (k : Nat) :
    nextSequence^[k] n ≠ 0 := by
  induction k generalizing n with
  | zero => exact h
  | succ k ih => exact ih (nextSequence_ne_zero n)

/-- The sequence numbers go round the numbers from 1 to 255. -/
theorem toNat_iterate_nextSequence {n : UInt8} (h : n ≠ 0) (k : Nat) :
    (nextSequence^[k] n).toNat = (n.toNat - 1 + k) % 255 + 1 := by
  have hlt : n.toNat < 256 := n.toNat_lt
  have hpos : n.toNat ≠ 0 := fun hzero => h (UInt8.toNat_inj.1 hzero)
  induction k with
  | zero => show n.toNat = _; omega
  | succ k ih =>
    rw [Function.iterate_succ_apply', toNat_nextSequence (iterate_nextSequence_ne_zero h k), ih]
    omega

/-- Fewer than 255 steps do not lead back to a sequence number. -/
theorem iterate_nextSequence_ne {n : UInt8} (h : n ≠ 0) {k : Nat} (hpos : 0 < k) (hk : k < 255) :
    nextSequence^[k] n ≠ n := by
  have hlt : n.toNat < 256 := n.toNat_lt
  have hiterate := toNat_iterate_nextSequence h k
  intro heq
  rw [heq] at hiterate
  omega

/-! ## Fragments of a payload -/

section Fragments

variable {stream next : UInt8} {rest : List UInt8}

theorem fragments_drop (hnext : next ≠ 0) (k : Nat) :
    (fragments stream next rest).drop k =
      fragments stream (nextSequence^[k] next) (rest.drop (5 * k)) := by
  induction k generalizing next rest with
  | zero => rfl
  | succ k ih =>
    by_cases hrest : rest = []
    · subst hrest
      simp [fragments]
    · obtain ⟨m, _, hcons, _, _⟩ := fragments_eq_cons stream hnext hrest
      rw [hcons, List.drop_succ_cons, ih (nextSequence_ne_zero next), List.drop_drop,
        Function.iterate_succ_apply, Nat.mul_succ, Nat.add_comm 5]

/-- The sequence number of a fragment says how many came before it. -/
theorem continues_of_fragments_eq (hnext : next ≠ 0) {before after : List Message} {m : Message}
    (h : fragments stream next rest = before ++ m :: after) :
    ∃ bytes, Continues stream (nextSequence^[before.length] next) bytes m := by
  have hnumber := iterate_nextSequence_ne_zero hnext before.length
  have hdrop : fragments stream (nextSequence^[before.length] next)
      (rest.drop (5 * before.length)) = m :: after := by
    rw [← fragments_drop hnext, h, List.drop_left]
  have hrest : rest.drop (5 * before.length) ≠ [] := by
    intro hnil
    rw [hnil] at hdrop
    contradiction
  obtain ⟨m', bytes, hcons, hm, _⟩ := fragments_eq_cons stream hnumber hrest
  rw [hdrop] at hcons
  exact ⟨bytes, (List.cons_eq_cons.1 hcons).1 ▸ hm⟩

theorem isFragment_of_mem (hnext : next ≠ 0) {m : Message} (h : m ∈ fragments stream next rest) :
    IsFragment stream m := by
  obtain ⟨before, after, hsplit⟩ := List.append_of_mem h
  obtain ⟨bytes, hm⟩ := continues_of_fragments_eq hnext hsplit
  exact hm.isFragment

end Fragments

/-! ## Lost messages -/

/-- Of the messages `sent` those in `came` have come, in their order; before each of them fewer than
    255 are missing in a row. Just before the first of `sent`, `k` are missing. -/
inductive Loses : Nat → List Message → List Message → Prop
  | rest (k : Nat) (sent : List Message) : Loses k sent []
  | came {k : Nat} {m : Message} {sent came : List Message} : Loses 0 sent came →
      Loses k (m :: sent) (m :: came)
  | lost {k : Nat} {m : Message} {sent came : List Message} : k + 1 < 255 →
      Loses (k + 1) sent came → Loses k (m :: sent) came

namespace Loses

variable {k : Nat} {m : Message} {sent came : List Message}

theorem sublist (h : Loses k sent came) : came.Sublist sent := by
  induction h with
  | rest => exact List.nil_sublist _
  | came _ ih => exact ih.cons_cons _
  | lost _ _ ih => exact ih.cons _

theorem of_prefix {came' : List Message} (h : Loses k sent came) (hp : came' <+: came) :
    Loses k sent came' := by
  induction h generalizing came' with
  | rest => rw [List.prefix_nil.1 hp]; exact .rest _ _
  | @came k m sent came _ ih =>
    rcases List.prefix_cons_iff.1 hp with rfl | ⟨t, rfl, ht⟩
    · exact .rest _ _
    · exact .came (ih ht)
  | lost hk _ ih => exact .lost hk (ih hp)

/-- What was skipped before the first message that came. -/
theorem exists_skipped (h : Loses k sent (m :: came)) :
    ∃ skipped later, sent = skipped ++ m :: later ∧ (skipped ≠ [] → k + skipped.length < 255) ∧
      Loses 0 later came := by
  generalize hall : m :: came = all at h
  induction h with
  | rest => contradiction
  | @came k m' sent came' hrest ih =>
    obtain ⟨rfl, rfl⟩ := List.cons_eq_cons.1 hall
    exact ⟨[], sent, rfl, fun h => absurd rfl h, hrest⟩
  | @lost k m' sent came' hk _ ih =>
    obtain ⟨skipped, later, rfl, hskipped, hrest⟩ := ih hall
    refine ⟨m' :: skipped, later, rfl, fun _ => ?_, hrest⟩
    rcases skipped with _ | ⟨x, skipped⟩
    · exact hk
    · have := hskipped (List.cons_ne_nil x skipped)
      simp only [List.length_cons] at this ⊢
      omega

end Loses

/-! ## What cycles bring -/

section Arrivals

variable {streams : List UInt8} {stream : UInt8} {limit : Time} {c : Cycle} {cycles : List Cycle}

/-- The headers and the fragments that cycles bring. -/
def arrivals (streams : List UInt8) (stream : UInt8) (cycles : List Cycle) : List Message :=
  (cycles.filter fun c => ¬ Aside streams stream c).filterMap Cycle.received?

theorem arrivals_cons_of_aside (h : Aside streams stream c) :
    arrivals streams stream (c :: cycles) = arrivals streams stream cycles := by
  unfold arrivals
  rw [List.filter_cons_of_neg (by simpa using h)]

theorem received?_of_not_aside (h : ¬ Aside streams stream c) : ∃ m, c.received? = some m := by
  rcases hm : c.received? with _ | m
  · refine absurd (fun m hm' => ?_) h
    rw [hm] at hm'
    contradiction
  · exact ⟨m, rfl⟩

theorem arrivals_cons_of_not {m : Message} (h : ¬ Aside streams stream c)
    (hm : c.received? = some m) :
    arrivals streams stream (c :: cycles) = m :: arrivals streams stream cycles := by
  unfold arrivals
  rw [List.filter_cons_of_pos (by simpa using h), List.filterMap_cons_some hm]

theorem arrivals_append (streams : List UInt8) (stream : UInt8) (before after : List Cycle) :
    arrivals streams stream (before ++ after) =
      arrivals streams stream before ++ arrivals streams stream after := by
  unfold arrivals
  rw [List.filter_append, List.filterMap_append]

/-- The first message that comes, with the cycles before it and after it. -/
theorem exists_first {first : Message} {came : List Message}
    (h : arrivals streams stream cycles = first :: came) :
    ∃ before c after, cycles = before ++ c :: after ∧ (∀ b ∈ before, Aside streams stream b) ∧
      ¬ Aside streams stream c ∧ c.received? = some first ∧
      arrivals streams stream after = came := by
  induction cycles with
  | nil => contradiction
  | cons c cycles ih =>
    by_cases hc : Aside streams stream c
    · rw [arrivals_cons_of_aside hc] at h
      obtain ⟨before, c', after, rfl, hbefore, hrest⟩ := ih h
      exact ⟨c :: before, c', after, rfl, List.forall_mem_cons.2 ⟨hc, hbefore⟩, hrest⟩
    · obtain ⟨m, hm⟩ := received?_of_not_aside hc
      rw [arrivals_cons_of_not hc hm] at h
      obtain ⟨rfl, rfl⟩ := List.cons_eq_cons.1 h
      exact ⟨[], c, cycles, rfl, nofun, hc, hm, rfl⟩

/-- While `n` messages are still to come, nothing comes for longer than `limit`. -/
def Lapses (streams : List UInt8) (stream : UInt8) (limit : Time) :
    Option Time → Nat → List Cycle → Prop
  | _, _, [] => False
  | _, 0, _ :: _ => False
  | latest, n + 1, c :: cycles =>
    if Aside streams stream c then
      (∃ t ∈ latest, limit < Time.elapsed c.now t) ∨
        Lapses streams stream limit latest (n + 1) cycles
    else Lapses streams stream limit (some c.now) n cycles

instance decLapses (streams : List UInt8) (stream : UInt8) (limit : Time) :
    (latest : Option Time) → (n : Nat) → (cycles : List Cycle) →
      Decidable (Lapses streams stream limit latest n cycles)
  | _, _, [] => isFalse id
  | _, 0, _ :: _ => isFalse id
  | latest, n + 1, c :: cycles =>
    let _ := decLapses streams stream limit latest (n + 1) cycles
    let _ := decLapses streams stream limit (some c.now) n cycles
    inferInstanceAs (Decidable (if Aside streams stream c then
        (∃ t ∈ latest, limit < Time.elapsed c.now t) ∨
          Lapses streams stream limit latest (n + 1) cycles
      else Lapses streams stream limit (some c.now) n cycles))

theorem not_lapses_zero (latest : Option Time) (cycles : List Cycle) :
    ¬ Lapses streams stream limit latest 0 cycles := by
  cases cycles <;> exact id

theorem lapses_cons_of_aside {latest : Option Time} {n : Nat} (h : Aside streams stream c) :
    Lapses streams stream limit latest (n + 1) (c :: cycles) ↔
      (∃ t ∈ latest, limit < Time.elapsed c.now t) ∨
        Lapses streams stream limit latest (n + 1) cycles := by
  rw [Lapses, if_pos h]

theorem lapses_cons_of_not {latest : Option Time} {n : Nat} (h : ¬ Aside streams stream c) :
    Lapses streams stream limit latest (n + 1) (c :: cycles) ↔
      Lapses streams stream limit (some c.now) n cycles := by
  rw [Lapses, if_neg h]

/-- Before the first message comes nothing lapses. -/
theorem lapses_of_first {before after : List Cycle} {n : Nat}
    (hbefore : ∀ b ∈ before, Aside streams stream b) (hc : ¬ Aside streams stream c) :
    Lapses streams stream limit none (n + 1) (before ++ c :: after) ↔
      Lapses streams stream limit (some c.now) n after := by
  induction before with
  | nil => exact lapses_cons_of_not hc
  | cons b before ih =>
    obtain ⟨hb, hbefore⟩ := List.forall_mem_cons.1 hbefore
    rw [List.cons_append, lapses_cons_of_aside hb, ih hbefore]
    exact or_iff_right fun ⟨t, ht, _⟩ => nomatch ht

/-- A message that comes does not lapse. -/
theorem lapses_of_append {latest : Option Time} {n : Nat} (hc : ¬ Aside streams stream c)
    (h : Lapses streams stream limit latest n (cycles ++ [c])) :
    Lapses streams stream limit latest n cycles := by
  induction cycles generalizing latest n with
  | nil =>
    cases n with
    | zero => exact h
    | succ n => exact (lapses_cons_of_not hc).1 h
  | cons b cycles ih =>
    cases n with
    | zero => exact h
    | succ n =>
      by_cases hb : Aside streams stream b
      · exact (lapses_cons_of_aside hb).2 (((lapses_cons_of_aside hb).1 h).imp_right ih)
      · exact (lapses_cons_of_not hb).2 (ih ((lapses_cons_of_not hb).1 h))

/-- Cycles that bring nothing but fragments bring no header. -/
theorem not_isHeader_of_arrivals
    (h : ∀ m ∈ arrivals streams stream cycles, IsFragment stream m) :
    ∀ c ∈ cycles, ∀ m, c.received? = some m → ∀ s ∈ streams, ¬ IsHeader s m := by
  intro c hc m hm s hs
  by_cases haside : Aside streams stream c
  · exact (haside m hm).2 s hs
  · have hmem : m ∈ arrivals streams stream cycles :=
      List.mem_filterMap.2 ⟨c, List.mem_filter.2 ⟨hc, by simpa using haside⟩, hm⟩
    exact (h m hmem).not_isHeader s

end Arrivals

/-! ## The receiving side -/

namespace Reception

variable {r : Reception} {stream next : UInt8} {latest : Time} {got rest : List UInt8}
  {c : Cycle} {m : Message} {cycles : List Cycle}

/-- The receiving side after it has given up a payload of which `got` had come. -/
def givenUp (stream : UInt8) (got : List UInt8) (status : ReceiveStatus) (r : Reception) :
    Reception :=
  ({ r with data := got.take r.capacity, failed := r.failed + 1 } : Reception).leave
    { stream, length := got.length, status }

theorem abort_having (hidle : r.inbound = none) (hrest : rest ≠ []) (next : UInt8) (latest : Time)
    (status : ReceiveStatus) :
    (r.having stream got rest next latest).abort status = r.givenUp stream got status := by
  rw [having_of_ne_nil hrest]
  unfold abort midway givenUp leave
  obtain ⟨_, _, _, _, _, _, _, _⟩ := r
  cases hidle
  rfl

theorem turn_of_late (hidle : r.inbound = none) (hrest : rest ≠ [])
    (hc : Aside r.streams stream c) (hlate : r.timeout < Time.elapsed c.now latest) :
    (r.having stream got rest next latest).turn c = r.givenUp stream got .timeout := by
  obtain ⟨i, hi⟩ := exists_inbound_having r stream next latest got hrest
  obtain ⟨_, _, _, hlatest⟩ := inbound_having hidle hi
  rw [turn_of_aside hidle hc, ← abort_having hidle hrest next latest]
  refine pollTimeout_of_lt hi ?_
  rw [timeout_having, hlatest]
  exact hlate

theorem turn_of_gap (hidle : r.inbound = none) (hs : stream ∈ r.streams) (hrest : rest ≠ [])
    {sequence : UInt8} {bytes : List UInt8} (hm : c.received? = some m)
    (hcontinues : Continues stream sequence bytes m) (hne : sequence ≠ next) :
    (r.having stream got rest next latest).turn c = r.givenUp stream got .sequenceError := by
  obtain ⟨i, hi⟩ := exists_inbound_having r stream next latest got hrest
  obtain ⟨_, hstream, hnext, _⟩ := inbound_having hidle hi
  have hs' : stream ∈ (r.having stream got rest next latest).streams := by
    rw [streams_having]
    exact hs
  rw [turn_of_received hm, receive_of_gap hs' hi hstream (hnext ▸ hne) hcontinues,
    abort_having hidle hrest]
  exact pollTimeout_of_none hidle

/-- A transfer that was given up stays so. -/
theorem foldl_turn_givenUp (hidle : r.inbound = none) {status : ReceiveStatus}
    (h : ∀ m ∈ arrivals r.streams stream cycles, IsFragment stream m) :
    cycles.foldl (fun r c => r.turn c) (r.givenUp stream got status) =
      r.givenUp stream got status :=
  foldl_turn_of_none hidle (not_isHeader_of_arrivals h)

/-- What can become of a transfer of which `got` was there and `rest` was still to come, when `came`
    has come since then: what came in order and in time is there as well, or the receiving side has
    given the transfer up at the first gap or, when the time `Lapsed`, at the first long silence. -/
inductive Fate (stream next : UInt8) (got rest : List UInt8) (came : List Message) (Lapsed : Prop)
    (r r' : Reception) : Prop
  | inOrder (latest : Time) : came <+: fragments stream next rest → ¬ Lapsed →
      r' = r.having stream (got ++ rest.take (5 * came.length)) (rest.drop (5 * came.length))
        (nextSequence^[came.length] next) latest →
      Fate stream next got rest came Lapsed r r'
  | gap (k : Nat) : came.take k <+: fragments stream next rest →
      ¬ came.take (k + 1) <+: fragments stream next rest →
      r' = r.givenUp stream (got ++ rest.take (5 * k)) .sequenceError →
      Fate stream next got rest came Lapsed r r'
  | silence (k : Nat) : Lapsed → r' = r.givenUp stream (got ++ rest.take (5 * k)) .timeout →
      Fate stream next got rest came Lapsed r r'

/-- The fragment that is expected comes before the rest. -/
theorem Fate.cons {came : List Message} {Lapsed : Prop} {r' : Reception}
    (hcons : fragments stream next rest = m :: fragments stream (nextSequence next) (rest.drop 5))
    (h : Fate stream (nextSequence next) (got ++ rest.take 5) (rest.drop 5) came Lapsed r r') :
    Fate stream next got rest (m :: came) Lapsed r r' := by
  have htake (k : Nat) : got ++ rest.take 5 ++ (rest.drop 5).take (5 * k) =
      got ++ rest.take (5 * (k + 1)) := by
    rw [List.append_assoc, ← List.take_add, Nat.mul_succ, Nat.add_comm 5]
  cases h with
  | inOrder latest hfront htime hr =>
    refine .inOrder latest ?_ htime ?_
    · rw [hcons]
      exact List.cons_prefix_cons.2 ⟨rfl, hfront⟩
    · rw [hr, htake, List.drop_drop, List.length_cons, Nat.mul_succ, Nat.add_comm 5]
      rfl
  | gap k hk hk' hr =>
    refine .gap (k + 1) ?_ ?_ (hr.trans (by rw [htake]))
    · rw [hcons]
      exact List.cons_prefix_cons.2 ⟨rfl, hk⟩
    · rw [hcons]
      exact fun h => hk' (List.cons_prefix_cons.1 h).2
  | silence k hlapsed hr => exact .silence (k + 1) hlapsed (hr.trans (by rw [htake]))

/-- When another fragment comes than the one that is expected, the transfer is given up. -/
theorem foldl_turn_of_skipped (hidle : r.inbound = none) (hs : stream ∈ r.streams)
    (hnext : next ≠ 0) {skipped later : List Message} (hm : c.received? = some m)
    (hsent : fragments stream next rest = skipped ++ m :: later) (hskipped : skipped ≠ [])
    (hfew : skipped.length < 255)
    (hfragments : ∀ m' ∈ arrivals r.streams stream cycles, IsFragment stream m')
    (Lapsed : Prop) :
    Fate stream next got rest (m :: arrivals r.streams stream cycles) Lapsed r
      (cycles.foldl (fun r c => r.turn c) ((r.having stream got rest next latest).turn c)) := by
  obtain ⟨bytes, hcontinues⟩ := continues_of_fragments_eq hnext hsent
  have hne : nextSequence^[skipped.length] next ≠ next :=
    iterate_nextSequence_ne hnext (List.length_pos_iff.2 hskipped) hfew
  have hrest : rest ≠ [] := by
    rintro rfl
    exact absurd (List.append_eq_nil_iff.1 hsent.symm).1 hskipped
  refine .gap 0 List.nil_prefix (fun hfront => ?_) ?_
  · -- the fragment that is expected has the number that is expected
    obtain ⟨m', _, hcons, hcontinues', _⟩ := fragments_eq_cons stream hnext hrest
    rw [hcons] at hfront
    obtain rfl : m = m' := (List.cons_prefix_cons.1 hfront).1
    exact hne (Option.some.inj (hcontinues.2.1.symm.trans hcontinues'.2.1))
  · rw [turn_of_gap hidle hs hrest hm hcontinues hne, foldl_turn_givenUp hidle hfragments]
    simp

/-- What becomes of a transfer when cycles bring some of the fragments that are still to come. By
    induction over the cycles. -/
theorem foldl_turn_cases (hidle : r.inbound = none) (hs : stream ∈ r.streams) (hnext : next ≠ 0)
    (latest : Time) (got : List UInt8)
    (hlost : Loses 0 (fragments stream next rest) (arrivals r.streams stream cycles)) :
    Fate stream next got rest (arrivals r.streams stream cycles)
      (Lapses r.streams stream r.timeout (some latest) (fragments stream next rest).length cycles) r
      (cycles.foldl (fun r c => r.turn c) (r.having stream got rest next latest)) := by
  have hfragment : ∀ m ∈ arrivals r.streams stream cycles, IsFragment stream m := fun m hm =>
    isFragment_of_mem hnext (hlost.sublist.subset hm)
  induction cycles generalizing got rest next latest with
  | nil =>
    refine .inOrder latest List.nil_prefix id ?_
    simp [arrivals]
  | cons c cycles ih =>
    by_cases hrest : rest = []
    · -- all has come before, and no header comes any more
      subst hrest
      have hcame : arrivals r.streams stream (c :: cycles) = [] :=
        List.sublist_nil.1 hlost.sublist
      have hquiet := foldl_turn_of_none (r := r.received stream got) hidle
        (not_isHeader_of_arrivals hfragment)
      refine .inOrder latest (hcame ▸ List.nil_prefix) (not_lapses_zero _ _) ?_
      rw [hcame, having_nil, hquiet]
      simp [having_nil]
    · obtain ⟨m', bytes, hcons, hcontinues, hbytes⟩ := fragments_eq_cons stream hnext hrest
      rw [List.foldl_cons]
      by_cases hc : Aside r.streams stream c
      · rw [arrivals_cons_of_aside hc] at hlost hfragment ⊢
        rw [hcons, List.length_cons, lapses_cons_of_aside hc]
        by_cases hlate : r.timeout < Time.elapsed c.now latest
        · refine .silence 0 (Or.inl ⟨latest, rfl, hlate⟩) ?_
          rw [turn_of_late hidle hrest hc hlate, foldl_turn_givenUp hidle hfragment]
          simp
        · have hfate := ih hnext latest got hlost hfragment
          rw [hcons, List.length_cons] at hfate
          rw [turn_of_aside hidle hc, pollTimeout_having hidle fun _ => Nat.le_of_not_lt hlate]
          rwa [or_iff_right fun ⟨t, ht, hlt⟩ => hlate (Option.some.inj ht ▸ hlt)]
      · obtain ⟨m, hm⟩ := received?_of_not_aside hc
        rw [arrivals_cons_of_not hc hm] at hlost hfragment ⊢
        have hfragments := (List.forall_mem_cons.1 hfragment).2
        obtain ⟨skipped, later, hsent, hfew, hlater⟩ := hlost.exists_skipped
        by_cases hskipped : skipped = []
        · -- the fragment that is expected
          subst hskipped
          obtain ⟨rfl, rfl⟩ := List.cons_eq_cons.1 (hcons.symm.trans hsent)
          refine .cons hcons ?_
          rw [hcons, List.length_cons, lapses_cons_of_not hc,
            turn_of_continues hidle hs hrest hm hcontinues hbytes]
          exact ih (nextSequence_ne_zero next) c.now (got ++ rest.take 5) hlater hfragments
        · -- a later one: fewer than 255 were lost, so its number gives it away
          have hfew := hfew hskipped
          exact foldl_turn_of_skipped hidle hs hnext hm hsent hskipped (by omega) hfragments _

/-- Up to the header nothing happens, and the header opens the transfer. -/
theorem foldl_turn_of_first {before after : List Cycle} {payload : List UInt8}
    (hidle : r.inbound = none) (hs : stream ∈ r.streams) (hlength : payload.length ≤ maxLength)
    (hbefore : ∀ b ∈ before, Aside r.streams stream b)
    (hc : c.received? = some (header stream payload.length)) :
    (before ++ c :: after).foldl (fun r c => r.turn c) r =
      after.foldl (fun r c => r.turn c) (r.having stream [] payload 1 c.now) := by
  rw [List.foldl_append, List.foldl_cons,
    foldl_turn_of_none hidle fun b hb m hm => (hbefore b hb m hm).2,
    turn_of_announces hidle hs hlength hc (announces_header stream _)]

/-- What is left of a payload when some of its fragments have come in order. -/
theorem drop_eq_nil_iff {payload : List UInt8} {came : List Message}
    (h : came <+: fragments stream 1 payload) :
    payload.drop (5 * came.length) = [] ↔ came = fragments stream 1 payload := by
  have hone : (1 : UInt8) ≠ 0 := by decide
  have hdrop : (fragments stream 1 payload).drop came.length = fragments stream _ _ :=
    fragments_drop hone came.length
  constructor
  · intro hnil
    rw [hnil] at hdrop
    exact h.eq_of_length_le (List.drop_eq_nil_iff.1 hdrop)
  · intro heq
    have hnone : (fragments stream 1 payload).drop came.length = [] := by
      rw [heq, List.drop_length]
    rw [hnone] at hdrop
    exact eq_nil_of_fragments_eq_nil (iterate_nextSequence_ne_zero hone _) hdrop.symm

/-- What is reported of a transfer at the end of some cycles: that all has come, that something is
    missing, or nothing yet. -/
theorem receipts_cases (hidle : r.inbound = none) (hs : stream ∈ r.streams) (latest : Time)
    {payload : List UInt8}
    (hlost : Loses 0 (fragments stream 1 payload) (arrivals r.streams stream cycles)) :
    ∃ reported, (cycles.foldl (fun r c => r.turn c)
        (r.having stream [] payload 1 latest)).receipts = r.receipts.putAll reported ∧
      reported.length ≤ 1 ∧ ((∃ x ∈ reported, x.status = .complete ∨ x.status = .truncated) ↔
        arrivals r.streams stream cycles = fragments stream 1 payload ∧
          ¬ Lapses r.streams stream r.timeout (some latest) (fragments stream 1 payload).length
            cycles) := by
  have hfailed {n : Nat} {status : ReceiveStatus} (hcomplete : status ≠ .complete)
      (htruncated : status ≠ .truncated) : ¬ ∃ x ∈ [({ stream, length := n, status } : Receipt)],
        x.status = .complete ∨ x.status = .truncated := by
    rintro ⟨x, hx, hstatus⟩
    rw [List.mem_singleton.1 hx] at hstatus
    exact hstatus.elim hcomplete htruncated
  rcases foldl_turn_cases hidle hs (by decide) latest [] hlost with
    ⟨latest', hfront, htime, hr⟩ | ⟨k, _, hgap, hr⟩ | ⟨k, hlapses, hr⟩
  · rw [hr]
    by_cases hall : payload.drop (5 * (arrivals r.streams stream cycles).length) = []
    · rw [hall, having_nil]
      refine ⟨[_], rfl, Nat.le_refl 1, iff_of_true ⟨_, List.mem_singleton_self _, ?_⟩
        ⟨(drop_eq_nil_iff hfront).1 hall, htime⟩⟩
      dsimp only
      split
      · exact Or.inr rfl
      · exact Or.inl rfl
    · rw [having_of_ne_nil hall]
      refine ⟨[], rfl, Nat.zero_le 1, iff_of_false ?_ fun h => ?_⟩
      · rintro ⟨x, hx, _⟩
        exact nomatch hx
      · exact hall ((drop_eq_nil_iff hfront).2 h.1)
  · rw [hr]
    refine ⟨[_], rfl, Nat.le_refl 1, iff_of_false (hfailed nofun nofun) fun h => hgap ?_⟩
    rw [← h.1]
    exact List.take_prefix _ _
  · rw [hr]
    exact ⟨[_], rfl, Nat.le_refl 1, iff_of_false (hfailed nofun nofun) fun h => h.2 hlapses⟩

/-- When the fragments came in order and in time up to a gap, what came before the gap is kept and
    what comes afterwards is not. -/
theorem foldl_turn_of_gap (hidle : r.inbound = none) (hs : stream ∈ r.streams) (latest : Time)
    {payload : List UInt8} {before later : List Cycle} {got : List Message}
    (hlost : Loses 0 (fragments stream 1 payload)
      (arrivals r.streams stream (before ++ c :: later)))
    (hbefore : arrivals r.streams stream before = got)
    (hgot : got <+: fragments stream 1 payload)
    (hc : arrivals r.streams stream [c] = [m])
    (hgap : ¬ (got ++ [m]) <+: fragments stream 1 payload)
    (htime : ¬ Lapses r.streams stream r.timeout (some latest)
      (fragments stream 1 payload).length before) :
    (before ++ c :: later).foldl (fun r c => r.turn c) (r.having stream [] payload 1 latest) =
        r.givenUp stream (payload.take (5 * got.length)) .sequenceError ∧
      5 * got.length ≤ payload.length := by
  have hone : (1 : UInt8) ≠ 0 := by decide
  have haside : ¬ Aside r.streams stream c := by
    intro haside
    rw [arrivals_cons_of_aside haside] at hc
    contradiction
  have hsplit : before ++ c :: later = (before ++ [c]) ++ later := by
    rw [List.append_assoc, List.singleton_append]
  have hcame : arrivals r.streams stream (before ++ [c]) = got ++ [m] := by
    rw [arrivals_append, hbefore, hc]
  rw [hsplit, arrivals_append, hcame] at hlost
  have hfragments : ∀ m' ∈ arrivals r.streams stream later, IsFragment stream m' := fun m' hm' =>
    isFragment_of_mem hone (hlost.sublist.subset (List.mem_append_right _ hm'))
  have hfirst := hlost.of_prefix (List.prefix_append _ _)
  rw [← hcame] at hfirst
  rw [hsplit, List.foldl_append]
  rcases foldl_turn_cases hidle hs hone latest [] hfirst with
    ⟨_, hfront, _, _⟩ | ⟨k, hk, hk', hr⟩ | ⟨_, hlapses, _⟩
  · rw [hcame] at hfront
    exact absurd hfront hgap
  · rw [hcame] at hk hk'
    have hlength : k = got.length := by
      rcases Nat.lt_trichotomy k got.length with hlt | heq | hgt
      · rw [List.take_append_of_le_length hlt] at hk'
        exact absurd ((List.take_prefix _ _).trans hgot) hk'
      · exact heq
      · rw [List.take_of_length_le (by rw [List.length_append]; exact hgt)] at hk
        exact absurd hk hgap
    rw [hr, List.nil_append, hlength, foldl_turn_givenUp hidle hfragments]
    refine ⟨rfl, ?_⟩
    -- another fragment was sent behind those that came, so there were bytes for it
    by_contra hshort
    have hnil : payload.drop (5 * got.length) = [] := List.drop_eq_nil_iff.2 (by omega)
    have hle := hfirst.sublist.length_le
    rw [hcame, ← (drop_eq_nil_iff hgot).1 hnil, List.length_append, List.length_singleton] at hle
    omega
  · exact absurd (lapses_of_append haside hlapses) htime

/-- The same from the header on. -/
theorem foldl_turn_of_message_gap (hidle : r.inbound = none) (hs : stream ∈ r.streams)
    {payload : List UInt8} (hlength : payload.length ≤ maxLength) {first : Message}
    {before later : List Cycle} {got came : List Message}
    (hfirst : first = header stream payload.length)
    (hcame : arrivals r.streams stream (before ++ c :: later) = first :: came)
    (hlost : Loses 0 (fragments stream 1 payload) came)
    (hbefore : arrivals r.streams stream before = first :: got)
    (hgot : got <+: fragments stream 1 payload)
    (hc : arrivals r.streams stream [c] = [m])
    (hgap : ¬ (got ++ [m]) <+: fragments stream 1 payload)
    (htime : ¬ Lapses r.streams stream r.timeout none
      ((fragments stream 1 payload).length + 1) before) :
    (before ++ c :: later).foldl (fun r c => r.turn c) r =
        r.givenUp stream (payload.take (5 * got.length)) .sequenceError ∧
      5 * got.length ≤ payload.length := by
  subst hfirst
  obtain ⟨quiet, c₁, mid, rfl, hquiet, hnot, hheader, hmid⟩ := exists_first hbefore
  rw [lapses_of_first hquiet hnot] at htime
  rw [arrivals_append, hbefore, List.cons_append] at hcame
  have hrest : arrivals r.streams stream (mid ++ c :: later) = came := by
    rw [arrivals_append, hmid]
    exact (List.cons_eq_cons.1 hcame).2
  rw [List.append_assoc, List.cons_append,
    foldl_turn_of_first hidle hs hlength hquiet hheader]
  exact foldl_turn_of_gap hidle hs c₁.now (hrest ▸ hlost) hmid hgot hc hgap htime

end Reception

/-! ## From one service to another -/

/-- A payload that one service sends is reported as received exactly if all its fragments came and
    there was no long silence between them. Once a fragment comes behind a gap, in time, just one
    error is reported, with the number of bytes that came before the gap, and nothing that comes
    later is stored. -/
theorem losses_detected {sender sending receiver : LongMessage} {stream : UInt8}
    {payload : List UInt8} {sends receives : List Visit} {first : Message}
    {sent came : List Message} (hsend : sender.send stream payload = .ok sending)
    (hdone : (sending.after sends).transmission.isSending = false)
    (hsent : sending.emitted sends = (first :: sent).map .transmit)
    (hsubscribed : stream ∈ receiver.reception.streams)
    (hidle : receiver.reception.inbound = none)
    (hcame : arrivals receiver.reception.streams stream (receives.map Visit.cycle) =
      first :: came) (hlost : Loses 0 sent came) :
    let r := receiver.reception
    let r' := (receiver.after receives).reception
    let cycles := receives.map Visit.cycle
    let limit := r.timeout
    ∃ reported, r'.receipts = r.receipts.putAll reported ∧
      ((∃ x ∈ reported, x.status = .complete ∨ x.status = .truncated) ↔
        came = sent ∧ ¬ Lapses r.streams stream limit none (sent.length + 1) cycles) ∧
      ∀ before c later got m, cycles = before ++ c :: later →
        arrivals r.streams stream before = first :: got → got <+: sent →
        arrivals r.streams stream [c] = [m] → ¬ (got ++ [m]) <+: sent →
        ¬ Lapses r.streams stream limit none (sent.length + 1) before →
        reported = [{ stream, length := 5 * got.length, status := .sequenceError }] ∧
          r'.data = (payload.take (5 * got.length)).take r.capacity ∧ r'.inbound = none := by
  have hmessages : first :: sent = messages stream payload := by
    have hmap := hsent.symm.trans (emitted_eq_messages hsend hdone)
    exact (List.map_injective_iff.2 fun _ _ h => Action.transmit.inj h) hmap
  obtain ⟨rfl, rfl⟩ := List.cons_eq_cons.1 hmessages
  intro r r' cycles limit
  obtain ⟨quiet, c₁, after, hcycles, hquiet, hnot, hheader, hafter⟩ := exists_first hcame
  have hlength := length_le_of_send hsend
  have hfoldl : r' = cycles.foldl (fun r c => r.turn c) r := receiver.reception_after receives
  have hr' : r' = after.foldl (fun r c => r.turn c) (r.having stream [] payload 1 c₁.now) := by
    rw [hfoldl, show cycles = quiet ++ c₁ :: after from hcycles]
    exact Reception.foldl_turn_of_first hidle hsubscribed hlength hquiet hheader
  obtain ⟨reported, hreceipts, hone, hiff⟩ :=
    Reception.receipts_cases hidle hsubscribed c₁.now (hafter.symm ▸ hlost)
  rw [← hr'] at hreceipts
  refine ⟨reported, hreceipts, ?_, ?_⟩
  · rw [hiff, hafter, show cycles = quiet ++ c₁ :: after from hcycles,
      lapses_of_first hquiet hnot]
  · intro before c later got m hsplit hbefore hgot hc hgap htime
    obtain ⟨hend, hbytes⟩ := Reception.foldl_turn_of_message_gap hidle hsubscribed hlength rfl
      ((congrArg _ hsplit.symm).trans hcame) hlost hbefore hgot hc hgap htime
    rw [← hsplit, ← hfoldl] at hend
    refine ⟨Backlog.eq_singleton_of_putAll (by decide) hone (hreceipts.symm.trans ?_), ?_, ?_⟩
    · rw [hend]
      show r.receipts.put ⟨stream, (payload.take (5 * got.length)).length, _⟩ = _
      rw [List.length_take_of_le hbytes]
    · rw [hend]
      rfl
    · rw [hend]
      exact hidle

/-! ## A short transfer with a gap -/

/-- A service that sends twelve bytes on stream 3. -/
def sampleSendingMore : LongMessage :=
  let s := ofCapacities .standard 0 16
  { s with
    transmission :=
      { s.transmission with pending := messages 3 [1, 2, 3, 4, 5, 6, 7, 8, 9, 10, 11, 12] } }

def sampleSendsMore : List Visit :=
  [0, 20000, 40000, 60000].map fun now => sampleVisit now none

/-- The cycles of the receiver, without the second fragment. -/
def sampleReceivesGap : List Visit :=
  [sampleVisit 100 (header 3 12), sampleVisit 20000 (fragment 3 1 1 2 3 4 5),
    sampleVisit 30000 none, sampleVisit 60000 (fragment 3 3 11 12 0 0 0),
    sampleVisit 9000000 none]

theorem losses_detected_sample :
    (sampleReceiver.after sampleReceivesGap).reception.receipts.items =
        [{ stream := 3, length := 5, status := .sequenceError }] ∧
      (sampleReceiver.after sampleReceivesGap).reception.data = [1, 2, 3, 4, 5] := by
  have hsend : (ofCapacities .standard 0 16).send 3 [1, 2, 3, 4, 5, 6, 7, 8, 9, 10, 11, 12] =
      .ok sampleSendingMore := by
    decide
  have hdone : (sampleSendingMore.after sampleSendsMore).transmission.isSending = false := by decide
  have hsent : sampleSendingMore.emitted sampleSendsMore =
      (header 3 12 :: [fragment 3 1 1 2 3 4 5, fragment 3 2 6 7 8 9 10,
        fragment 3 3 11 12 0 0 0]).map .transmit := by
    decide
  have hcame : arrivals sampleReceiver.reception.streams 3 (sampleReceivesGap.map Visit.cycle) =
      header 3 12 :: [fragment 3 1 1 2 3 4 5, fragment 3 3 11 12 0 0 0] := by
    decide +kernel
  have hlost : Loses 0
      [fragment 3 1 1 2 3 4 5, fragment 3 2 6 7 8 9 10, fragment 3 3 11 12 0 0 0]
      [fragment 3 1 1 2 3 4 5, fragment 3 3 11 12 0 0 0] :=
    .came (.lost (by decide) (.came (.rest 0 [])))
  obtain ⟨reported, hreceipts, -, hgap⟩ :=
    losses_detected hsend hdone hsent (by decide) (by decide) hcame hlost
  obtain ⟨hreported, hdata, -⟩ :=
    hgap ((sampleReceivesGap.take 3).map Visit.cycle)
      (sampleVisit 60000 (fragment 3 3 11 12 0 0 0)).cycle
      ((sampleReceivesGap.drop 4).map Visit.cycle) [fragment 3 1 1 2 3 4 5]
      (fragment 3 3 11 12 0 0 0) rfl (by decide +kernel) (by decide) (by decide +kernel) (by decide)
      (by decide +kernel)
  rw [hreceipts, hreported, hdata]
  exact ⟨by decide, by decide⟩

end RailNode.LongMessage
