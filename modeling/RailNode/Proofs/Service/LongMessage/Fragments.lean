import Mathlib.Data.List.Range
import RailNode.Proofs.Service.LongMessage.Visits

/-
  The messages of a payload, byte for byte: a header with the length, the high byte first, and one
  fragment for every five bytes that were begun. The sequence numbers count from 1 to 255 and start
  again at 1; a last fragment that the payload does not fill ends with zeros.
-/
namespace RailNode.LongMessage

/-! ## Sequence numbers -/

/-- The sequence number of the fragment that has `i` before it. -/
def sequenceAt (i : Nat) : UInt8 := UInt8.ofNat (i % 255 + 1)

theorem toNat_sequenceAt (i : Nat) : (sequenceAt i).toNat = i % 255 + 1 := by
  have hlt : i % 255 + 1 < 256 := by omega
  exact UInt8.toNat_ofNat_of_lt' hlt

theorem nextSequence_sequenceAt (i : Nat) : nextSequence (sequenceAt i) = sequenceAt (i + 1) := by
  have hnumber := toNat_sequenceAt i
  have hnext := toNat_sequenceAt (i + 1)
  apply UInt8.toNat_inj.1
  unfold nextSequence
  split_ifs with hlast
  · rw [hlast] at hnumber
    have h255 : 255 = i % 255 + 1 := hnumber
    rw [hnext]
    show 1 = _
    omega
  · have hne : (sequenceAt i).toNat ≠ 255 := fun h => hlast (UInt8.toNat_inj.1 h)
    rw [UInt8.toNat_add, hnumber, hnext]
    show (i % 255 + 1 + 1) % 256 = _
    omega

/-! ## Fragments -/

/-- The bytes of a fragment with the first five bytes of `rest`, or all of it and zeros. -/
def fragmentBytes (stream sequence : UInt8) (rest : List UInt8) : List UInt8 :=
  [0xE9, stream, sequence] ++ (rest.take 5).rightpad 5 0

/-- The first fragment of what is left of a payload brings five bytes of it, or all that is
    left. -/
theorem fragments_of_ne_nil (stream sequence : UInt8) {rest : List UInt8} (h : rest ≠ []) :
    ∃ m, fragments stream sequence rest =
        m :: fragments stream (nextSequence sequence) (rest.drop 5) ∧
      m.bytes = fragmentBytes stream sequence rest := by
  match rest, h with
  | [_], _ => exact ⟨_, rfl, rfl⟩
  | [_, _], _ => exact ⟨_, rfl, rfl⟩
  | [_, _, _], _ => exact ⟨_, rfl, rfl⟩
  | [_, _, _, _], _ => exact ⟨_, rfl, rfl⟩
  | _ :: _ :: _ :: _ :: _ :: _, _ => exact ⟨_, rfl, rfl⟩

/-- How many fragments a payload of `n` bytes has. -/
def fragmentCount (n : Nat) : Nat := (n + 4) / 5

/-- The fragments of the rest of a payload, when `k` have gone before. By induction on what is
    left, which is five bytes shorter after every fragment. -/
theorem bytes_fragments (stream : UInt8) (k : Nat) (rest : List UInt8) :
    (fragments stream (sequenceAt k) rest).map Message.bytes =
      (List.range (fragmentCount rest.length)).map fun i =>
        fragmentBytes stream (sequenceAt (k + i)) (rest.drop (5 * i)) := by
  induction hn : rest.length using Nat.strong_induction_on generalizing k rest with
  | _ n ih =>
    subst hn
    by_cases hrest : rest = []
    · rw [hrest]
      rfl
    · have hpos : 0 < rest.length := List.length_pos_iff.2 hrest
      have hcount : fragmentCount rest.length = fragmentCount (rest.drop 5).length + 1 := by
        rw [List.length_drop]
        unfold fragmentCount
        omega
      obtain ⟨m, hfragments, hbytes⟩ := fragments_of_ne_nil stream (sequenceAt k) hrest
      have hlater := ih (rest.drop 5).length (by rw [List.length_drop]; omega) (k + 1)
        (rest.drop 5) rfl
      rw [hfragments, List.map_cons, hbytes, nextSequence_sequenceAt, hlater, hcount,
        List.range_succ_eq_map, List.map_cons, List.map_map]
      refine congrArg₂ _ rfl (List.map_congr_left fun i _ => ?_)
      dsimp only [Function.comp_apply]
      rw [List.drop_drop, Nat.add_right_comm, Nat.add_assoc, Nat.mul_succ, Nat.add_comm 5]

/-! ## All messages -/

theorem high_ofNat {n : Nat} (h : n ≤ maxLength) :
    Word.high (UInt16.ofNat n) = UInt8.ofNat (n / 256) := by
  have hlt : n < 65536 := Nat.lt_succ_of_le h
  apply UInt8.toNat_inj.1
  have hshift : (UInt16.ofNat n >>> 8).toNat = n / 256 := by
    rw [UInt16.toNat_shiftRight, UInt16.toNat_ofNat', Nat.mod_eq_of_lt hlt]
    exact Nat.shiftRight_eq_div_pow n 8
  rw [Word.high, UInt16.toNat_toUInt8, hshift, UInt8.toNat_ofNat']

theorem low_ofNat {n : Nat} (h : n ≤ maxLength) :
    Word.low (UInt16.ofNat n) = UInt8.ofNat (n % 256) := by
  have hlt : n < 65536 := Nat.lt_succ_of_le h
  apply UInt8.toNat_inj.1
  rw [Word.low, UInt16.toNat_toUInt8, UInt16.toNat_ofNat', Nat.mod_eq_of_lt hlt,
    UInt8.toNat_ofNat', Nat.mod_mod]

/-- The messages of a payload as they stand on the bus. -/
def wire (stream : UInt8) (payload : List UInt8) : List (List UInt8) :=
  let n := payload.length
  [0xE9, stream, 0, UInt8.ofNat (n / 256), UInt8.ofNat (n % 256), 0, 0, 0] ::
    (List.range (fragmentCount n)).map fun i =>
      fragmentBytes stream (sequenceAt i) (payload.drop (5 * i))

theorem bytes_messages (stream : UInt8) {payload : List UInt8} (h : payload.length ≤ maxLength) :
    (messages stream payload).map Message.bytes = wire stream payload := by
  have hfragments := bytes_fragments stream 0 payload
  simp only [Nat.zero_add] at hfragments
  rw [messages, List.map_cons, show (1 : UInt8) = sequenceAt 0 from rfl, hfragments]
  refine congrArg₂ _ ?_ rfl
  rw [← high_ofNat h, ← low_ofNat h]
  rfl

end RailNode.LongMessage
