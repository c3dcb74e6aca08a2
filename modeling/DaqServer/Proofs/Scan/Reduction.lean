import DaqServer.Scan.Accumulator
import Mathlib.Algebra.Order.BigOperators.Group.List
import Mathlib.Algebra.Order.Round
import Mathlib.Data.Rat.Floor
import Mathlib.Data.List.Induction

/-!
# What a channel is reduced to

`reduction` says which number the conversions of a channel stand for: the only one, the rounded mean
of two, or the rounded mean of all but the first. It is what an accumulator that took them all gives
(`toNat_reduce`). Main statement: whatever an accumulator was given, it holds what its first
`oversample + 1` samples make, and with any counts in the mean it gives their rounded mean, which
lies among them and so is a count itself.
-/

namespace DaqServer

/-- The mean of some counts, rounded to the nearest whole number, a half upwards. -/
def roundedMean (counts : List UInt16) : Int :=
  round (((counts.map UInt16.toNat).sum : ℚ) / counts.length)

def reduction : List UInt16 → Int
  | [count] => count.toNat
  | [first, second] => roundedMean [first, second]
  | counts => roundedMean counts.tail

theorem roundedMean_eq {counts : List UInt16} (h : counts ≠ []) :
    roundedMean counts =
      ↑(((counts.map UInt16.toNat).sum + counts.length / 2) / counts.length) := by
  have hpos : (counts.length : ℚ) ≠ 0 := by
    rw [Nat.cast_ne_zero, ← Nat.pos_iff_ne_zero]
    exact List.length_pos_iff.mpr h
  rw [roundedMean, round_eq]
  generalize (counts.map UInt16.toNat).sum = sum
  generalize counts.length = n at hpos
  have hsum : (sum : ℚ) / n + 1 / 2 = ((2 * sum + n : ℕ) : ℚ) / ((2 * n : ℕ) : ℚ) := by
    push_cast
    field_simp
  have hhalf : (2 * sum + n) / 2 = sum + n / 2 := by omega
  rw [hsum, Rat.floor_natCast_div_natCast, ← Int.natCast_ediv, ← Nat.div_div_eq_div_mul, hhalf]

theorem sum_toNat_le {counts : List UInt16} {most : Nat} (h : ∀ c ∈ counts, c.toNat ≤ most) :
    (counts.map UInt16.toNat).sum ≤ counts.length * most := by
  have hsum := List.sum_le_card_nsmul _ _ (List.forall_mem_map.mpr h)
  rwa [List.length_map, Nat.nsmul_eq_mul] at hsum

theorem le_sum_toNat {counts : List UInt16} {least : Nat} (h : ∀ c ∈ counts, least ≤ c.toNat) :
    counts.length * least ≤ (counts.map UInt16.toNat).sum := by
  have hsum := List.card_nsmul_le_sum _ _ (List.forall_mem_map.mpr h)
  rwa [List.length_map, Nat.nsmul_eq_mul] at hsum

/-- A mean of counts is a count. -/
theorem toNat_mean {counts : List UInt16} (h : counts ≠ []) :
    ((UInt16.ofNat (((counts.map UInt16.toNat).sum + counts.length / 2) / counts.length)).toNat :
      Int) = roundedMean counts := by
  have hpos := List.length_pos_iff.mpr h
  have hsum : (counts.map UInt16.toNat).sum ≤ counts.length * 65535 :=
    sum_toNat_le fun c _ => Nat.le_of_lt_succ c.toNat_lt
  rw [roundedMean_eq h, UInt16.toNat_ofNat_of_lt']
  rw [Nat.div_lt_iff_lt_mul hpos]
  change _ < 65536 * counts.length
  omega

/-- A rounded mean is not below all of its counts and not above all of them. -/
theorem mean_between {counts : List UInt16} (h : counts ≠ []) {count : UInt16}
    (hcount : count.toNat =
      ((counts.map UInt16.toNat).sum + counts.length / 2) / counts.length) :
    (∃ least ∈ counts, least ≤ count) ∧ ∃ most ∈ counts, count ≤ most := by
  have hpos : 0 < counts.length := List.length_pos_iff.mpr h
  constructor
  · by_contra habove
    have hsum : counts.length * (count.toNat + 1) ≤ (counts.map UInt16.toNat).sum :=
      le_sum_toNat fun c hc =>
        UInt16.lt_iff_toNat_lt.mp (UInt16.not_le.mp fun hle => habove ⟨c, hc, hle⟩)
    have hquotient : count.toNat + 1 ≤
        ((counts.map UInt16.toNat).sum + counts.length / 2) / counts.length := by
      rw [Nat.le_div_iff_mul_le hpos, Nat.mul_comm]
      exact Nat.le_add_right_of_le hsum
    omega
  · by_contra hbelow
    have hlt : ∀ c ∈ counts, c.toNat < count.toNat := fun c hc =>
      UInt16.lt_iff_toNat_lt.mp (UInt16.not_le.mp fun hle => hbelow ⟨c, hc, hle⟩)
    obtain ⟨n, hn⟩ : ∃ n, count.toNat = n + 1 :=
      Nat.exists_eq_succ_of_ne_zero (Nat.ne_zero_of_lt (hlt _ (List.head_mem h)))
    have hsum := sum_toNat_le fun c hc => Nat.le_of_lt_succ (hn ▸ hlt c hc)
    have hproduct : count.toNat * counts.length ≤
        (counts.map UInt16.toNat).sum + counts.length / 2 := by
      rw [hcount]
      exact Nat.div_mul_le_self _ _
    rw [hn, Nat.succ_mul, Nat.mul_comm] at hproduct
    omega

theorem reduction_eq (counts : List UInt16) (h : counts ≠ []) :
    reduction counts = roundedMean (if 2 < counts.length then counts.tail else counts) := by
  rcases counts with _ | ⟨first, _ | ⟨second, _ | ⟨third, counts⟩⟩⟩
  · exact absurd rfl h
  · simp [reduction, roundedMean]
  · rfl
  · simp [reduction]

namespace Accumulator

/-- The samples that make up the mean. -/
def averaged (oversample : UInt8) (raws : List UInt32) : List UInt32 :=
  if 1 < oversample then raws.tail else raws

theorem map_count_averaged (oversample : UInt8) (raws : List UInt32) :
    (averaged oversample raws).map Sample.count =
      if 1 < oversample then (raws.map Sample.count).tail else raws.map Sample.count := by
  rw [averaged, apply_ite (List.map Sample.count), List.map_tail]

theorem reduce_eq_none_iff {acc : Accumulator} :
    acc.reduce = none ↔ acc.included = 0 ∧ acc.first = none := by
  rw [reduce]
  split
  · rename_i hnone
    rw [Option.map_eq_none_iff]
    exact (and_iff_right hnone).symm
  · rename_i hsome
    exact ⟨nofun, fun h => absurd h.1 hsome⟩

/-- With some counts in the mean an accumulator gives their rounded mean. -/
theorem reduce_of_ne_nil {counts : List UInt16} (h : counts ≠ []) (seen : Nat)
    (first : Option (UInt16 × UInt32)) :
    ∃ count, reduce ⟨(counts.map UInt16.toNat).sum, seen, counts.length, first⟩ = some count ∧
      (count.toNat : Int) = roundedMean counts ∧
      count.toNat = ((counts.map UInt16.toNat).sum + counts.length / 2) / counts.length := by
  refine ⟨_, if_neg (mt List.length_eq_zero_iff.mp h), toNat_mean h, ?_⟩
  rw [← Int.natCast_inj, toNat_mean h, roundedMean_eq h]

theorem pushAll_empty {oversample : UInt8} {raws : List UInt32}
    (h : raws.length ≤ oversample.toNat + 1) :
    empty.pushAll oversample raws =
      { sum := (((averaged oversample raws).map Sample.count).map UInt16.toNat).sum
        seen := raws.length
        included := (averaged oversample raws).length
        first := raws.head?.map fun raw => (Sample.count raw, Sample.metadata raw) } := by
  -- The accumulator takes the samples from the left, so the last one is split off.
  induction raws using List.reverseRecOn with
  | nil => simp [averaged, empty]
  | append_singleton raws raw ih =>
      rw [List.length_append, List.length_singleton] at h
      have hseen : ¬ oversample.toNat + 1 ≤ raws.length := by omega
      rw [pushAll_append, ih (by omega), pushAll_cons, pushAll_nil, push, if_neg hseen]
      cases raws with
      | nil => by_cases hover : 1 < oversample <;> simp [averaged, hover]
      | cons first raws =>
          by_cases hover : 1 < oversample <;> simp [averaged, hover, Nat.add_assoc]

theorem push_of_full {oversample : UInt8} {acc : Accumulator}
    (h : oversample.toNat + 1 ≤ acc.seen) (raw : UInt32) : acc.push oversample raw = acc :=
  if_pos h

theorem pushAll_of_full {oversample : UInt8} {acc : Accumulator}
    (h : oversample.toNat + 1 ≤ acc.seen) (raws : List UInt32) :
    acc.pushAll oversample raws = acc := by
  induction raws with
  | nil => rfl
  | cons raw raws ih => rw [pushAll_cons, push_of_full h, ih]

/-- Samples beyond the last wanted one have no influence. -/
theorem pushAll_take (oversample : UInt8) (raws : List UInt32) :
    empty.pushAll oversample (raws.take (oversample.toNat + 1)) =
      empty.pushAll oversample raws := by
  rcases Nat.le_total raws.length (oversample.toNat + 1) with hfew | hmany
  · rw [List.take_of_length_le hfew]
  · have htaken : (raws.take (oversample.toNat + 1)).length = oversample.toNat + 1 :=
      List.length_take_of_le hmany
    have hfull : oversample.toNat + 1 ≤
        (empty.pushAll oversample (raws.take (oversample.toNat + 1))).seen := by
      rw [pushAll_empty htaken.le]
      exact htaken.ge
    conv_rhs => rw [← List.take_append_drop (oversample.toNat + 1) raws, pushAll_append]
    exact (pushAll_of_full hfull _).symm

theorem metadata_pushAll {oversample : UInt8} {raws : List UInt32}
    (h : raws.length ≤ oversample.toNat + 1) :
    (empty.pushAll oversample raws).metadata = raws.head?.map Sample.metadata := by
  rw [pushAll_empty h, metadata, Option.map_map]
  rfl

/-- All samples of a channel reduce to the count that its conversions stand for. -/
theorem toNat_reduce {oversample : UInt8} {raws : List UInt32}
    (h : raws.length = oversample.toNat + 1) :
    ∃ count, (empty.pushAll oversample raws).reduce = some count ∧
      (count.toNat : Int) = reduction (raws.map Sample.count) := by
  have hover : 1 < oversample ↔ 2 < (raws.map Sample.count).length := by
    rw [List.length_map, h, UInt8.lt_iff_toNat_lt]
    exact (Nat.add_lt_add_iff_right (k := 1)).symm
  have hcounts : (averaged oversample raws).map Sample.count =
      if 2 < (raws.map Sample.count).length then (raws.map Sample.count).tail
      else raws.map Sample.count := by
    rw [map_count_averaged]
    exact if_congr hover rfl rfl
  have hne : (averaged oversample raws).map Sample.count ≠ [] := by
    rw [hcounts, ← List.length_pos_iff, apply_ite List.length, List.length_tail, List.length_map]
    split <;> omega
  obtain ⟨count, hcount, hround, -⟩ := reduce_of_ne_nil hne raws.length
    (raws.head?.map fun raw => (Sample.count raw, Sample.metadata raw))
  rw [List.length_map] at hcount
  rw [hcounts, ← reduction_eq _ (by simp [← List.length_pos_iff, h])] at hround
  exact ⟨count, (congrArg reduce (pushAll_empty h.le)).trans hcount, hround⟩

/-- An accumulator holds what the first samples make, of which it takes `oversample + 1`, and gives
the rounded mean of the counts that it includes. Its count is none just if there was no sample, and
the first count if none is included. -/
theorem reduces_to_rounded_mean (oversample : UInt8) (raws : List UInt32) :
    let taken := raws.take (oversample.toNat + 1)
    let xs := taken.map Sample.count
    let ys := if 1 < oversample then xs.tail else xs
    let acc := empty.pushAll oversample raws
    acc.seen = xs.length ∧ acc.metadata = taken.head?.map Sample.metadata ∧
      (acc.reduce = none ↔ xs = []) ∧
      (if ys = [] then acc.reduce = xs.head?
      else ∃ count, acc.reduce = some count ∧
        (count.toNat : Int) = ⌊((ys.map UInt16.toNat).sum : ℚ) / ys.length + 1 / 2⌋ ∧
        count.toNat = (acc.sum + acc.included / 2) / acc.included ∧
        (∃ least ∈ ys, least ≤ count) ∧ ∃ most ∈ ys, count ≤ most) ∧
      empty.pushAll oversample taken = acc := by
  intro taken xs ys acc
  have htaken : taken.length ≤ oversample.toNat + 1 := List.length_take_le _ _
  have hacc : acc = empty.pushAll oversample taken := (pushAll_take oversample raws).symm
  have hys : (averaged oversample taken).map Sample.count = ys :=
    map_count_averaged oversample taken
  have hfields : acc = ⟨(ys.map UInt16.toNat).sum, xs.length, ys.length,
      taken.head?.map fun raw => (Sample.count raw, Sample.metadata raw)⟩ := by
    rw [hacc, pushAll_empty htaken, ← hys, List.length_map, List.length_map]
  refine ⟨by rw [hfields], by rw [hacc, metadata_pushAll htaken], ?_, ?_, hacc.symm⟩
  · rw [hfields, reduce_eq_none_iff, List.length_eq_zero_iff, Option.map_eq_none_iff,
      List.head?_eq_none_iff]
    refine ⟨fun h => List.map_eq_nil_iff.mpr h.2, fun hnil => ?_⟩
    have hnone : taken = [] := List.map_eq_nil_iff.mp hnil
    refine ⟨?_, hnone⟩
    rw [← hys, map_count_averaged, hnone]
    split <;> rfl
  · split
    · rename_i hnil
      rw [hfields, hnil, reduce, if_pos List.length_nil, Option.map_map, List.head?_map]
      rfl
    · rename_i hne
      obtain ⟨count, hcount, hround, hquotient⟩ := reduce_of_ne_nil hne xs.length
        (taken.head?.map fun raw => (Sample.count raw, Sample.metadata raw))
      rw [roundedMean, round_eq] at hround
      rw [hfields]
      exact ⟨count, hcount, hround, hquotient, mean_between hne hquotient⟩

/-- The first of five samples is left out of the mean, and the last is one too many. -/
example :
    let acc := empty.pushAll 3 [60000, 100, 200, 302, 0xFFFF]
    acc.seen = 4 ∧ acc.reduce = some 201 := by
  decide

end Accumulator

end DaqServer
