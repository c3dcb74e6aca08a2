import DaqServer.Sample
import Mathlib.Tactic.IntervalCases

/-!
# The fields of a sample

The fields of a sample do not overlap, so that each reads back as it was put in. They are compared
bit by bit. So do metadata and a count that are put together, whose word has no mark.
-/

namespace DaqServer

namespace Sample

variable (channel gain : UInt8) (unipolar : Bool) (conversion : UInt16)

theorem count_encode : count (encode channel gain unipolar conversion) = conversion := by
  apply UInt16.eq_of_toBitVec_eq
  ext i hi
  cases unipolar <;> simp [encode, count]
  all_goals interval_cases i <;> simp

theorem channel_encode :
    Sample.channel (encode channel gain unipolar conversion) = channel &&& 0x3F := by
  apply UInt8.eq_of_toBitVec_eq
  ext i hi
  cases unipolar <;> simp [encode, Sample.channel]
  all_goals interval_cases i <;> simp

theorem gain_encode : Sample.gain (encode channel gain unipolar conversion) = gain &&& 3 := by
  apply UInt8.eq_of_toBitVec_eq
  ext i hi
  cases unipolar <;> simp [encode, Sample.gain]
  all_goals interval_cases i <;> simp

theorem isUnipolar_encode :
    isUnipolar (encode channel gain unipolar conversion) = unipolar := by
  have hbit : encode channel gain unipolar conversion &&& 0x40000 =
      if unipolar then 0x40000 else 0 := by
    apply UInt32.eq_of_toBitVec_eq
    ext i hi
    cases unipolar <;> simp [encode]
    all_goals interval_cases i <;> simp
  rw [isUnipolar, hbit]
  cases unipolar <;> rfl

/-- The metadata are the sample without its count. -/
theorem metadata_encode :
    metadata (encode channel gain unipolar conversion) = encode channel gain unipolar 0 := by
  apply UInt32.eq_of_toBitVec_eq
  ext i hi
  cases unipolar <;> simp [encode, metadata]
  all_goals interval_cases i <;> simp

theorem isInvalid_encode : isInvalid (encode channel gain unipolar conversion) = false := by
  have hmark : encode channel gain unipolar conversion &&& invalid = 0 := by
    apply UInt32.eq_of_toBitVec_eq
    ext i hi
    cases unipolar <;> simp [encode, invalid]
    all_goals interval_cases i <;> simp
  rw [isInvalid, hmark]
  rfl

/-! ### Metadata with a count -/

theorem or_and (a b mask : UInt32) : (a ||| b) &&& mask = a &&& mask ||| b &&& mask :=
  UInt32.eq_of_toBitVec_eq BitVec.and_or_distrib_right

theorem toUInt32_and_low (c : UInt16) : c.toUInt32 &&& 0xFFFF = c.toUInt32 := by
  rw [← UInt32.toNat_inj, UInt32.toNat_and, UInt16.toNat_toUInt32]
  exact Nat.and_two_pow_sub_one_of_lt_two_pow c.toNat_lt

/-- Above the count the word has what the metadata have. -/
theorem metadata_or_and (raw : UInt32) (c : UInt16) {mask : UInt32} (h : 0xFFFF &&& mask = 0) :
    (metadata raw ||| c.toUInt32) &&& mask = raw &&& (0x7FFF0000 &&& mask) := by
  have hcount : c.toUInt32 &&& mask = 0 := by
    rw [← toUInt32_and_low, UInt32.and_assoc, h, UInt32.and_zero]
  rw [or_and, hcount, UInt32.or_zero, metadata, UInt32.and_assoc]

theorem count_metadata_or (raw : UInt32) (c : UInt16) :
    count (metadata raw ||| c.toUInt32) = c := by
  have hmetadata : metadata raw &&& 0xFFFF = 0 := by
    rw [metadata, UInt32.and_assoc]
    exact UInt32.and_zero
  rw [count, or_and, hmetadata, UInt32.zero_or, toUInt32_and_low]
  exact UInt16.toUInt16_toUInt32 c

theorem channel_metadata_or (raw : UInt32) (c : UInt16) :
    Sample.channel (metadata raw ||| c.toUInt32) = Sample.channel raw := by
  rw [Sample.channel, metadata_or_and raw c (by decide)]
  rfl

/-- The mark is missing, which the word for no data has. -/
theorem metadata_or_ne_noData (raw : UInt32) (c : UInt16) :
    metadata raw ||| c.toUInt32 ≠ noData := by
  intro h
  have hmark : noData &&& invalid = raw &&& (0x7FFF0000 &&& invalid) := by
    rw [← h]
    exact metadata_or_and raw c (by decide)
  have hnone : raw &&& (0x7FFF0000 &&& invalid) = 0 := UInt32.and_zero
  rw [hnone] at hmark
  exact absurd hmark (by decide)

end Sample

end DaqServer
