import DaqServer.Proofs.Sample
import DaqServer.Proofs.Scan.Buckets
import DaqServer.Proofs.Scan.Reduction

/-!
# What a reading depends on

A reading is made of the first samples of its channel and of nothing else: not of the samples of
other channels, nor of how these lie between its own. As a raw word it has the channel and the
metadata of the first sample, and it is the word for no data just if there was no sample.
-/

namespace DaqServer

namespace ScanPlan

variable (p : ScanPlan)

def samplesOf (samples : List UInt32) (channel : UInt8) : List UInt32 :=
  (samples.filter fun raw => Sample.channel raw == channel).take p.perChannel

theorem head?_samplesOf (samples : List UInt32) (channel : UInt8) :
    (p.samplesOf samples channel).head? =
      samples.find? fun raw => Sample.channel raw == channel := by
  rw [samplesOf, List.head?_take, List.head?_filter]
  exact if_neg (Nat.succ_ne_zero _)

theorem map_toNat_channels :
    p.channels.map UInt8.toNat =
      List.range' p.first.toNat (p.last.toNat + 1 - p.first.toNat) := by
  have hordered : p.first.toNat ≤ p.last.toNat := UInt8.le_iff_toNat_le.mp p.ordered
  have hlength : p.last.toNat + 1 - p.first.toNat = p.channelCount := Nat.sub_add_comm hordered
  refine List.ext_getElem (by simp [length_channels, hlength]) fun i hi _ => ?_
  rw [List.length_map] at hi
  rw [List.getElem_map, List.getElem_range', Nat.one_mul]
  exact (p.toNat_of_getElem?_channels (List.getElem?_eq_getElem hi)).1

end ScanPlan

namespace Readings

variable (plan : ScanPlan) (xs : List UInt32)

theorem reading_eq (channel : UInt8) :
    reading plan xs channel =
      (Accumulator.empty.pushAll plan.oversample (plan.samplesOf xs channel)).reading channel := by
  rw [ScanPlan.samplesOf, ScanPlan.perChannel, Accumulator.pushAll_take]
  rfl

theorem ofSamples_congr {ys : List UInt32}
    (h : ∀ channel ∈ plan.channels, plan.samplesOf ys channel = plan.samplesOf xs channel) :
    ofSamples plan ys = ofSamples plan xs := by
  refine congrArg (Readings.mk plan) (List.map_congr_left fun channel hchannel => ?_)
  rw [reading_eq, reading_eq, h channel hchannel]

theorem metadata_reading (channel : UInt8) :
    (reading plan xs channel).metadata =
      (xs.find? fun raw => Sample.channel raw == channel).map Sample.metadata := by
  rw [reading_eq, ← plan.head?_samplesOf]
  exact Accumulator.metadata_pushAll (List.length_take_le _ _)

theorem raw_reading_of_none {channel : UInt8}
    (h : (xs.find? fun raw => Sample.channel raw == channel) = none) :
    (reading plan xs channel).raw = Sample.noData := by
  rw [ChannelReading.raw, metadata_reading, h]
  rfl

theorem raw_reading_of_some {channel : UInt8} {first : UInt32}
    (h : (xs.find? fun raw => Sample.channel raw == channel) = some first) :
    (reading plan xs channel).raw =
      Sample.metadata first ||| (reading plan xs channel).count.toUInt32 := by
  rw [ChannelReading.raw, metadata_reading, h]
  rfl

theorem raw_reading_eq_noData_iff (channel : UInt8) :
    (reading plan xs channel).raw = Sample.noData ↔
      ∀ raw ∈ xs, Sample.channel raw ≠ channel := by
  have hnone : (xs.find? fun raw => Sample.channel raw == channel) = none ↔
      ∀ raw ∈ xs, Sample.channel raw ≠ channel := by
    simp [List.find?_eq_none]
  rw [← hnone]
  refine ⟨fun hraw => ?_, raw_reading_of_none plan xs⟩
  cases hfirst : xs.find? fun raw => Sample.channel raw == channel with
  | none => rfl
  | some first =>
      rw [raw_reading_of_some plan xs hfirst] at hraw
      exact absurd hraw (Sample.metadata_or_ne_noData _ _)

/-- The buckets hold one reading for each channel in order. Samples of which each channel takes the
same give the same readings. A reading is marked as without data just if its channel has no sample;
otherwise it names its channel and has its count below the metadata of the first sample. -/
theorem depend_on_own_samples (plan : ScanPlan) (xs : List UInt32) :
    let r := ofSamples plan xs
    ofBuckets plan xs = .ok r ∧ r.plan = plan ∧
      (r.channels.map fun reading => reading.channel.toNat) =
        List.range' plan.first.toNat (plan.last.toNat + 1 - plan.first.toNat) ∧
      (∀ ys, (∀ channel ∈ plan.channels,
        plan.samplesOf ys channel = plan.samplesOf xs channel) → ofBuckets plan ys = .ok r) ∧
      ∀ reading ∈ r.channels,
        (reading.raw = Sample.noData ↔ ∀ raw ∈ xs, Sample.channel raw ≠ reading.channel) ∧
        ∀ first, (xs.find? fun raw => Sample.channel raw == reading.channel) = some first →
          Sample.channel reading.raw = reading.channel ∧
          Sample.count reading.raw = reading.count ∧
          reading.raw &&& 0xFFFF0000 = Sample.metadata first := by
  refine ⟨ofBuckets_eq plan xs, rfl, ?_, fun ys hys => ?_, ?_⟩
  · rw [← plan.map_toNat_channels, ofSamples, List.map_map]
    rfl
  · rw [ofBuckets_eq, ofSamples_congr plan xs hys]
  · rw [ofSamples, List.forall_mem_map]
    intro channel _
    refine ⟨raw_reading_eq_noData_iff plan xs channel, fun first hfirst => ?_⟩
    have hraw : (reading plan xs channel).raw = _ := raw_reading_of_some plan xs hfirst
    have hchannel := beq_iff_eq.mp (List.find?_eq_some_iff_append.mp hfirst).1
    rw [hraw]
    exact ⟨(Sample.channel_metadata_or first _).trans hchannel,
      Sample.count_metadata_or first _, Sample.metadata_or_and first _ (by decide)⟩

/-- Channels two and three take the same from samples among which lie those of other channels, in
another order and with one too many. -/
theorem depend_on_own_samples_between_others :
    let plan : ScanPlan := ⟨2, 3, 0, by decide⟩
    let sample (channel : UInt8) (count : UInt16) : UInt32 := Sample.encode channel 1 true count
    let xs := [sample 2 10, sample 3 20]
    let ys := [sample 1 999, sample 3 20, sample 7 999, sample 2 10, sample 3 21]
    ofBuckets plan ys = .ok (ofSamples plan xs) ∧
      (ofSamples plan xs).raw = xs := by
  intro plan sample xs ys
  have hsame : ∀ channel ∈ plan.channels,
      plan.samplesOf ys channel = plan.samplesOf xs channel := by
    decide +kernel
  exact ⟨(depend_on_own_samples plan xs).2.2.2.1 ys hsame, by decide +kernel⟩

end Readings

end DaqServer
