import DaqServer.Scan.Buckets

/-!
# Buckets hold what is filtered by channel

No sample falls outside the buckets, and they end up as if the samples of each channel had been
picked out of all. With a time allowed for its samples a scan with buckets is a scan.
-/

namespace DaqServer

namespace ScanPlan

variable (p : ScanPlan)

theorem bucketCount_eq : p.bucketCount = .ok p.channelCount := by
  rw [bucketCount, Checked.sub_of_le p.ordered]
  change Except.ok ((p.last - p.first).toNat + 1) = _
  rw [UInt8.toNat_sub_of_le _ _ p.ordered, channelCount]

theorem getElem?_channels {i : Nat} (h : i < p.channelCount) :
    p.channels[i]? = some (UInt8.ofNat (p.first.toNat + i)) := by
  rw [channels, List.getElem?_map, List.getElem?_range h]
  rfl

/-- A channel of the scan has its place among the channels. -/
theorem getElem?_channels_sub {channel : UInt8} (h : p.contains channel = true) :
    p.channels[(channel - p.first).toNat]? = some channel := by
  rw [contains, Bool.and_eq_true, decide_eq_true_eq, decide_eq_true_eq] at h
  have hfirst : p.first.toNat ≤ channel.toNat := UInt8.le_iff_toNat_le.mp h.1
  have hlast : channel.toNat ≤ p.last.toNat := UInt8.le_iff_toNat_le.mp h.2
  have hplace : (channel - p.first).toNat = channel.toNat - p.first.toNat :=
    UInt8.toNat_sub_of_le _ _ h.1
  rw [hplace, getElem?_channels p (by rw [channelCount]; omega), Nat.add_sub_cancel' hfirst,
    UInt8.ofNat_toNat]

theorem toNat_of_getElem?_channels {i : Nat} {channel : UInt8} (h : p.channels[i]? = some channel) :
    channel.toNat = p.first.toNat + i ∧ p.contains channel = true := by
  obtain ⟨hlt, -⟩ := List.getElem?_eq_some_iff.mp h
  rw [length_channels] at hlt
  obtain rfl := Option.some.inj ((p.getElem?_channels hlt).symm.trans h)
  have hlast := p.last.toNat_lt_size
  have hordered := UInt8.le_iff_toNat_le.mp p.ordered
  rw [channelCount] at hlt
  have hnat : (UInt8.ofNat (p.first.toNat + i)).toNat = p.first.toNat + i :=
    UInt8.toNat_ofNat_of_lt (by omega)
  refine ⟨hnat, ?_⟩
  rw [contains, Bool.and_eq_true, decide_eq_true_eq, decide_eq_true_eq, UInt8.le_iff_toNat_le,
    UInt8.le_iff_toNat_le, hnat]
  omega

/-- The bucket at the place of a channel is that of the channel. -/
theorem set_map_channels {f : UInt8 → Accumulator} {channel : UInt8} {i : Nat} {acc : Accumulator}
    (h : p.channels[i]? = some channel) :
    (p.channels.map f).set i acc = p.channels.map fun c => if channel == c then acc else f c := by
  refine List.ext_getElem? fun j => ?_
  rw [List.getElem?_set, List.getElem?_map, List.getElem?_map]
  by_cases hj : i = j
  · subst hj
    obtain ⟨hlt, -⟩ := List.getElem?_eq_some_iff.mp h
    rw [if_pos rfl, List.length_map, if_pos hlt, h, Option.map_some,
      if_pos (beq_self_eq_true channel)]
  · rw [if_neg hj]
    cases hc : p.channels[j]? with
    | none => rfl
    | some c =>
        have hother : channel ≠ c := by
          rintro rfl
          have hi := (p.toNat_of_getElem?_channels h).1
          have hj' := (p.toNat_of_getElem?_channels hc).1
          omega
        rw [Option.map_some, Option.map_some, if_neg (mt beq_iff_eq.mp hother)]

/-- A sample goes into the bucket of its channel and into no other. -/
theorem put_eq (f : UInt8 → Accumulator) (raw : UInt32) :
    p.put (p.channels.map f) raw = .ok (p.channels.map fun channel =>
      if Sample.channel raw == channel then (f channel).push p.oversample raw else f channel) := by
  rw [put]
  split
  · rename_i hcontains
    have hplace := p.getElem?_channels_sub hcontains
    have hfirst : p.first ≤ Sample.channel raw := by
      rw [contains, Bool.and_eq_true, decide_eq_true_eq] at hcontains
      exact hcontains.1
    have hbucket : (p.channels.map f)[(Sample.channel raw - p.first).toNat]? =
        some (f (Sample.channel raw)) := by
      rw [List.getElem?_map, hplace]
      rfl
    rw [Checked.sub_of_le hfirst]
    change (Checked.element (p.channels.map f) _).bind _ = _
    rw [Checked.element_of_getElem? hbucket]
    refine congrArg Except.ok ((p.set_map_channels hplace).trans ?_)
    refine List.map_congr_left fun channel _ => ?_
    by_cases hchannel : Sample.channel raw = channel
    · rw [hchannel]
    · rw [if_neg (mt beq_iff_eq.mp hchannel), if_neg (mt beq_iff_eq.mp hchannel)]
  · rename_i hcontains
    refine congrArg Except.ok (List.map_congr_left fun channel hmem => ?_)
    obtain ⟨i, hi⟩ := List.mem_iff_getElem?.mp hmem
    have hother : Sample.channel raw ≠ channel := by
      rintro rfl
      exact hcontains (p.toNat_of_getElem?_channels hi).2
    rw [if_neg (mt beq_iff_eq.mp hother)]

theorem foldlM_put_eq (samples : List UInt32) (f : UInt8 → Accumulator) :
    samples.foldlM p.put (p.channels.map f) = .ok (p.channels.map fun channel =>
      (f channel).pushAll p.oversample
        (samples.filter fun raw => Sample.channel raw == channel)) := by
  induction samples generalizing f with
  | nil => rfl
  | cons raw samples ih =>
      rw [List.foldlM_cons, put_eq]
      change samples.foldlM p.put (p.channels.map _) = _
      rw [ih]
      refine congrArg Except.ok (List.map_congr_left fun channel _ => ?_)
      rw [List.filter_cons]
      split <;> rfl

end ScanPlan

theorem Readings.ofBuckets_eq (plan : ScanPlan) (samples : List UInt32) :
    ofBuckets plan samples = .ok (ofSamples plan samples) := by
  have hempty : List.replicate plan.channelCount Accumulator.empty =
      plan.channels.map fun _ => Accumulator.empty := by
    rw [List.map_const', ScanPlan.length_channels]
  rw [ofBuckets, plan.bucketCount_eq]
  change (List.foldlM plan.put (List.replicate plan.channelCount .empty) samples).bind _ = _
  rw [hempty, plan.foldlM_put_eq]
  refine congrArg Except.ok ?_
  rw [List.zipWith_map_left, List.zipWith_self]
  rfl

theorem Sample.gain_lt (raw : UInt32) : (gain raw).toNat < 4 := by
  have hmask : (raw &&& 0x30000).toNat ≤ 0x30000 := by
    rw [UInt32.toNat_and]
    exact Nat.and_le_right
  rw [gain, UInt32.toNat_toUInt8, UInt32.toNat_shiftRight]
  change (raw &&& 0x30000).toNat >>> 16 % 2 ^ 8 < 4
  rw [Nat.shiftRight_eq_div_pow]
  omega

/-- There is a span for every gain code of a sample. -/
theorem Volts.spanAt_gain (raw : UInt32) :
    spanAt (Sample.gain raw) = .ok (spanHalves (Sample.gain raw)) := by
  have hcodes : ∀ code < 4, spanAt (UInt8.ofNat code) = .ok (spanHalves (UInt8.ofNat code))
    | 0, _ | 1, _ | 2, _ | 3, _ => rfl
  have hcode := hcodes (Sample.gain raw).toNat (Sample.gain_lt raw)
  rwa [UInt8.ofNat_toNat] at hcode

theorem Volts.fromTable_eq (raw : UInt32) : fromTable raw = .ok (ofSample raw) := by
  rw [fromTable, ofSample]
  split
  · rfl
  · rw [spanAt_gain]
    rfl

theorem Readings.tableVolts_eq (r : Readings) : r.tableVolts = .ok r.volts := by
  have hmap : ∀ raws : List UInt32, raws.mapM Volts.fromTable = .ok (raws.map Volts.ofSample) := by
    intro raws
    induction raws with
    | nil => rfl
    | cons raw raws ih =>
        rw [List.mapM_cons, Volts.fromTable_eq, ih]
        rfl
  rw [tableVolts, hmap, raw, List.map_map]
  rfl

namespace Scan

open Trapping (total check)

variable {σ : Type} (port : Port σ) {settings : ScanSettings} (watch : Stopwatch)

theorem allowance_eq {expected : Nat} {timeout : Span}
    (h : settings.timeoutFor expected = some timeout) :
    allowance settings expected = .ok timeout := by
  rw [allowance, h]

theorem acquireAllowed_eq {expected : Nat} {timeout : Span}
    (h : settings.timeoutFor expected = some timeout) :
    acquireAllowed port settings watch expected = total (acquire port watch timeout expected) := by
  rw [acquireAllowed, allowance_eq h, Trapping.check_ok, pure_bind]

theorem measureBuckets_eq
    (h : ∀ plan : ScanPlan, (settings.timeoutFor plan.totalSamples).isSome) :
    measureBuckets port settings watch = total (measure port settings watch) := by
  rw [measureBuckets, measure]
  simp only [Trapping.total_bind]
  refine bind_congr fun plan => bind_congr fun _ => bind_congr fun _ => bind_congr fun _ => ?_
  obtain ⟨timeout, htimeout⟩ := Option.isSome_iff_exists.mp (h plan)
  rw [plan.bucketCount_eq, Trapping.check_ok, pure_bind, ← ScanPlan.totalSamples,
    acquireAllowed_eq port watch htimeout, ScanSettings.allotted_eq htimeout]
  simp only [Readings.ofBuckets_eq, Trapping.check_ok, Trapping.total_pure]

theorem runBuckets_eq (h : ∀ plan : ScanPlan, (settings.timeoutFor plan.totalSamples).isSome)
    (arbiter : Arbiter) (board : σ) :
    runBuckets port settings watch arbiter board = .ok (run port settings watch arbiter board) := by
  rw [runBuckets, run]
  cases arbiter.beginScan with
  | error e => rfl
  | ok held =>
      dsimp only
      rw [measureBuckets_eq port watch h]
      rfl

end Scan

end DaqServer
