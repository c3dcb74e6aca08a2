import DaqServer.Adc.Error

/-!
# Scan plans and timing

A plan is the range of channels and the oversampling of one scan. Every channel is converted once
and `oversample` times more.
-/

namespace DaqServer

structure ScanPlan where
  first : UInt8
  last : UInt8
  oversample : UInt8
  ordered : first ≤ last

namespace ScanPlan

def make (first last oversample : UInt8) : Except AcquisitionError ScanPlan :=
  if h : first ≤ last then .ok ⟨first, last, oversample, h⟩
  else .error (.reversedChannels first last)

def channelCount (p : ScanPlan) : Nat := p.last.toNat - p.first.toNat + 1

def perChannel (p : ScanPlan) : Nat := p.oversample.toNat + 1

def totalSamples (p : ScanPlan) : Nat := p.channelCount * p.perChannel

def contains (p : ScanPlan) (channel : UInt8) : Bool := p.first ≤ channel && channel ≤ p.last

def channels (p : ScanPlan) : List UInt8 :=
  (List.range p.channelCount).map fun i => UInt8.ofNat (p.first.toNat + i)

theorem length_channels (p : ScanPlan) : p.channels.length = p.channelCount := by
  simp [channels]

theorem totalSamples_ne_zero (p : ScanPlan) : p.totalSamples ≠ 0 :=
  Nat.mul_ne_zero (Nat.succ_ne_zero _) (Nat.succ_ne_zero _)

/-- No scan has more samples than all channels with the most oversampling. -/
theorem totalSamples_le (p : ScanPlan) : p.totalSamples ≤ UInt8.size * UInt8.size := by
  have hlast := p.last.toNat_lt_size
  refine Nat.mul_le_mul ?_ p.oversample.toNat_lt_size
  rw [channelCount]
  omega

end ScanPlan

/-- Timing of scans and the reduction that the board is told to do. The settle and poll delays let
time pass on the stopwatch and have no other effect. -/
structure ScanSettings where
  reduction : UInt8
  settle : Span
  pollInterval : Span
  timeoutFloor : Span
  timeoutPerSample : Span
  deriving DecidableEq, Repr

/-- The time allowed for a number of samples: the floor and an allowance for each sample, of which
at most `0xFFFFFFFF` count. None when the sum is beyond the longest span. -/
def ScanSettings.timeoutFor (s : ScanSettings) (expected : Nat) : Option Span :=
  s.timeoutFloor.add? (s.timeoutPerSample.times (min expected 0xFFFFFFFF))

/-- The sum that `timeoutFor` gives, also where it is beyond the longest span. -/
def ScanSettings.allotted (s : ScanSettings) (expected : Nat) : Span :=
  ⟨s.timeoutFloor.nanoseconds +
    (s.timeoutPerSample.times (min expected 0xFFFFFFFF)).nanoseconds⟩

theorem ScanSettings.allotted_eq {s : ScanSettings} {expected : Nat} {timeout : Span}
    (h : s.timeoutFor expected = some timeout) : s.allotted expected = timeout := by
  rw [timeoutFor, Span.add?] at h
  split at h
  · exact Option.some.inj h
  · cases h

/-- The time for a scan is the plain sum, whatever its plan, if that for the longest scan is a
span. -/
theorem ScanSettings.timeoutFor_totalSamples {s : ScanSettings}
    (h : s.timeoutFloor.nanoseconds + s.timeoutPerSample.nanoseconds * (UInt8.size * UInt8.size) ≤
      Span.largest.nanoseconds) (plan : ScanPlan) :
    s.timeoutFor plan.totalSamples =
      some ⟨s.timeoutFloor.nanoseconds + plan.totalSamples * s.timeoutPerSample.nanoseconds⟩ := by
  have hsamples := plan.totalSamples_le
  have hcounted : min plan.totalSamples 0xFFFFFFFF = plan.totalSamples :=
    Nat.min_eq_left (Nat.le_trans hsamples (by decide))
  have hsum := Nat.le_trans
    (Nat.add_le_add_left (Nat.mul_le_mul_left s.timeoutPerSample.nanoseconds hsamples) _) h
  have hproduct := Nat.le_trans (Nat.le_add_left _ s.timeoutFloor.nanoseconds) hsum
  rw [timeoutFor, Span.add?, Span.times, hcounted, Nat.min_eq_left hproduct,
    Nat.mul_comm plan.totalSamples]
  exact if_pos hsum

end DaqServer
