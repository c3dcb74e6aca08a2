import DaqServer.Scan.Engine
import DaqServer.Trap

/-!
# Buckets of a scan

As the samples of a scan come in, each is put into the bucket of its channel, which lies as far from
the first bucket as the channel from the first channel.
-/

namespace DaqServer

namespace ScanPlan

def bucketCount (p : ScanPlan) : Checked Nat := do
  let beyond ← Checked.sub p.last p.first
  return beyond.toNat + 1

/-- Put a sample into the bucket of its channel; samples of other channels are thrown away. -/
def put (p : ScanPlan) (buckets : List Accumulator) (raw : UInt32) : Checked (List Accumulator) :=
  if p.contains (Sample.channel raw) then do
    let i ← Checked.sub (Sample.channel raw) p.first
    let bucket ← Checked.element buckets i.toNat
    return buckets.set i.toNat (bucket.push p.oversample raw)
  else return buckets

end ScanPlan

def Accumulator.reading (bucket : Accumulator) (channel : UInt8) : ChannelReading :=
  ⟨channel, bucket.reduce.getD 0, bucket.metadata⟩

/-- Sort the samples of a scan into buckets and reduce them. -/
def Readings.ofBuckets (plan : ScanPlan) (samples : List UInt32) : Checked Readings := do
  let count ← plan.bucketCount
  let buckets ← samples.foldlM plan.put (List.replicate count .empty)
  return ⟨plan, List.zipWith Accumulator.reading buckets plan.channels⟩

def Volts.spanAt (gain : UInt8) : Checked Nat := Checked.element [20, 10, 5, 2] gain.toNat

/-- The voltage of a raw sample, with its span from the table. -/
def Volts.fromTable (raw : UInt32) : Checked Volts :=
  if raw = Sample.noData then return .absent
  else do
    let span ← spanAt (Sample.gain raw)
    let count := (Sample.count raw).toNat
    return if Sample.isUnipolar raw then .steps (count * span)
      else .steps (2 * (count - 32768) * span)

def Readings.tableVolts (r : Readings) : Checked (List Volts) := r.raw.mapM Volts.fromTable

namespace Scan

open Acquisition (access)
open Trapping (total check)

variable {σ : Type} (port : Port σ)

def allowance (settings : ScanSettings) (expected : Nat) : Checked Span :=
  match settings.timeoutFor expected with
  | some span => .ok span
  | none => .error .span

/-- Acquire `expected` samples within the time allowed for them, unless that is no span. -/
def acquireAllowed (settings : ScanSettings) (watch : Stopwatch) (expected : Nat) :
    Trapping AcquisitionError σ (List UInt32) := do
  let timeout ← check (allowance settings expected)
  total (acquire port watch timeout expected)

/-- The accesses of a scan, whose samples are put into buckets. -/
def measureBuckets (settings : ScanSettings) (watch : Stopwatch) :
    Trapping AcquisitionError σ Readings := do
  let plan ← total (configure port settings)
  total (access (prime port))
  total (access (drain port drainRounds))
  total (access (port.write Register.softwareStart 1))
  let count ← check plan.bucketCount
  let samples ← acquireAllowed port settings watch (count * plan.perChannel)
  check (Readings.ofBuckets plan samples)

/-- Run a scan under a claim on the ADC. -/
def runBuckets (settings : ScanSettings) (watch : Stopwatch) (arbiter : Arbiter) (board : σ) :
    Checked (Except AcquisitionError Readings × Arbiter × σ) :=
  match arbiter.beginScan with
  | .error e => return (.error e, arbiter, board)
  | .ok held => do
      let (result, board) ← measureBuckets port settings watch board
      return (result, held.endScan, board)

end Scan

end DaqServer
