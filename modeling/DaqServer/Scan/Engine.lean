import DaqServer.Adc.Arbiter
import DaqServer.Board.Port
import DaqServer.Scan.Readings
import DaqServer.Scan.Stopwatch

/-!
# Running a scan

A scan reads its plan from the board, puts the trigger into software mode, throws stale samples
away, strobes the board and collects samples until it has all of them or its time is over. It holds
the ADC from before its first access until after its last.
-/

namespace DaqServer

abbrev Acquisition (σ : Type) (α : Type) := ExceptT AcquisitionError (StateM σ) α

namespace Acquisition

def access {σ α : Type} (x : Access σ α) : Acquisition σ α := ExceptT.adapt .board x

end Acquisition

namespace Scan

variable {σ : Type} (port : Port σ)

open Acquisition (access)

/-- Tell the board the reduction and read the plan from its registers. -/
def configure (settings : ScanSettings) : Acquisition σ ScanPlan := do
  access (port.write Register.reduction settings.reduction.toUInt32)
  let first ← access (port.read Register.startChannel)
  let last ← access (port.read Register.endChannel)
  let oversample ← access (port.read Register.oversamples)
  ScanPlan.make first.toUInt8 last.toUInt8 oversample.toUInt8

/-- Disable the trigger, clear its state and put it into software mode. -/
def prime : Access σ Unit := do
  port.write Register.trigger Trigger.disabled
  port.write Register.trigger Trigger.clear
  port.write Register.trigger Trigger.software

/-- Read `count` words from the FIFO and keep those that hold samples. -/
def readWords : (count : Nat) → (kept : Array UInt32) → Access σ (Array UInt32)
  | 0, kept => pure kept
  | count + 1, kept => do
      let raw ← port.read Register.fifoData
      readWords count (if Sample.isInvalid raw then kept else kept.push raw)

/-- Empty the FIFO, in at most so many rounds. -/
def drain : (rounds : Nat) → Access σ Unit
  | 0 => pure ()
  | rounds + 1 => do
      let pending ← port.read Register.fifoCount
      if pending = 0 then return
      let _ ← readWords port pending.toNat #[]
      drain rounds

/-- The rounds after which a FIFO that keeps filling is left alone. -/
def drainRounds : Nat := 64

/-- Collect samples, pass by pass, until `expected` are kept. A pass reads no more words than the
board reports and than are missing; after a pass that leaves some missing the stopwatch is looked
at, and the pass at which the timeout is over is the last. A pass for which the board reports no
words is followed by a pause. -/
def collect (watch : Stopwatch) (timeout : Span) (expected accesses pauses : Nat)
    (kept : Array UInt32) : Acquisition σ (Array UInt32) := do
  let available ← access (port.read Register.fifoCount)
  let wanted := min available.toNat (expected - kept.size)
  let kept ← access (readWords port wanted kept)
  if expected ≤ kept.size then return kept
  let done := accesses + 1 + wanted
  if h : watch.reading done pauses < timeout.nanoseconds then
    collect watch timeout expected done (if available = 0 then pauses + 1 else pauses) kept
  else
    throw (.scanTimeout expected kept.size ⟨watch.reading done pauses⟩)
termination_by watch.reach timeout.nanoseconds - accesses
decreasing_by
  have := watch.lt_reach_of_reading_lt h
  omega

def acquire (watch : Stopwatch) (timeout : Span) (expected : Nat) : Acquisition σ (List UInt32) :=
  if expected = 0 then pure []
  else do
    let samples ← collect port watch timeout expected 0 0 #[]
    return samples.toList

/-- The accesses of a scan, without the claim on the ADC. The time allowed for its samples may be as
long as it comes out; `measureBuckets` stops where it is beyond the longest span. -/
def measure (settings : ScanSettings) (watch : Stopwatch) : Acquisition σ Readings := do
  let plan ← configure port settings
  access (prime port)
  access (drain port drainRounds)
  access (port.write Register.softwareStart 1)
  let expected := plan.totalSamples
  let samples ← acquire port watch (settings.allotted expected) expected
  return Readings.ofSamples plan samples

/-- Run a scan under a claim on the ADC, which is given up whatever the outcome. -/
def run (settings : ScanSettings) (watch : Stopwatch) (arbiter : Arbiter) (board : σ) :
    Except AcquisitionError Readings × Arbiter × σ :=
  match arbiter.beginScan with
  | .error e => (.error e, arbiter, board)
  | .ok held =>
      let (result, board) := measure port settings watch board
      (result, held.endScan, board)

end Scan

end DaqServer
