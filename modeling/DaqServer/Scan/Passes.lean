import DaqServer.Scan.Buckets
import DaqServer.Scan.Record

/-!
# Passes over the FIFO

A pass reads the FIFO count and then words. An acquisition is a sequence of passes, with a look at
the clock after each that leaves samples missing. A stopwatch passes every time in the end and a
timer need not: by a timer the acquisition is followed for a number of passes.
-/

namespace DaqServer

/-- What a clock that never runs backwards shows after so many accesses and so many pauses. -/
structure Timer where
  reading : (accesses pauses : Nat) → Nat
  monotone : ∀ {a b p q}, a ≤ b → p ≤ q → reading a p ≤ reading b q

def Stopwatch.timer (watch : Stopwatch) : Timer := ⟨watch.reading, watch.monotone⟩

def Sample.valid (words : List UInt32) : List UInt32 := words.filter fun raw => !isInvalid raw

/-- A pass over the FIFO: the count that was shown and the words that were read. -/
structure Pass where
  shown : UInt32
  words : List UInt32

namespace Pass

def events (p : Pass) : List PortEvent :=
  .read Register.fifoCount p.shown :: p.words.map (.read Register.fifoData)

def samples (passes : List Pass) : List UInt32 := Sample.valid (passes.flatMap words)

def accesses (passes : List Pass) : Nat := passes.length + (passes.flatMap words).length

def pauses (passes : List Pass) : Nat := passes.countP fun p => p.shown = 0

end Pass

/-- What a timer shows when a pass begins, after the given ones. -/
def Timer.start (timer : Timer) (before : List Pass) : Nat :=
  timer.reading (Pass.accesses before) (Pass.pauses before)

/-- What a timer shows when it is looked at after a pass, which followed the given ones. -/
def Timer.look (timer : Timer) (before : List Pass) (p : Pass) : Nat :=
  timer.reading (Pass.accesses (before ++ [p])) (Pass.pauses before)

namespace Scan

variable {σ : Type} (port : Port σ)

open Acquisition (access)

/-- Collect samples by a timer in at most so many passes. There is nothing yet if samples are
missing and the time is not over. -/
def collectFor (timer : Timer) (timeout : Span) (expected : Nat) :
    (passes accesses pauses : Nat) → (kept : Array UInt32) →
      Acquisition σ (Option (Array UInt32))
  | 0, _, _, _ => pure none
  | passes + 1, accesses, pauses, kept => do
      let available ← access (port.read Register.fifoCount)
      let wanted := min available.toNat (expected - kept.size)
      let kept ← access (readWords port wanted kept)
      if expected ≤ kept.size then return some kept
      let done := accesses + 1 + wanted
      if timer.reading done pauses < timeout.nanoseconds then
        collectFor timer timeout expected passes done
          (if available = 0 then pauses + 1 else pauses) kept
      else
        throw (.scanTimeout expected kept.size ⟨timer.reading done pauses⟩)

/-- Acquire `expected` samples within a time, by a timer in at most so many passes. -/
def acquireFor (timer : Timer) (timeout : Span) (expected passes : Nat) :
    Acquisition σ (Option (List UInt32)) :=
  if expected = 0 then pure (some [])
  else do
    let samples ← collectFor port timer timeout expected passes 0 0 #[]
    return samples.map Array.toList

/-- Acquire `expected` samples within the time allowed for them, unless that is no span. -/
def acquireAllowedFor (settings : ScanSettings) (timer : Timer) (expected passes : Nat) :
    Trapping AcquisitionError σ (Option (List UInt32)) := do
  let timeout ← Trapping.check (allowance settings expected)
  Trapping.total (acquireFor port timer timeout expected passes)

end Scan

end DaqServer
