import DaqServer.Board.SimulatedDma
import DaqServer.Trap

/-!
# Calls of the simulated engine

The calls of an engine come one at a time and in any order; one that is refused is followed by the
next. `fill` fills a slot where it lies: the slot is looked up by its index, which is a trap where
there is no such slot, and its words are overwritten one after the other.
-/

namespace DaqServer

namespace SimulatedDma

/-- What can be asked of the engine. -/
inductive Call
  | configure (bytes : Nat)
  | start
  | stop
  | ready
  | copySlot (slot destination : Nat)
  | release (count : Nat)
  /-- Wait for the interrupt, as far as that ends now. -/
  | wait
  | cancel
  /-- Set the most slots that are filled in a run. -/
  | limit (slots : Option Nat)
  deriving DecidableEq, Repr

/-- Make a call, without what it tells. -/
def Call.perform : Call → Access SimulatedDma Unit
  | configure bytes => SimulatedDma.configure bytes
  | start => SimulatedDma.start
  | stop => SimulatedDma.stop
  | ready => discard SimulatedDma.ready
  | copySlot slot destination => discard (SimulatedDma.copySlot slot destination)
  | release count => SimulatedDma.release count
  | wait => fun d =>
      match d.wait with
      | none => (.ok (), d)
      | some (result, d) => (result.map fun _ => (), d)
  | cancel => fun d => (.ok (), d.cancel)
  | limit slots => fun d => (.ok (), { d with slotLimit := slots })

def after : List Call → SimulatedDma → SimulatedDma
  | [], d => d
  | call :: calls, d => after calls (call.perform d).2

/-- Overwrite the whole words of a slot with consecutive sample numbers; gives the slot and the
number that comes next. -/
def overwriteWords : Bytes → UInt32 → Bytes × UInt32
  | _ :: _ :: _ :: _ :: rest, next =>
      let (filled, last) := overwriteWords rest (next + 1)
      (Bytes.ofUInt32 next ++ filled, last)
  | rest, next => (rest, next)

/-- Fill the next slot where it lies. -/
def fill (d : SimulatedDma) : Checked SimulatedDma := do
  let index := d.produced % slotCount
  let slot ← Checked.element d.slots index
  let (filled, next) := overwriteWords slot d.nextSample
  return { d with
    slots := d.slots.set index filled
    nextSample := next
    produced := d.produced + 1 }

end SimulatedDma

end DaqServer
