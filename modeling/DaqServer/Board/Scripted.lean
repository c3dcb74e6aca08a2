import DaqServer.Board.Port
import DaqServer.Sample

/-!
# The scripted board

A board whose FIFO follows a script, whatever is done to it: successive reads of the FIFO registers
show given values, other registers are constant, and one read or write can be made to fail. Accepted
writes are logged and have no other effect.
-/

namespace DaqServer

structure ScriptedBoard where
  /-- Values of the successive reads of the FIFO count; the last one repeats. -/
  counts : List UInt32
  /-- Values of the successive reads of the FIFO; after them it is empty. -/
  samples : List UInt32
  /-- The other registers; those that are not listed are zero. -/
  constants : List (UInt8 × UInt32)
  /-- The register whose reads fail. -/
  failingRead : Option UInt8
  /-- The write that fails, counted from zero. -/
  failingWrite : Option Nat
  countReads : Nat := 0
  sampleReads : Nat := 0
  writeCalls : Nat := 0
  /-- Every accepted write, oldest first. -/
  writes : List (UInt8 × UInt32) := []
  deriving DecidableEq, Repr

namespace ScriptedBoard

def read (offset : UInt8) : Access ScriptedBoard UInt32 := fun b =>
  if b.failingRead = some offset then (.error (.unmapped offset), b)
  else if offset = Register.fifoCount then
    let rest := match b.counts with
      | _ :: next :: more => next :: more
      | counts => counts
    (.ok (b.counts.headD 0), { b with countReads := b.countReads + 1, counts := rest })
  else if offset = Register.fifoData then
    (.ok (b.samples.headD Sample.invalid),
      { b with sampleReads := b.sampleReads + 1, samples := b.samples.tail })
  else (.ok ((b.constants.lookup offset).getD 0), b)

def write (offset : UInt8) (value : UInt32) : Access ScriptedBoard Unit := fun b =>
  let called := { b with writeCalls := b.writeCalls + 1 }
  if b.failingWrite = some b.writeCalls then (.error (.readOnly offset), called)
  else (.ok (), { called with writes := b.writes ++ [(offset, value)] })

def port : Port ScriptedBoard := ⟨read, write⟩

end ScriptedBoard

end DaqServer
