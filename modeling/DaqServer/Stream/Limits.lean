import DaqServer.Stream.Control

/-!
# Limits of a session

The bytes of a transfer are counted in a word, and the engine and the ring have their slots in
memory. A start of a session stops at a trap where a size is beyond that: it has the claim on the
ADC by then, and nobody gives that up. The ring is made by the worker, which stops in its turn.
-/

namespace DaqServer

variable {β δ : Type}

/-- A ring of zeroed slots. One slot is made first, and the others are copies of it that take 16
bytes each in the row of slots. -/
def Checked.ring (slots slotBytes : UInt64) : Checked Ring := do
  let slot ← copies 1 slotBytes 0
  let row ← copies 16 slots slot
  return { Ring.make slots.toNat slotBytes.toNat with slots := row }

/-- A run with the ring that its worker makes. A worker that cannot make it ends there, with nothing
of its teardown done. -/
def Run.begun (connection : ConnectionId) (sink : SinkId) : Checked Ring → Run
  | .ok ring => .fresh connection sink ring
  | .error _ => { fresh connection sink (.make 0 0) with worker := .finished }

namespace Checked

open Halting (total)

/-- Compute and set the size of a transfer, and start the engine. -/
def startDma (setup : Setup β δ) : Halting BoardError δ UInt64 := fun d =>
  match setup.stream.transferBytes with
  | .error trap => (.error trap, d)
  | .ok bytes =>
      match setup.dma.resize bytes d with
      | (.error trap, d) => (.error trap, d)
      | (.ok (.error e), d) => (.ok (.error e), d)
      | (.ok (.ok ()), d) => total (do setup.dma.start; return bytes) d

/-- Start a session for a connection. Where that stops at a trap, the ADC stays claimed and the sink
is gone. -/
def startStream (setup : Setup β δ) (id : ConnectionId) :
    Halting AcquisitionError (Instrument β δ) Unit := fun x =>
  match x.arbiter.claimStream id with
  | .error e => (.ok (.error e), x)
  | .ok held =>
      match x.endpoint? id with
      | none => (.ok (.error (.notConnected id)), { x with arbiter := held.releaseStream id })
      | some sink =>
          let taken := { x.removeEndpoint id with arbiter := held }
          match startDma setup x.dma with
          | (.error trap, dma) => (.error trap, { taken with dma := dma })
          | (.ok (.error e), dma) =>
              let undone := taken.insertEndpoint id sink
              (.ok (.error (.board e)),
                { undone with dma := dma, arbiter := held.releaseStream id })
          | (.ok (.ok bytes), dma) =>
              let run := Run.begun id sink (ring setup.stream.ringSlots bytes)
              (.ok (.ok ()), { taken.setRun run with dma := dma })

end Checked

end DaqServer
