import DaqServer.Board.Dma

/-!
# The simulated DMA engine

An engine with sixteen slots that numbers its samples from zero at every start. Slot `n` of a run,
counted from zero, lies at index `n` modulo sixteen.
-/

namespace DaqServer

structure SimulatedDma where
  /-- Size of a transfer, zero before it is set. -/
  transferBytes : Nat
  /-- Contents of the slots; there are none before the size is set. -/
  slots : List Bytes
  running : Bool
  /-- A cancel that met no wait yet. -/
  cancelPending : Bool
  /-- Slots filled since the last start. -/
  produced : Nat
  /-- Slots handed back or discarded since the last start. -/
  released : Nat
  /-- The number of the next sample. -/
  nextSample : UInt32
  /-- The most slots filled in one run. -/
  slotLimit : Option Nat
  deriving DecidableEq, Repr

namespace SimulatedDma

def slotCount : Nat := 16

def powerOn : SimulatedDma where
  transferBytes := 0
  slots := []
  running := false
  cancelPending := false
  produced := 0
  released := 0
  nextSample := 0
  slotLimit := none

def pending (d : SimulatedDma) : Nat := d.produced - d.released

/-- Whether the engine may fill a slot now. -/
def canProduce (d : SimulatedDma) : Bool :=
  d.running && 0 < d.transferBytes && d.pending < slotCount &&
    (match d.slotLimit with
    | none => true
    | some limit => d.produced < limit)

def sampleBytes (first : UInt32) (count : Nat) : Bytes :=
  (List.range count).flatMap fun i => Bytes.ofUInt32 (first + UInt32.ofNat i)

/-- Fill the next slot with consecutive sample numbers. -/
def produce (d : SimulatedDma) : SimulatedDma :=
  let count := d.transferBytes / 4
  { d with
    slots := d.slots.set (d.produced % slotCount) (sampleBytes d.nextSample count)
    nextSample := d.nextSample + UInt32.ofNat count
    produced := d.produced + 1 }

/-- Set the size of a transfer, a positive multiple of four bytes, while the engine is stopped. -/
def configure (bytes : Nat) : Access SimulatedDma Unit := fun d =>
  if bytes = 0 ∨ bytes % 4 ≠ 0 then (.error (.dma (.badTransferSize bytes)), d)
  else if d.running then (.error (.dma .stillRunning), d)
  else (.ok (), { d with
    transferBytes := bytes
    slots := List.replicate slotCount (List.replicate bytes 0) })

/-- Set the size of a transfer that a word gives. The size is set before the slots are made. -/
def resize (bytes : UInt64) : Halting BoardError SimulatedDma Unit := fun d =>
  if bytes = 0 ∨ bytes % 4 ≠ 0 then (.ok (.error (.dma (.badTransferSize bytes.toNat))), d)
  else if d.running then (.ok (.error (.dma .stillRunning)), d)
  else
    let sized := { d with transferBytes := bytes.toNat }
    match Checked.copies 1 bytes 0 with
    | .error trap => (.error trap, sized)
    | .ok slot => (.ok (.ok ()), { sized with slots := List.replicate slotCount slot })

def start : Access SimulatedDma Unit := fun d =>
  if d.transferBytes = 0 then (.error (.dma .notConfigured), d)
  else (.ok (), { d with
    running := true
    cancelPending := false
    produced := 0
    released := 0
    nextSample := 0 })

def stop : Access SimulatedDma Unit := fun d =>
  (.ok (), { d with running := false, released := d.produced })

def ready : Access SimulatedDma DmaReady := fun d =>
  (.ok ⟨d.released % slotCount, d.pending⟩, d)

def copySlot (slot destination : Nat) : Access SimulatedDma Bytes := fun d =>
  match d.slots[slot]? with
  | none => (.error (.dma (.slotOutOfRange slot)), d)
  | some bytes =>
      if destination = bytes.length then (.ok bytes, d)
      else (.error (.dma (.sizeMismatch bytes.length destination)), d)

/-- Hand slots back, at most those that are filled. -/
def release (count : Nat) : Access SimulatedDma Unit := fun d =>
  if d.pending < count then (.error (.dma (.overRelease count d.pending)), d)
  else (.ok (), { d with released := d.released + count })

/-- Wait for the interrupt: a pending cancel ends the wait, else a slot that can be filled does. -/
def wait (d : SimulatedDma) : Option (Except BoardError Interrupt × SimulatedDma) :=
  if d.cancelPending then some (.ok .cancelled, { d with cancelPending := false })
  else if d.canProduce then some (.ok .fired, d.produce)
  else none

def cancel (d : SimulatedDma) : SimulatedDma := { d with cancelPending := true }

def engine : DmaEngine SimulatedDma where
  slots := slotCount
  configure := configure
  resize := resize
  start := start
  stop := stop
  ready := ready
  copySlot := copySlot
  release := release
  wait := wait
  cancel := cancel

end SimulatedDma

end DaqServer
