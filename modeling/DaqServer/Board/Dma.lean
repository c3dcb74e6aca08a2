import DaqServer.Board.Port
import DaqServer.Trap

/-!
# DMA engines

An engine fills the slots of a ring of its own, one transfer a slot, and raises an interrupt when it
has filled one. `DmaEngine δ` is the way to an engine with state `δ`.
-/

namespace DaqServer

/-- The filled slots that were not handed back: the oldest, and how many follow it around the ring,
itself included. -/
structure DmaReady where
  first : Nat
  count : Nat
  deriving DecidableEq, Repr

inductive Interrupt
  | fired
  | cancelled
  deriving DecidableEq, Repr

structure DmaEngine (δ : Type) where
  /-- Number of slots of the engine. -/
  slots : Nat
  /-- Set the size of a transfer in bytes. -/
  configure : Nat → Access δ Unit
  /-- Set the size of a transfer where a word gives it and the slots may be too large to be made. -/
  resize : UInt64 → Halting BoardError δ Unit := fun bytes => .total (configure bytes.toNat)
  /-- Begin transferring from the first slot on, and forget a cancel that met no wait. -/
  start : Access δ Unit
  /-- End transferring and discard the filled slots. -/
  stop : Access δ Unit
  ready : Access δ DmaReady
  /-- The contents of a slot, for a destination of the given size. -/
  copySlot : (slot destination : Nat) → Access δ Bytes
  /-- Hand the oldest slots back. -/
  release : Nat → Access δ Unit
  /-- Wait for the interrupt; nothing while the wait goes on. -/
  wait : δ → Option (Except BoardError Interrupt × δ)
  /-- Cancel the current wait, or else the next one. -/
  cancel : δ → δ

/-- The engine of a board without one: it only stops, and a wait is cancelled at once. -/
def DmaEngine.absent {δ : Type} : DmaEngine δ where
  slots := 0
  configure _ := throw .noDma
  start := throw .noDma
  stop := pure ()
  ready := throw .noDma
  copySlot _ _ := throw .noDma
  release _ := throw .noDma
  wait d := some (.ok .cancelled, d)
  cancel d := d

end DaqServer
