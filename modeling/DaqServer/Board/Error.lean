import DaqServer.ErrorKind
import DaqServer.Text.Digits

/-!
# Board errors

The causes for which a register access or a request to the DMA engine is refused, with the text and
the kind of each.
-/

namespace DaqServer

/-- Why a DMA engine refused a request. -/
inductive DmaError
  /-- The size of a transfer is zero or not a whole number of samples. -/
  | badTransferSize (bytes : Nat)
  /-- The size of a transfer cannot change while the engine runs. -/
  | stillRunning
  /-- The engine was started before the size of a transfer was set. -/
  | notConfigured
  /-- There is no slot of this number. -/
  | slotOutOfRange (slot : Nat)
  /-- The destination of a copy does not have the size of the slot. -/
  | sizeMismatch (slotBytes destination : Nat)
  /-- More slots were handed back than were filled. -/
  | overRelease (released pending : Nat)
  /-- A cause that only the engine itself can name. -/
  | other (text : String)
  deriving DecidableEq, Repr

def DmaError.message : DmaError → String
  | .badTransferSize n => s!"transfer size {n} is not a positive multiple of 4"
  | .stillRunning => "cannot reconfigure a running transfer"
  | .notConfigured => "transfer size not configured"
  | .slotOutOfRange n => s!"slot {n} out of range"
  | .sizeMismatch a b => s!"slot is {a} bytes, destination {b}"
  | .overRelease n m => s!"released {n} slots, only {m} pending"
  | .other text => text

/-- Why the board refused an access. -/
inductive BoardError
  /-- The offset lies outside the register window. -/
  | unmapped (offset : UInt8)
  /-- The offset of a 32-bit register is not a multiple of four. -/
  | unaligned (offset : UInt8)
  /-- The register takes no writes. -/
  | readOnly (offset : UInt8)
  /-- The value does not fit the width of the register. -/
  | tooWide (offset : UInt8) (value : UInt32)
  /-- The register window could not be mapped. -/
  | mapFailed (path cause : String)
  /-- The board has no DMA engine. -/
  | noDma
  /-- The DMA engine refused. -/
  | dma (cause : DmaError)
  /-- The operating system reported a failure. -/
  | io (text : String)
  deriving DecidableEq, Repr

namespace BoardError

def message : BoardError → String
  | unmapped o => s!"Register offset {Text.hex 2 o.toNat} is not mapped"
  | unaligned o => s!"Register offset {Text.hex 2 o.toNat} is not aligned for a 32-bit access"
  | readOnly o => s!"Register offset {Text.hex 2 o.toNat} is read-only"
  | tooWide o v =>
      s!"Value {Text.hex 1 v.toNat} does not fit the 8-bit register at {Text.hex 2 o.toNat}"
  | mapFailed path cause => "Failed to map register window '" ++ path ++ "': " ++ cause
  | noDma => "DMA is not supported by this board backend"
  | dma cause => "DMA error: " ++ cause.message
  | io text => "I/O error: " ++ text

def kind : BoardError → ErrorKind
  | unmapped _ | unaligned _ | readOnly _ | tooWide .. => .semantic
  | mapFailed .. | noDma | dma _ => .operational
  | io _ => .io

end BoardError

end DaqServer
