import DaqServer.Board.Error

/-!
# The register map

Registers are named by a one-byte offset. Those below `0x40` are 8 bits wide, the others 32 bits and
aligned to four bytes; the offset alone decides the width. Scan and calibration registers come in
groups of two ADC channels.
-/

namespace DaqServer

inductive Width
  | byte
  | dword
  deriving DecidableEq, Repr

namespace Width

def bytes : Width → Nat
  | byte => 1
  | dword => 4

def largest : Width → UInt32
  | byte => 0xFF
  | dword => 0xFFFFFFFF

def Fits (w : Width) (value : UInt32) : Prop := value ≤ w.largest

instance (w : Width) (value : UInt32) : Decidable (w.Fits value) :=
  inferInstanceAs (Decidable (value ≤ w.largest))

theorem fits_dword (value : UInt32) : Fits dword value :=
  UInt32.le_iff_toNat_le.2 (Nat.le_of_lt_succ value.toNat_lt)

end Width

namespace Register

def reset : UInt8 := 0x00

def trigger : UInt8 := 0x10

def startChannel : UInt8 := 0x11

def endChannel : UInt8 := 0x12

def oversamples : UInt8 := 0x13

def reduction : UInt8 := 0x14

def softwareStart : UInt8 := 0x15

def deviceId : UInt8 := 0x40

def features : UInt8 := 0x44

def firmware : UInt8 := 0x48

def clockLow : UInt8 := 0x4C

def clockHigh : UInt8 := 0x50

def fifoCount : UInt8 := 0x58

def fifoData : UInt8 := 0x5C

def dioDirection : UInt8 := 0xE0

def dioInput : UInt8 := 0xE4

def dioOutput : UInt8 := 0xE8

def adcRange (group : UInt8) : UInt8 := 0x60 + 4 * group

def calibrationScale (group : UInt8) : UInt8 := 0x80 + 8 * group

def calibrationOffset (group : UInt8) : UInt8 := 0x80 + 8 * group + 4

def dacOutput (channel : UInt8) : UInt8 := 0xC0 + 4 * channel

def dacRange (channel : UInt8) : UInt8 := 0xD0 + 4 * channel

/-- The width of the register at an offset, unless it is an unaligned 32-bit one. -/
def width (offset : UInt8) : Except BoardError Width :=
  if offset < 0x40 then .ok .byte
  else if offset % 4 = 0 then .ok .dword
  else .error (.unaligned offset)

def readOnly : List UInt8 :=
  [deviceId, features, firmware, clockLow, clockHigh, fifoCount, fifoData, dioInput]

def isReadOnly (offset : UInt8) : Bool := readOnly.contains offset

/-- The checks on a write that need no board, beside the width that they establish: the offset is
aligned, the register is writable, and the value fits. `bounds` is asked before the last two. -/
def checkWrite (bounds : Width → Except BoardError Unit) (offset : UInt8) (value : UInt32) :
    Except BoardError Width := do
  let w ← width offset
  bounds w
  if isReadOnly offset then throw (.readOnly offset)
  if ¬ w.Fits value then throw (.tooWide offset value)
  return w

end Register

/-- Subsystems that a write to the reset register strobes, by bit. -/
structure ResetBits where
  adc : Bool
  dac : Bool
  dio : Bool
  deriving DecidableEq, Repr

/-- The subsystems that a reset value strobes; bit 0 strobes all of them. -/
def ResetBits.ofValue (value : UInt32) : ResetBits where
  adc := value &&& 0x3 != 0
  dac := value &&& 0x5 != 0
  dio := value &&& 0x9 != 0

namespace Trigger

def disabled : UInt32 := 0x00

def software : UInt32 := 0x01

def clear : UInt32 := 0x80

end Trigger

def adcChannels : Nat := 16

abbrev adcGroups : Nat := 8

abbrev dacChannels : Nat := 4

abbrev dioLines : Nat := 32

end DaqServer
