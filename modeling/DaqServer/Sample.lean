import DaqServer.Number.Binary

/-!
# Raw samples

A raw sample is a 32-bit word: the count in the low half, above it the gain code, the polarity and
the channel, and in the highest bit a mark for a word that holds no sample.
-/

namespace DaqServer

namespace Sample

def invalid : UInt32 := 0x80000000

def noData : UInt32 := 0xFFFFFFFF

def isInvalid (raw : UInt32) : Bool := raw &&& invalid != 0

def count (raw : UInt32) : UInt16 := (raw &&& 0xFFFF).toUInt16

def metadata (raw : UInt32) : UInt32 := raw &&& 0x7FFF0000

def gain (raw : UInt32) : UInt8 := ((raw &&& 0x30000) >>> 16).toUInt8

def isUnipolar (raw : UInt32) : Bool := raw &&& 0x40000 != 0

def channel (raw : UInt32) : UInt8 := ((raw &&& 0x3F00000) >>> 20).toUInt8

/-- The word of a sample; of the channel and the gain code only the low six and two bits count. -/
def encode (channel gain : UInt8) (unipolar : Bool) (count : UInt16) : UInt32 :=
  let gainField : UInt32 := (gain.toUInt32 <<< 16) &&& 0x30000
  let channelField : UInt32 := (channel.toUInt32 <<< 20) &&& 0x3F00000
  let fields := count.toUInt32 ||| gainField ||| channelField
  if unipolar then fields ||| 0x40000 else fields

end Sample

/-- A voltage: none, or a number of steps of `2 ^ -17` volts. All voltages of samples are whole
numbers of such steps, and few enough for both floating-point formats to hold them exactly. -/
inductive Volts
  | absent
  | steps (n : Int)
  deriving DecidableEq, Repr

namespace Volts

def spanHalves (gain : UInt8) : Nat :=
  if gain = 0 then 20 else if gain = 1 then 10 else if gain = 2 then 5 else 2

/-- The voltage of a raw sample. A unipolar count is a fraction of the span, a bipolar one is
measured from mid-scale. -/
def ofSample (raw : UInt32) : Volts :=
  if raw = Sample.noData then .absent
  else
    let span := spanHalves (Sample.gain raw)
    let count := (Sample.count raw).toNat
    if Sample.isUnipolar raw then .steps (count * span) else .steps (2 * (count - 32768) * span)

def bits (f : Number.Format) : Volts → Nat
  | absent => f.nanBits
  | steps n => Number.Dyadic.bits f ⟨n, 17⟩

def bits32 (v : Volts) : UInt32 := UInt32.ofNat (v.bits Number.binary32)

end Volts

end DaqServer
