import DaqServer.Board.Port
import DaqServer.Board.Registers
import DaqServer.Sample

/-!
# The simulated board

A board in memory: stored registers, a FIFO of samples, analog inputs that are constant or follow a
script, digital inputs, and a log of the accepted writes. A strobe in software mode fills the FIFO
with the samples of the scan that the registers describe.
-/

namespace DaqServer

structure SimulatedBoard where
  registers : RegisterFile
  /-- Samples waiting to be read, oldest first. -/
  fifo : List UInt32
  /-- The constant count of each analog input. -/
  analog : Vector UInt16 adcChannels
  /-- Counts that an input cycles through within one scan; an empty script leaves the constant. -/
  scripts : Vector (List UInt16) adcChannels
  /-- Levels of the digital inputs. -/
  dioLevels : UInt32
  /-- The most samples that one scan produces. -/
  scanLimit : Option Nat
  /-- Every accepted write, oldest first. -/
  writes : List (UInt8 × UInt32)
  /-- How often the clock has been read. -/
  instant : Nat

namespace SimulatedBoard

def identity : List (UInt8 × UInt32) :=
  [(Register.deviceId, 0xA116), (Register.features, 0xF), (Register.firmware, 0x10200)]

/-- A board that was just powered on: all inputs at mid-scale, all other registers zero. -/
def powerOn : SimulatedBoard where
  registers := identity.foldl (fun r w => r.set w.1 w.2) RegisterFile.zero
  fifo := []
  analog := Vector.replicate adcChannels 0x8000
  scripts := Vector.replicate adcChannels []
  dioLevels := 0
  scanLimit := none
  writes := []
  instant := 0

/-- The contents of a register, without the effects of reading it. -/
def peek (b : SimulatedBoard) (offset : UInt8) : UInt32 := b.registers.get offset

/-- Set the constant count of an input. There is nothing to set beyond the last channel. -/
def setAnalog (b : SimulatedBoard) (channel : UInt8) (count : UInt16) : SimulatedBoard :=
  { b with analog := b.analog.setIfInBounds channel.toNat count }

def setScript (b : SimulatedBoard) (channel : UInt8) (counts : List UInt16) : SimulatedBoard :=
  { b with scripts := b.scripts.setIfInBounds channel.toNat counts }

/-- Put samples into the FIFO as if left over from before. -/
def inject (b : SimulatedBoard) (samples : List UInt32) : SimulatedBoard :=
  { b with fifo := b.fifo ++ samples }

/-- The count of conversion `n` of a channel within one scan. -/
def conversion (b : SimulatedBoard) (channel : Fin adcChannels) (n : Nat) : UInt16 :=
  match b.scripts.get channel with
  | [] => b.analog.get channel
  | script => script.getD (n % script.length) 0

/-- The samples that one channel contributes to a scan. -/
def channelSamples (b : SimulatedBoard) (channel : Fin adcChannels) : List UInt32 :=
  let range := b.peek (Register.adcRange (UInt8.ofNat (channel / 2)))
  let gain := (range &&& 0x3).toUInt8
  let unipolar := range &&& 0x4 != 0
  (List.range ((b.peek Register.oversamples).toNat + 1)).map fun n =>
    Sample.encode (UInt8.ofNat channel) gain unipolar (b.conversion channel n)

/-- The channels of the scan that the registers describe, as far as the board has them. -/
def scanChannels (b : SimulatedBoard) : List (Fin adcChannels) :=
  let first := (b.peek Register.startChannel).toUInt8.toNat
  let last := (b.peek Register.endChannel).toUInt8.toNat
  (List.finRange adcChannels).filter fun c => first ≤ c.val && c.val ≤ last

/-- The samples of a scan, cut at the scan limit. -/
def scanSamples (b : SimulatedBoard) : List UInt32 :=
  let all := b.scanChannels.flatMap b.channelSamples
  match b.scanLimit with
  | none => all
  | some limit => all.take limit

/-- What reading a register shows. -/
def observe (b : SimulatedBoard) (clock : Clock) (offset : UInt8) : UInt32 :=
  if offset = Register.fifoCount then UInt32.ofNat b.fifo.length
  else if offset = Register.fifoData then b.fifo.headD Sample.invalid
  else if offset = Register.clockLow then UInt32.ofNat (clock.reading b.instant)
  else if offset = Register.clockHigh then UInt32.ofNat (clock.reading b.instant / 0x100000000)
  else if offset = Register.dioInput then b.dioLevels
  else b.peek offset

def afterRead (b : SimulatedBoard) (offset : UInt8) : SimulatedBoard :=
  if offset = Register.fifoData then { b with fifo := b.fifo.tail }
  else if offset = Register.clockLow ∨ offset = Register.clockHigh then
    { b with instant := b.instant + 1 }
  else b

def read (clock : Clock) (offset : UInt8) : Access SimulatedBoard UInt32 := fun b =>
  match Register.width offset with
  | .error e => (.error e, b)
  | .ok _ => (.ok (b.observe clock offset), b.afterRead offset)

/-- Strobe subsystems: the ADC loses its samples and its trigger, the DACs and digital lines return
to zero. -/
def strobeReset (b : SimulatedBoard) (bits : ResetBits) : SimulatedBoard :=
  let b := if bits.adc then
      { b with fifo := [], registers := b.registers.set Register.trigger Trigger.disabled }
    else b
  let b := if bits.dac then
      { b with registers := b.registers.setAll ([0, 1, 2, 3].map Register.dacOutput) 0 }
    else b
  if bits.dio then
    { b with registers := b.registers.setAll [Register.dioDirection, Register.dioOutput] 0 }
  else b

/-- The board after an accepted write, the log aside. Strobes are not stored. -/
def afterWrite (b : SimulatedBoard) (offset : UInt8) (value : UInt32) : SimulatedBoard :=
  if offset = Register.reset then b.strobeReset (ResetBits.ofValue value)
  else if offset = Register.softwareStart then
    if b.peek Register.trigger = Trigger.software then b.inject b.scanSamples else b
  else { b with registers := b.registers.set offset value }

def write (offset : UInt8) (value : UInt32) : Access SimulatedBoard Unit := fun b =>
  match Register.checkWrite (fun _ => .ok ()) offset value with
  | .error e => (.error e, b)
  | .ok _ => (.ok (), { b with writes := b.writes ++ [(offset, value)] }.afterWrite offset value)

def port (clock : Clock) : Port SimulatedBoard := ⟨read clock, write⟩

end SimulatedBoard

end DaqServer
