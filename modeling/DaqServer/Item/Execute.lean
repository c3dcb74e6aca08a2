import DaqServer.Item.Basic

/-!
# Carrying out items

A request is carried out on an instrument for the connection that sent it. An item is carried out at
most once; what it yields, or the record of its failure, is kept with it.
-/

namespace DaqServer

variable {β δ : Type}

/-- Replace the contents of a register by a function of what is read from it. -/
def Port.modify {σ : Type} (port : Port σ) (offset : UInt8) (f : UInt32 → UInt32) :
    Access σ Unit := do
  let current ← port.read offset
  port.write offset (f current)

/-- Carry out a register command. -/
def Command.run {σ : Type} (port : Port σ) : Command → Access σ Unit
  | resetBoard => port.write Register.reset 0x01
  | write offset value => port.write offset value
  | clearBits offset mask => port.modify offset fun current => current &&& ~~~mask
  | setBits offset mask => port.modify offset fun current => current ||| mask
  | toggleBits offset mask => port.modify offset fun current => current ^^^ mask
  | dacOutput channel value => port.write (Register.dacOutput (UInt8.ofNat channel)) value
  | dioDirection value => port.write Register.dioDirection value
  | dioOutputs value => port.write Register.dioOutput value

namespace Register

def rangeOf (group : Fin adcGroups) : UInt8 := adcRange (UInt8.ofNat group)

def scaleOf (group : Fin adcGroups) : UInt8 := calibrationScale (UInt8.ofNat group)

def offsetOf (group : Fin adcGroups) : UInt8 := calibrationOffset (UInt8.ofNat group)

end Register

namespace Port

variable {σ : Type} (port : Port σ)

def writeRanges (values : Vector UInt32 adcGroups) : Access σ Unit :=
  (List.finRange adcGroups).forM fun g => port.write (Register.rangeOf g) (values.get g)

def readRanges : Access σ (Vector UInt32 adcGroups) :=
  Vector.ofFnM fun g => port.read (Register.rangeOf g)

def writeCalibration (group : Fin adcGroups) (c : Calibration) : Access σ Unit := do
  port.write (Register.scaleOf group) c.scale
  port.write (Register.offsetOf group) c.offset

def readCalibration (group : Fin adcGroups) : Access σ Calibration := do
  let scale ← port.read (Register.scaleOf group)
  let offset ← port.read (Register.offsetOf group)
  return ⟨scale, offset⟩

def writeScanSetup (s : ScanSetup) : Access σ Unit := do
  port.write Register.startChannel s.first.toUInt32
  port.write Register.endChannel s.last.toUInt32
  port.write Register.oversamples s.oversample.toUInt32

def readScanSetup : Access σ ScanSetup := do
  let first ← port.read Register.startChannel
  let last ← port.read Register.endChannel
  let oversample ← port.read Register.oversamples
  return ⟨first.toUInt8, last.toUInt8, oversample.toUInt8⟩

/-- Read both words of the running clock, the low one first. -/
def readClock : Access σ UInt64 := do
  let low ← port.read Register.clockLow
  let high ← port.read Register.clockHigh
  return high.toUInt64 <<< 32 ||| low.toUInt64

def readInput (bit : Fin dioLines) : Access σ Bool := do
  let inputs ← port.read Register.dioInput
  return (inputs >>> UInt32.ofNat bit) &&& 1 == 1

def driveOutput (bit : Fin dioLines) (level : Bool) : Access σ Unit :=
  let mask : UInt32 := 1 <<< UInt32.ofNat bit
  port.modify Register.dioOutput fun outputs =>
    if level then outputs ||| mask else outputs &&& ~~~mask

end Port

abbrev ItemAction (β δ : Type) (α : Type) := ExceptT ItemError (StateM (Instrument β δ)) α

namespace ItemAction

def board {α : Type} (access : Access β α) : ItemAction β δ α := fun x =>
  let (result, x) := x.onBoard access
  (result.mapError .board, x)

/-- Something that may fail for a reason of the acquisition. -/
def acquisition {α : Type}
    (act : Instrument β δ → Except AcquisitionError α × Instrument β δ) : ItemAction β δ α :=
  fun x =>
    let (result, x) := act x
    (result.mapError .acquisition, x)

def act {α : Type} (f : Instrument β δ → α × Instrument β δ) : ItemAction β δ α := fun x =>
  let (result, x) := f x
  (.ok result, x)

end ItemAction

open ItemAction in
/-- Carry out a request for a connection. -/
def Request.run (setup : Setup β δ) (connection : ConnectionId) :
    (r : Request) → ItemAction β δ r.Result
  | .invalid => pure ()
  | .diagnostic _ _ => pure ()
  | .command c => board (c.run setup.port)
  | .readback offset => board (setup.port.read offset)
  | .registerRead offset => board (setup.port.read offset)
  | .clock => board setup.port.readClock
  | .reboot => act fun x => ((), { x with shutdown := x.shutdown.request })
  | .dacRange channel value =>
      board (setup.port.write (Register.dacRange (UInt8.ofNat channel)) value)
  | .adcRange group value => board (setup.port.write (Register.rangeOf group) value)
  | .adcRanges values => board do
      values.forM setup.port.writeRanges
      setup.port.readRanges
  | .calibration group value => board do
      value.forM (setup.port.writeCalibration group)
      setup.port.readCalibration group
  | .scanSetup value => board do
      value.forM setup.port.writeScanSetup
      setup.port.readScanSetup
  | .scan _ => acquisition (Instrument.scan setup)
  | .streamStart target => acquisition (Instrument.startStream setup target)
  | .streamStop => act (Instrument.stopStream setup)
  | .streamStatus => act fun x => (x.streamStatus, x)
  | .dioInput bit => board (setup.port.readInput bit)
  | .dioOutput bit level => board (setup.port.driveOutput bit level)
  | .connectionId => pure connection

/-- Carry out an item unless that was done or it failed before. -/
def Item.execute (setup : Setup β δ) (connection : ConnectionId) (item : Item)
    (x : Instrument β δ) : (Except ItemError Unit × Item) × Instrument β δ :=
  match item.status with
  | .pending =>
      match item.request.run setup connection x with
      | (.ok result, x) => ((.ok (), { item with status := .done result }), x)
      | (.error e, x) => ((.error e, { item with status := .failed (.ofError e) }), x)
  | _ => ((.ok (), item), x)

end DaqServer
