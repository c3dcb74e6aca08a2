import DaqServer.Item.Catalogue
import DaqServer.Item.Describe
import DaqServer.Item.Execute
import DaqServer.Item.Payload
import DaqServer.Scan.Buckets
import DaqServer.Text.Boundary

/-!
# Items with unguarded fields

A raw item keeps its fields as the payload has them and, beside them, what was read for it. Nothing
in its type says that a channel exists or that a payload is long enough: its operations index and
slice the payload and compute offsets and shifts as they come, and stop at a trap where that goes
wrong.
-/

namespace DaqServer

open Trapping (total check)

/-- What a raw item is, with what was read for it. -/
inductive RawKind
  | invalid
  /-- Carried out from the payload. -/
  | primitive
  | readback (offset : UInt8) (value : Option UInt32)
  | clock (ticks : Option UInt64)
  | reboot
  | registerRead (offset : UInt8) (value : Option UInt32)
  | dacRange (channel : UInt8) (value : UInt32)
  | adcRange (group : UInt8) (value : UInt32)
  | adcRanges (write current : Option (Vector UInt32 adcGroups))
  | calibration (group : UInt8) (write current : Option Calibration)
  | scanSetup (write current : Option ScanSetup)
  | scan (view : ScanView) (readings : Option Readings)
  | streamStart (target : ConnectionId)
  | streamStop (wasActive : Option Bool)
  | streamStatus (status : Option StreamStatus)
  | dioInput (bit : UInt8) (level : Option Bool)
  | dioOutput (bit : UInt8) (level : Bool)
  | connectionId (id : Option ConnectionId)
  | diagnostic (kind : Option ErrorKind) (message : String)

inductive RawStatus
  | pending
  | done
  | failed (fault : ItemFault)

/-- One operation of a message with unguarded fields. -/
structure RawItem where
  code : UInt16
  /-- The payload as received. -/
  payload : Bytes
  kind : RawKind
  status : RawStatus

/-! ### Registers of groups and channels -/

namespace Checked

def adcRange (group : UInt8) : Checked UInt8 := register 0x60 4 group

def calibrationScale (group : UInt8) : Checked UInt8 := register 0x80 8 group

def calibrationOffset (group : UInt8) : Checked UInt8 := do
  let scale ← register 0x80 8 group
  add scale 4

def dacOutput (channel : UInt8) : Checked UInt8 := register 0xC0 4 channel

def dacRange (channel : UInt8) : Checked UInt8 := register 0xD0 4 channel

end Checked

/-! ### Reading -/

namespace RawKind

abbrev Decoding (α : Type) := ExceptT ItemError Checked α

/-- Refuse a payload of neither of two lengths. -/
def exactLength (id : ItemId) (payload : Bytes) (least most : Nat) : Decoding Unit :=
  if payload.length = least ∨ payload.length = most then pure ()
  else throw (.lengthMismatch id.code payload.length least most)

def checkIndex (id : ItemId) (field : String) (value : UInt8) (limit : Nat) : Decoding Unit :=
  if value.toNat < limit then pure ()
  else throw (.invalidField id.code (.outOfRange field value limit))

def byteAt (payload : Bytes) (i : Nat) : Decoding UInt8 := .lift (Checked.element payload i)

def wordAt (payload : Bytes) (first : Nat) : Decoding UInt32 := .lift do
  let bytes ← Checked.slice payload first (first + 4)
  Checked.word bytes

def decode (payload : Bytes) : ItemId → Decoding RawKind
  | .boardReset | .registerWrite | .registerClear | .registerSet | .registerToggle
  | .dioConfigure | .dioOutputs => return .primitive
  | .dacOutput => do
      checkIndex .dacOutput "channel" (← byteAt payload 0) dacChannels
      return .primitive
  | .boardDeviceId => return .readback Register.deviceId none
  | .boardFeatures => return .readback Register.features none
  | .boardFirmware => return .readback Register.firmware none
  | .dioInputs => return .readback Register.dioInput none
  | .boardClock => return .clock none
  | .boardReboot => return .reboot
  | .registerRead => return .registerRead (← byteAt payload 0) none
  | .dacRange => do
      checkIndex .dacRange "channel" (← byteAt payload 0) dacChannels
      return .dacRange (← byteAt payload 0) (← wordAt payload 1)
  | .adcRange => do
      checkIndex .adcRange "group" (← byteAt payload 0) adcGroups
      return .adcRange (← byteAt payload 0) (← wordAt payload 1)
  | .adcRanges => do
      exactLength .adcRanges payload 0 32
      let write := if payload.isEmpty then none
        else some (Vector.ofFn fun g : Fin adcGroups => Bytes.toUInt32 (payload.drop (4 * g.val)))
      return .adcRanges write none
  | .adcCalibration => do
      exactLength .adcCalibration payload 1 9
      checkIndex .adcCalibration "group" (← byteAt payload 0) adcGroups
      let write ←
        if payload.length = 9 then pure (some ⟨← wordAt payload 1, ← wordAt payload 5⟩)
        else pure none
      return .calibration (← byteAt payload 0) write none
  | .scanSetup => do
      exactLength .scanSetup payload 0 3
      if payload.isEmpty then return .scanSetup none none
      let first ← byteAt payload 0
      let last ← byteAt payload 1
      checkIndex .scanSetup "end channel" last adcChannels
      if last < first then
        throw (.invalidField ItemId.scanSetup.code (.reversedChannels first last))
      return .scanSetup (some ⟨first, last, ← byteAt payload 2⟩) none
  | .scanRaw => return .scan .raw none
  | .scanCounts => return .scan .counts none
  | .scanVolts => return .scan .volts none
  | .streamStart => do
      let word ← ExceptT.lift (Checked.word payload)
      return .streamStart (ConnectionId.ofWire word)
  | .streamStop => return .streamStop none
  | .streamStatus => return .streamStatus none
  | .dioInput => do
      checkIndex .dioInput "bit" (← byteAt payload 0) dioLines
      return .dioInput (← byteAt payload 0) none
  | .dioOutput => do
      checkIndex .dioOutput "bit" (← byteAt payload 0) dioLines
      let level ← ExceptT.mk (pure (Catalogue.level (← byteAt payload 1)))
      return .dioOutput (← byteAt payload 0) level
  | .connectionId => return .connectionId none
  | .diagnostic =>
      match payload with
      | [] => return .diagnostic none ""
      | code :: text => return .diagnostic (ErrorKind.ofCode? code) (Utf8.decodeLossy text)

end RawKind

namespace RawItem

def construct (code : UInt16) (payload : Bytes) : ExceptT ItemError Checked RawItem := do
  let id ← ExceptT.mk (pure (Catalogue.validateLength code payload.length))
  let kind ← RawKind.decode payload id
  return ⟨code, payload, kind, .pending⟩

def rejected (code : UInt16) (payload : Bytes) (error : ItemError) : RawItem :=
  ⟨code, payload, .invalid, .failed (.ofError error)⟩

def constructOrReject (code : UInt16) (payload : Bytes) : Checked RawItem := do
  match ← (construct code payload).run with
  | .ok item => return item
  | .error e => return rejected code payload e

def diagnostic (kind : ErrorKind) (message : String) : Checked RawItem := do
  let fitting ← Utf8.cutToFit diagnosticLimit message
  return ⟨ItemId.diagnostic.code, [], .diagnostic (some kind) fitting, .done⟩

end RawItem

/-! ### Words and bytes -/

namespace RawKind

def detail (payload : Bytes) : RawKind → String
  | .primitive | .invalid => Text.hexBytes " " payload
  | .readback offset _ | .registerRead offset _ => "@" ++ Text.hex 2 offset.toNat
  | .dacRange channel value => s!"channel {channel} <- " ++ wordText value
  | .adcRange group value => s!"group {group} <- " ++ wordText value
  | .adcRanges (some values) _ => "<- " ++ wordsText values.toList
  | .calibration group (some c) _ => s!"group {group} <- " ++ c.text
  | .calibration group none _ => s!"group {group}"
  | .scanSetup (some s) _ => "<- " ++ s.text
  | .scan view _ => view.name
  | .streamStart target => "to " ++ target.text
  | .dioInput bit _ => s!"bit {bit}"
  | .dioOutput bit level => s!"bit {bit} <- " ++ levelText level
  | .diagnostic (some kind) message => kind.label ++ ": " ++ message
  | .diagnostic none message => message
  | _ => ""

def resultDetail (payload : Bytes) : RawKind → Checked String
  | .readback offset (some value) | .registerRead offset (some value) =>
      return "@" ++ Text.hex 2 offset.toNat ++ " = " ++ wordText value
  | .clock (some ticks) => return s!"= {ticks} ticks"
  | .dacRange channel value => do
      let offset ← Checked.dacRange channel
      return s!"channel {channel}: wrote " ++ wordText value ++ " to register " ++
        Text.hex 2 offset.toNat
  | .adcRange group value => do
      let offset ← Checked.adcRange group
      return s!"group {group}: wrote " ++ wordText value ++ " to register " ++
        Text.hex 2 offset.toNat
  | .adcRanges _ (some values) => return "= " ++ wordsText values.toList
  | .calibration group _ (some c) => return s!"group {group} = " ++ c.text
  | .scanSetup _ (some s) => return "= " ++ s.text
  | .scan .volts (some readings) => do
      let volts ← readings.tableVolts
      return "= " ++ Text.bracketed (volts.map fun v => Number.Layout.pointed.text v.bits32)
  | .scan view (some readings) => return "= " ++ view.text readings
  | .streamStart target => return "streaming to " ++ target.text
  | .streamStop wasActive =>
      return if wasActive = some true then "stopping" else "no active session"
  | .streamStatus (some status) =>
      match status.active with
      | some id => return "active " ++ id.text ++ s!" ({status.blocksSent} blocks sent)"
      | none => return "idle"
  | .dioInput bit (some level) => return s!"bit {bit} = " ++ levelText level
  | .dioOutput bit level => return s!"bit {bit} set to " ++ levelText level
  | .connectionId (some id) => return "= " ++ id.text
  | kind => return kind.detail payload

/-- What a raw item writes when it has been carried out; nothing where the payload as received is
repeated. -/
def replyBytes : RawKind → Checked (Option Bytes)
  | .readback _ (some value) => return some (Bytes.ofUInt32 value)
  | .registerRead offset (some value) => return some (offset :: Bytes.ofUInt32 value)
  | .clock (some ticks) => return some (Bytes.ofUInt64 ticks)
  | .dacRange channel value => return some (channel :: Bytes.ofUInt32 value)
  | .adcRange group value => return some (group :: Bytes.ofUInt32 value)
  | .adcRanges _ (some values) => return some (values.toList.flatMap Bytes.ofUInt32)
  | .calibration group _ (some c) =>
      return some (group :: (Bytes.ofUInt32 c.scale ++ Bytes.ofUInt32 c.offset))
  | .scanSetup _ (some s) => return some [s.first, s.last, s.oversample]
  | .scan .volts (some readings) => do
      let volts ← readings.tableVolts
      return some (volts.flatMap fun v => Bytes.ofUInt32 v.bits32)
  | .scan view (some readings) => return some (view.bytes readings)
  | .streamStatus (some status) =>
      return some (Bytes.ofUInt32 ((status.active.map ConnectionId.value).getD 0xFFFFFFFF))
  | .dioInput bit (some level) => return some [bit, if level then 1 else 0]
  | .connectionId (some id) => return some (Bytes.ofUInt32 id.value)
  | .diagnostic kind message =>
      return some ((kind.map ErrorKind.code).getD 0 :: Utf8.encode message)
  | _ => return none

end RawKind

namespace RawItem

def nameText (i : RawItem) : String :=
  match ItemId.ofCode? i.code with
  | some id => id.name
  | none => "item " ++ Text.hex 4 i.code.toNat

def describe (i : RawItem) (asReply : Bool) : Checked String :=
  match i.status with
  | .failed fault => return i.nameText ++ s!" ({i.payload.length} bytes) failed: " ++ fault.text
  | .pending => return Item.withDetail i.nameText (i.kind.detail i.payload)
  | .done => do
      let detail ←
        if asReply then i.kind.resultDetail i.payload else pure (i.kind.detail i.payload)
      return Item.withDetail i.nameText detail

def wirePayload (i : RawItem) (asReply : Bool) : Checked Bytes :=
  match i.status with
  | .done => do
      let bytes ← if asReply then i.kind.replyBytes else pure none
      return bytes.getD i.payload
  | _ => return i.payload

def encode (i : RawItem) (asReply : Bool) : Checked Bytes := do
  let payload ← i.wirePayload asReply
  return Item.frame i.code payload

/-- The item that reports why an item failed. -/
def report (i : RawItem) : Checked (Option RawItem) :=
  match i.status with
  | .failed fault => do
      let text ← i.describe false
      let reported ← diagnostic fault.kind text
      return some reported
  | _ => return none

end RawItem

/-! ### Carrying out -/

variable {β δ : Type}

namespace Trapping

/-- An access to the board on behalf of an item. -/
def board {α : Type} (access : Trapping BoardError β α) : Trapping ItemError (Instrument β δ) α :=
  fun x => do
    let (result, board) ← access x.board
    return (result.mapError .board, { x with board := board })

end Trapping

namespace RawKind

variable {σ : Type} (port : Port σ)

/-- Replace the contents of the register that a payload names by a function of what is read from it
and of the rest of the payload. -/
def modify (payload : Bytes) (f : UInt32 → UInt32 → UInt32) : Trapping BoardError σ Unit := do
  let offset ← check (Checked.element payload 0)
  let rest ← check (Checked.slice payload 1 payload.length)
  let mask ← check (Checked.word rest)
  let current ← total (port.read offset)
  total (port.write offset (f current mask))

/-- What kinds of item do that are carried out from their payload. -/
def action (payload : Bytes) : ItemId → Option (Trapping BoardError σ Unit)
  | .boardReset => some (total (port.write Register.reset 0x01))
  | .registerWrite => some do
      let offset ← check (Checked.element payload 0)
      let rest ← check (Checked.slice payload 1 payload.length)
      let value ← check (Checked.word rest)
      total (port.write offset value)
  | .registerClear => some (modify port payload fun current mask => current &&& ~~~mask)
  | .registerSet => some (modify port payload fun current mask => current ||| mask)
  | .registerToggle => some (modify port payload fun current mask => current ^^^ mask)
  | .dacOutput => some do
      let channel ← check (Checked.element payload 0)
      let offset ← check (Checked.dacOutput channel)
      let bytes ← check (Checked.slice payload 1 5)
      let value ← check (Checked.word bytes)
      total (port.write offset value)
  | .dioConfigure => some do
      let value ← check (Checked.word payload)
      total (port.write Register.dioDirection value)
  | .dioOutputs => some do
      let value ← check (Checked.word payload)
      total (port.write Register.dioOutput value)
  | _ => none

def writeRanges (values : Vector UInt32 adcGroups) : Trapping BoardError σ Unit :=
  (List.finRange adcGroups).forM fun g => do
    let offset ← check (Checked.adcRange (UInt8.ofNat g))
    total (port.write offset (values.get g))

def readRanges : Trapping BoardError σ (Vector UInt32 adcGroups) :=
  Vector.ofFnM fun g => do
    let offset ← check (Checked.adcRange (UInt8.ofNat g))
    total (port.read offset)

def writeCalibration (group : UInt8) (c : Calibration) : Trapping BoardError σ Unit := do
  let scale ← check (Checked.calibrationScale group)
  total (port.write scale c.scale)
  let offset ← check (Checked.calibrationOffset group)
  total (port.write offset c.offset)

def readCalibration (group : UInt8) : Trapping BoardError σ Calibration := do
  let scaleAt ← check (Checked.calibrationScale group)
  let scale ← total (port.read scaleAt)
  let offsetAt ← check (Checked.calibrationOffset group)
  let offset ← total (port.read offsetAt)
  return ⟨scale, offset⟩

def readInput (bit : UInt8) : Trapping BoardError σ Bool := do
  let inputs ← total (port.read Register.dioInput)
  let shifted ← check (Checked.shiftRight inputs bit)
  return shifted &&& 1 == 1

def driveOutput (bit : UInt8) (level : Bool) : Trapping BoardError σ Unit := do
  let outputs ← total (port.read Register.dioOutput)
  let mask ← check (Checked.shiftLeft 1 bit)
  total (port.write Register.dioOutput (if level then outputs ||| mask else outputs &&& ~~~mask))

open Trapping (board)

def runScan (setup : Setup β δ) : Trapping ItemError (Instrument β δ) Readings := fun x => do
  let (result, arbiter, board) ← Scan.runBuckets setup.port setup.scan setup.watch x.arbiter x.board
  return (result.mapError .acquisition, { x with arbiter := arbiter, board := board })

def run (setup : Setup β δ) (connection : ConnectionId) (code : UInt16) (payload : Bytes) :
    RawKind → Trapping ItemError (Instrument β δ) RawKind
  | .invalid => return .invalid
  | .diagnostic kind message => return .diagnostic kind message
  | .primitive => do
      match ItemId.ofCode? code with
      | none => throw (.unknownId code)
      | some id => (action setup.port payload id).forM board
      return .primitive
  | .readback offset _ =>
      return .readback offset (some (← board (total (setup.port.read offset))))
  | .registerRead offset _ =>
      return .registerRead offset (some (← board (total (setup.port.read offset))))
  | .clock _ => return .clock (some (← board (total setup.port.readClock)))
  | .reboot => do
      total (ItemAction.act fun x => ((), { x with shutdown := x.shutdown.request }))
      return .reboot
  | .dacRange channel value => do
      let offset ← check (Checked.dacRange channel)
      board (total (setup.port.write offset value))
      return .dacRange channel value
  | .adcRange group value => do
      let offset ← check (Checked.adcRange group)
      board (total (setup.port.write offset value))
      return .adcRange group value
  | .adcRanges write _ => do
      let current ← board do
        write.forM (writeRanges setup.port)
        readRanges setup.port
      return .adcRanges write (some current)
  | .calibration group write _ => do
      let current ← board do
        write.forM (writeCalibration setup.port group)
        readCalibration setup.port group
      return .calibration group write (some current)
  | .scanSetup write _ => do
      let current ← board (total do
        write.forM setup.port.writeScanSetup
        setup.port.readScanSetup)
      return .scanSetup write (some current)
  | .scan view _ => return .scan view (some (← runScan setup))
  | .streamStart target => do
      total (ItemAction.acquisition (Instrument.startStream setup target))
      return .streamStart target
  | .streamStop _ =>
      return .streamStop (some (← total (ItemAction.act (Instrument.stopStream setup))))
  | .streamStatus _ =>
      return .streamStatus (some (← total (ItemAction.act fun x => (x.streamStatus, x))))
  | .dioInput bit _ => return .dioInput bit (some (← board (readInput setup.port bit)))
  | .dioOutput bit level => do
      board (driveOutput setup.port bit level)
      return .dioOutput bit level
  | .connectionId _ => return .connectionId (some connection)

end RawKind

/-- Carry out an item unless that was done or it failed before. An item that was carried out is
described for the log. -/
def RawItem.execute (setup : Setup β δ) (connection : ConnectionId) (item : RawItem)
    (x : Instrument β δ) : Checked ((Except ItemError Unit × RawItem) × Instrument β δ) :=
  match item.status with
  | .pending => do
      let (result, x) ← item.kind.run setup connection item.code item.payload x
      match result with
      | .ok kind =>
          let done := { item with kind := kind, status := .done }
          let _ ← done.describe true
          return ((.ok (), done), x)
      | .error e => return ((.error e, { item with status := .failed (.ofError e) }), x)
  | _ => return ((.ok (), item), x)

/-! ### Guarded items as raw ones -/

/-- What a request and its result, if there is one, are as a raw item. -/
def Request.raw : (r : Request) → Option r.Result → RawKind
  | .invalid, _ => .invalid
  | .command _, _ => .primitive
  | .readback offset, value => .readback offset value
  | .clock, ticks => .clock ticks
  | .reboot, _ => .reboot
  | .registerRead offset, value => .registerRead offset value
  | .dacRange channel value, _ => .dacRange (UInt8.ofNat channel) value
  | .adcRange group value, _ => .adcRange (UInt8.ofNat group) value
  | .adcRanges write, current => .adcRanges write current
  | .calibration group write, current => .calibration (UInt8.ofNat group) write current
  | .scanSetup write, current => .scanSetup write current
  | .scan view, readings => .scan view readings
  | .streamStart target, _ => .streamStart target
  | .streamStop, wasActive => .streamStop wasActive
  | .streamStatus, status => .streamStatus status
  | .dioInput bit, level => .dioInput (UInt8.ofNat bit) level
  | .dioOutput bit level, _ => .dioOutput (UInt8.ofNat bit) level
  | .connectionId, id => .connectionId id
  | .diagnostic kind message, _ => .diagnostic kind message

def Item.raw (i : Item) : RawItem :=
  match i.status with
  | .pending => ⟨i.code, i.payload, i.request.raw none, .pending⟩
  | .done result => ⟨i.code, i.payload, i.request.raw (some result), .done⟩
  | .failed fault => ⟨i.code, i.payload, i.request.raw none, .failed fault⟩

end DaqServer
