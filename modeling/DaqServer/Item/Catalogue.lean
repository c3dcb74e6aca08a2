import DaqServer.Item.Basic

/-!
# The catalogue of items

Every kind of item has bounds on the length of its payload and a way to read the payload. An item
is read from a code and a payload; it is refused for an unknown code, then for its length, then for
the value of a field.
-/

namespace DaqServer

/-- What is known of a kind of item. -/
structure Descriptor where
  id : ItemId
  /-- The shortest payload. -/
  least : Nat
  /-- The longest payload. -/
  most : Nat
  description : String
  /-- Whether items of this kind only write registers. -/
  primitive : Bool
  deriving DecidableEq, Repr

namespace ItemId

/-- The entry of a kind of item. -/
def descriptor (id : ItemId) : Descriptor :=
  match id with
  | boardReset => ⟨id, 0, 0, "Reset the whole board", true⟩
  | boardDeviceId => ⟨id, 0, 4, "Read the device id", false⟩
  | boardFeatures => ⟨id, 0, 4, "Read the feature bits", false⟩
  | boardFirmware => ⟨id, 0, 4, "Read the firmware revision", false⟩
  | boardClock => ⟨id, 0, 8, "Read the free-running clock", false⟩
  | boardReboot => ⟨id, 0, 0, "Shut the daemon down", false⟩
  | registerRead => ⟨id, 1, 1, "Read one register", false⟩
  | registerWrite => ⟨id, 2, 5, "Write one register", true⟩
  | registerClear => ⟨id, 2, 5, "Clear register bits", true⟩
  | registerSet => ⟨id, 2, 5, "Set register bits", true⟩
  | registerToggle => ⟨id, 2, 5, "Toggle register bits", true⟩
  | dacOutput => ⟨id, 5, 5, "Set one DAC output", true⟩
  | dacRange => ⟨id, 5, 5, "Set one DAC range", false⟩
  | adcRange => ⟨id, 5, 5, "Set the range of one ADC channel group", false⟩
  | adcRanges => ⟨id, 0, 32, "Read or write all ADC ranges", false⟩
  | adcCalibration => ⟨id, 1, 9, "Read or write one ADC group calibration", false⟩
  | scanSetup => ⟨id, 0, 3, "Read or write the scan channel range", false⟩
  | scanRaw => ⟨id, 0, 0, "Scan, raw samples", false⟩
  | scanCounts => ⟨id, 0, 0, "Scan, counts", false⟩
  | scanVolts => ⟨id, 0, 0, "Scan, volts", false⟩
  | streamStart => ⟨id, 4, 4, "Start streaming to a streaming connection", false⟩
  | streamStop => ⟨id, 0, 0, "Stop streaming", false⟩
  | streamStatus => ⟨id, 0, 4, "Report the streaming session", false⟩
  | dioConfigure => ⟨id, 4, 4, "Set digital I/O directions", true⟩
  | dioInput => ⟨id, 1, 1, "Read one digital input", false⟩
  | dioOutput => ⟨id, 2, 2, "Set one digital output", false⟩
  | dioInputs => ⟨id, 0, 4, "Read all digital inputs", false⟩
  | dioOutputs => ⟨id, 4, 4, "Set all digital outputs", true⟩
  | connectionId => ⟨id, 0, 4, "Report the connection id", false⟩
  | diagnostic => ⟨id, 0, 1024, "Error kind and message", false⟩

end ItemId

namespace Catalogue

def descriptors : List Descriptor := ItemId.all.map ItemId.descriptor

def wrongLength {α : Type} (id : ItemId) (payload : Bytes) (least most : Nat) :
    Except ItemError α :=
  .error (.lengthMismatch id.code payload.length least most)

/-- The kind of item with a code, if the length of the payload is within its bounds. -/
def validateLength (code : UInt16) (length : Nat) : Except ItemError ItemId :=
  match ItemId.ofCode? code with
  | none => .error (.unknownId code)
  | some id =>
      let d := id.descriptor
      if d.least ≤ length ∧ length ≤ d.most then .ok id
      else .error (.lengthMismatch code length d.least d.most)

/-- A byte as an index below a limit. -/
def index (id : ItemId) (field : String) (limit : Nat) (value : UInt8) :
    Except ItemError (Fin limit) :=
  if h : value.toNat < limit then .ok ⟨value.toNat, h⟩
  else .error (.invalidField id.code (.outOfRange field value limit))

/-- Read the ranges of all groups, or nothing to write. -/
def decodeRanges (payload : Bytes) : Except ItemError Request :=
  if payload.length = 0 then .ok (.adcRanges none)
  else if payload.length = 32 then
    .ok (.adcRanges (some (Vector.ofFn fun g => Bytes.toUInt32 (payload.drop (4 * g.val)))))
  else wrongLength .adcRanges payload 0 32

/-- Read a group and its calibration, or a group alone. -/
def decodeCalibration (payload : Bytes) : Except ItemError Request :=
  match payload with
  | [group] => do
      let group ← index .adcCalibration "group" adcGroups group
      return .calibration group none
  | [group, s0, s1, s2, s3, o0, o1, o2, o3] => do
      let group ← index .adcCalibration "group" adcGroups group
      return .calibration group
        (some ⟨Bytes.toUInt32 [s0, s1, s2, s3], Bytes.toUInt32 [o0, o1, o2, o3]⟩)
  | _ => wrongLength .adcCalibration payload 1 9

/-- Read the scan registers to write, or nothing to write. -/
def decodeScanSetup (payload : Bytes) : Except ItemError Request :=
  match payload with
  | [] => .ok (.scanSetup none)
  | [first, last, oversample] => do
      let _ ← index .scanSetup "end channel" adcChannels last
      if last < first then
        throw (.invalidField ItemId.scanSetup.code (.reversedChannels first last))
      return .scanSetup (some ⟨first, last, oversample⟩)
  | _ => wrongLength .scanSetup payload 0 3

/-- The level that a byte stands for. -/
def level (value : UInt8) : Except ItemError Bool :=
  if value = 0 then .ok false
  else if value = 1 then .ok true
  else .error (.invalidField ItemId.dioOutput.code (.badLevel value))

/-- Read an error kind and a text, both possibly missing. -/
def decodeDiagnostic : Bytes → Request
  | [] => .diagnostic none ""
  | code :: text => .diagnostic (ErrorKind.ofCode? code) (Utf8.decodeLossy text)

/-- Read the payload of a kind of item. The length is within the bounds of the kind; the last case
of kinds with fields stands for lengths outside. -/
def decode (id : ItemId) (payload : Bytes) : Except ItemError Request :=
  match id, payload with
  | .boardReset, _ => .ok (.command .resetBoard)
  | .boardDeviceId, _ => .ok (.readback Register.deviceId)
  | .boardFeatures, _ => .ok (.readback Register.features)
  | .boardFirmware, _ => .ok (.readback Register.firmware)
  | .boardClock, _ => .ok .clock
  | .boardReboot, _ => .ok .reboot
  | .registerRead, [offset] => .ok (.registerRead offset)
  | .registerWrite, offset :: value => .ok (.command (.write offset (Bytes.toUInt32 value)))
  | .registerClear, offset :: mask => .ok (.command (.clearBits offset (Bytes.toUInt32 mask)))
  | .registerSet, offset :: mask => .ok (.command (.setBits offset (Bytes.toUInt32 mask)))
  | .registerToggle, offset :: mask => .ok (.command (.toggleBits offset (Bytes.toUInt32 mask)))
  | .dacOutput, channel :: value => do
      let channel ← index id "channel" dacChannels channel
      return .command (.dacOutput channel (Bytes.toUInt32 value))
  | .dacRange, channel :: value => do
      let channel ← index id "channel" dacChannels channel
      return .dacRange channel (Bytes.toUInt32 value)
  | .adcRange, group :: value => do
      let group ← index id "group" adcGroups group
      return .adcRange group (Bytes.toUInt32 value)
  | .adcRanges, _ => decodeRanges payload
  | .adcCalibration, _ => decodeCalibration payload
  | .scanSetup, _ => decodeScanSetup payload
  | .scanRaw, _ => .ok (.scan .raw)
  | .scanCounts, _ => .ok (.scan .counts)
  | .scanVolts, _ => .ok (.scan .volts)
  | .streamStart, _ => .ok (.streamStart (ConnectionId.ofWire (Bytes.toUInt32 payload)))
  | .streamStop, _ => .ok .streamStop
  | .streamStatus, _ => .ok .streamStatus
  | .dioConfigure, _ => .ok (.command (.dioDirection (Bytes.toUInt32 payload)))
  | .dioInput, [bit] => do
      let bit ← index id "bit" dioLines bit
      return .dioInput bit
  | .dioOutput, [bit, value] => do
      let bit ← index id "bit" dioLines bit
      let level ← level value
      return .dioOutput bit level
  | .dioInputs, _ => .ok (.readback Register.dioInput)
  | .dioOutputs, _ => .ok (.command (.dioOutputs (Bytes.toUInt32 payload)))
  | .connectionId, _ => .ok .connectionId
  | .diagnostic, _ => .ok (decodeDiagnostic payload)
  | _, _ => wrongLength id payload id.descriptor.least id.descriptor.most

/-- Read an item from its code and payload. -/
def construct (code : UInt16) (payload : Bytes) : Except ItemError Item := do
  let id ← validateLength code payload.length
  let request ← decode id payload
  return .ofRequest id payload request

/-- Read an item, or keep what could not be read together with the reason. -/
def constructOrReject (code : UInt16) (payload : Bytes) : Item :=
  match construct code payload with
  | .ok item => item
  | .error e => .rejected code payload e

end Catalogue

end DaqServer
