import DaqServer.Config.Value
import DaqServer.Daemon.Error
import DaqServer.Scan.Plan
import DaqServer.Span.Words
import DaqServer.Stream.Settings

/-!
# Settings of the daemon

The settings in five sections, each with its defaults; how they are taken from a table, when they
are accepted, and what follows from them.
-/

namespace DaqServer

inductive Backend
  | simulated
  | mapped
  deriving DecidableEq, Repr

namespace Backend

def label : Backend → String
  | simulated => "simulated"
  | mapped => "mapped"

def ofLabel? (s : String) : Option Backend := [simulated, mapped].find? fun b => b.label == s

@[simp] theorem ofLabel?_label (b : Backend) : ofLabel? b.label = some b := by
  cases b <;> rfl

end Backend

structure ServerSettings where
  bindAddress : IpAddress := .any
  /-- Port of the control listener; the streaming listener has the next one. -/
  controlPort : UInt16 := 18767
  /-- The longest message that is accepted. -/
  maxMessageBytes : UInt64 := 1048576
  readTimeoutMillis : UInt64 := 250
  deriving DecidableEq, Repr

structure BoardSettings where
  backend : Backend := .simulated
  /-- File of a mapped board. -/
  devicePath : String := "/sys/bus/pci/devices/0000:01:00.0/resource0"
  /-- Size of the window on the file. -/
  mapLength : UInt64 := 256
  deriving DecidableEq, Repr

structure ScanTiming where
  reductionFactor : UInt8 := 0
  settleMicros : UInt64 := 10
  pollIntervalMicros : UInt64 := 50
  timeoutFloorMillis : UInt64 := 100
  timeoutPerSampleMicros : UInt64 := 20
  deriving DecidableEq, Repr

structure StreamSizes where
  ringSlots : UInt64 := 255
  transferSamples : UInt64 := 4096
  loggerWaitMillis : UInt64 := 100
  deriving DecidableEq, Repr

structure LoggingSettings where
  level : String := "info"
  format : String := "compact"
  deriving DecidableEq, Repr

structure DaemonSettings where
  server : ServerSettings := {}
  board : BoardSettings := {}
  scan : ScanTiming := {}
  stream : StreamSizes := {}
  logging : LoggingSettings := {}
  deriving DecidableEq, Repr

/-! ## Taking settings from a table -/

/-- The settings of one section as a source gives them: by name, or in their order. -/
inductive SectionSource
  | named (entries : ConfigTable)
  | ordered (values : List ConfigValue)

namespace SectionSource

/-- The source of a section. Nothing is given if the section is missing or is a date, whose parts
are no settings; any other plain value is no section. -/
def of? : Option ConfigValue → Option SectionSource
  | none | some .date => some (.named [])
  | some (.table entries) => some (.named entries)
  | some (.list values) => some (.ordered values)
  | some _ => none

/-- The setting with a name and a place in the order. -/
def find? (s : SectionSource) (name : String) (place : Nat) : Option ConfigValue :=
  match s with
  | named entries => entries.lookup name
  | ordered values => values[place]?

/-- The setting with a name and a place, or its default. Fails on a value of the wrong type. -/
def get {α : Type} (s : SectionSource) (name : String) (place : Nat)
    (read : ConfigValue → Option α) (missing : α) : Option α :=
  match s.find? name place with
  | none => some missing
  | some v => read v

end SectionSource

namespace ConfigValue

def natBelow? (bound : Nat) : ConfigValue → Option Nat
  | integer n => if 0 ≤ n ∧ n < bound then some n.toNat else none
  | _ => none

def uint8? (v : ConfigValue) : Option UInt8 := (v.natBelow? 0x100).map UInt8.ofNat

def uint16? (v : ConfigValue) : Option UInt16 := (v.natBelow? 0x10000).map UInt16.ofNat

def uint64? (v : ConfigValue) : Option UInt64 := (v.natBelow? 0x10000000000000000).map UInt64.ofNat

def text? : ConfigValue → Option String
  | text s => some s
  | _ => none

def address? (v : ConfigValue) : Option IpAddress := v.text?.bind IpAddress.ofText?

def backend? (v : ConfigValue) : Option Backend := v.text?.bind Backend.ofLabel?

end ConfigValue

open ConfigValue

def ServerSettings.of? (s : SectionSource) : Option ServerSettings := do
  let usual : ServerSettings := {}
  return {
    bindAddress := ← s.get "bind_address" 0 address? usual.bindAddress
    controlPort := ← s.get "control_port" 1 uint16? usual.controlPort
    maxMessageBytes := ← s.get "max_message_bytes" 2 uint64? usual.maxMessageBytes
    readTimeoutMillis := ← s.get "read_timeout_ms" 3 uint64? usual.readTimeoutMillis }

def BoardSettings.of? (s : SectionSource) : Option BoardSettings := do
  let usual : BoardSettings := {}
  return {
    backend := ← s.get "backend" 0 backend? usual.backend
    devicePath := ← s.get "device_path" 1 text? usual.devicePath
    mapLength := ← s.get "map_len" 2 uint64? usual.mapLength }

def ScanTiming.of? (s : SectionSource) : Option ScanTiming := do
  let usual : ScanTiming := {}
  return {
    reductionFactor := ← s.get "reduction_factor" 0 uint8? usual.reductionFactor
    settleMicros := ← s.get "settle_us" 1 uint64? usual.settleMicros
    pollIntervalMicros := ← s.get "poll_interval_us" 2 uint64? usual.pollIntervalMicros
    timeoutFloorMillis := ← s.get "timeout_floor_ms" 3 uint64? usual.timeoutFloorMillis
    timeoutPerSampleMicros :=
      ← s.get "timeout_per_sample_us" 4 uint64? usual.timeoutPerSampleMicros }

def StreamSizes.of? (s : SectionSource) : Option StreamSizes := do
  let usual : StreamSizes := {}
  return {
    ringSlots := ← s.get "ring_slots" 0 uint64? usual.ringSlots
    transferSamples := ← s.get "transfer_samples" 1 uint64? usual.transferSamples
    loggerWaitMillis := ← s.get "logger_wait_ms" 2 uint64? usual.loggerWaitMillis }

def LoggingSettings.of? (s : SectionSource) : Option LoggingSettings := do
  let usual : LoggingSettings := {}
  return {
    level := ← s.get "level" 0 text? usual.level
    format := ← s.get "format" 1 text? usual.format }

namespace DaemonSettings

/-- The settings of a table. Names that mean nothing are passed over. -/
def ofTable? (t : ConfigTable) : Option DaemonSettings := do
  let sectionOf (name : String) : Option SectionSource := SectionSource.of? (t.lookup name)
  return {
    server := ← (sectionOf "server").bind ServerSettings.of?
    board := ← (sectionOf "board").bind BoardSettings.of?
    scan := ← (sectionOf "scan").bind ScanTiming.of?
    stream := ← (sectionOf "stream").bind StreamSizes.of?
    logging := ← (sectionOf "logging").bind LoggingSettings.of? }

/-! ## What follows from the settings -/

/-- The port above the control port, or the last port. -/
def streamPort (s : DaemonSettings) : UInt16 :=
  if s.server.controlPort = 65535 then 65535 else s.server.controlPort + 1

def controlAddress (s : DaemonSettings) : SocketAddress :=
  { host := s.server.bindAddress, number := s.server.controlPort }

def streamAddress (s : DaemonSettings) : SocketAddress :=
  { host := s.server.bindAddress, number := s.streamPort }

def readTimeout (s : DaemonSettings) : Span := .ofMillis s.server.readTimeoutMillis

def scanSettings (s : DaemonSettings) : ScanSettings where
  reduction := s.scan.reductionFactor
  settle := .ofMicros s.scan.settleMicros
  pollInterval := .ofMicros s.scan.pollIntervalMicros
  timeoutFloor := .ofMillis s.scan.timeoutFloorMillis
  timeoutPerSample := .ofMicros s.scan.timeoutPerSampleMicros

/-- The time allowed for a number of samples, computed in machine words: the floor and an allowance
for each sample, of which at most `0xFFFFFFFF` count. -/
def timeoutWords (s : DaemonSettings) (expected : Nat) : Option SpanWords :=
  (SpanWords.ofMillis s.scan.timeoutFloorMillis).add?
    ((SpanWords.ofMicros s.scan.timeoutPerSampleMicros).times (.ofNat (min expected 0xFFFFFFFF)))

def streamSettings (s : DaemonSettings) : StreamSettings where
  ringSlots := s.stream.ringSlots
  transferSamples := s.stream.transferSamples
  loggerWait := .ofMillis s.stream.loggerWaitMillis

/-! ## Accepting settings -/

def require (condition : Bool) (fault : ConfigFault) : Except ConfigFault Unit :=
  if condition then .ok () else .error fault

/-- Refuse settings that nothing can be done with; the first fault counts. -/
def validate (s : DaemonSettings) : Except ConfigFault Unit := do
  let control := s.server.controlPort
  require (control ≠ 0 ∧ control ≠ 65535) (.noStreamingPort control)
  require (s.server.maxMessageBytes ≠ 0) (.notPositive "max_message_bytes")
  require (s.server.readTimeoutMillis ≠ 0) (.notPositive "read_timeout_ms")
  require (s.board.mapLength ≠ 0) (.notPositive "map_len")
  s.streamSettings.validate.mapError .stream
  require (LogLevel.names.contains s.logging.level.toLower) (.badLevel s.logging.level)
  require (LogFormat.names.contains s.logging.format.toLower) (.badFormat s.logging.format)

end DaemonSettings

end DaqServer
