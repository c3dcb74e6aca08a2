import DaqServer.Board.Mapped
import DaqServer.Board.Simulated
import DaqServer.Board.SimulatedDma
import DaqServer.Config.Load
import DaqServer.Daemon.Basic

/-!
# Command line

`[port] [--config file]`: loads the settings and serves one control client on standard input and
output.
-/

namespace DaqServer.CommandLine

structure Arguments where
  port : Option UInt16 := none
  file : Option String := none

def Arguments.ofWords? : List String → Arguments → Option Arguments
  | [], a => some a
  | "--config" :: file :: rest, a =>
      if a.file.isSome then none else ofWords? rest { a with file := some file }
  | word :: rest, a =>
      match word.toNat? with
      | some n =>
          if n < 65536 ∧ a.port.isNone then ofWords? rest { a with port := some (UInt16.ofNat n) }
          else none
      | none => none

/-- The settings that may come from environment variables, by section. -/
def sections : List (String × List String) :=
  [ ("SERVER", ["BIND_ADDRESS", "CONTROL_PORT", "MAX_MESSAGE_BYTES", "READ_TIMEOUT_MS"]),
    ("BOARD", ["BACKEND", "DEVICE_PATH", "MAP_LEN"]),
    ("SCAN", ["REDUCTION_FACTOR", "SETTLE_US", "POLL_INTERVAL_US", "TIMEOUT_FLOOR_MS",
      "TIMEOUT_PER_SAMPLE_US"]),
    ("STREAM", ["RING_SLOTS", "TRANSFER_SAMPLES", "LOGGER_WAIT_MS"]),
    ("LOGGING", ["LEVEL", "FORMAT"]) ]

def knownNames : List String :=
  Environment.levelName :: sections.flatMap fun s =>
    s.2.map fun key => Environment.nameStart ++ s.1 ++ "__" ++ key

def readEnvironment : IO (List (String × String)) := do
  let found ← knownNames.mapM fun name => do
    return (← IO.getEnv name).map fun text => (name, text)
  return found.filterMap id

def readFile? (path : String) : IO (Option String) := do
  try return some (← IO.FS.readFile path)
  catch _ => return none

def readBytes? (path : String) : IO (Option (Array UInt8)) := do
  try return some (← IO.FS.readBinFile path).data
  catch _ => return none

def setupOf {β δ : Type} (settings : DaemonSettings) (port : Port β) (dma : DmaEngine δ) :
    Setup β δ where
  port := port
  dma := dma
  scan := settings.scanSettings
  watch := .steady 1000 settings.scanSettings.pollInterval.nanoseconds (by decide)
  stream := settings.streamSettings

/-- Pass bytes to the daemon and replies to the client until the input ends or shutdown is
requested. -/
partial def serve {β δ : Type} (setup : Setup β δ) (save : β → IO Unit) (id : ConnectionId)
    (sent : Nat) (d : Daemon β δ) : IO Unit := do
  let output ← IO.getStdout
  let received := d.received id
  for m in received.drop sent do
    output.write ⟨m.encode.toArray⟩
  output.flush
  save d.instrument.board
  if d.instrument.shutdown.requested then
    save (d.shutdown setup).instrument.board
  else
    let bytes ← (← IO.getStdin).read 4096
    if bytes.isEmpty then save (d.shutdown setup).instrument.board
    else serve setup save id received.length (d.receive setup id bytes.data.toList)

def serveBoard {β δ : Type} (settings : DaemonSettings) (setup : Setup β δ) (save : β → IO Unit)
    (x : Instrument β δ) : IO Unit :=
  let (id, d) := (Daemon.start x).connect settings.server.maxMessageBytes.toNat
  serve setup save id 0 d

/-- Open the board of the settings and serve it. -/
def run (settings : DaemonSettings) : IO (Except DaemonError Unit) := do
  match settings.board.backend with
  | .simulated =>
      let setup := setupOf settings (SimulatedBoard.port .steady) SimulatedDma.engine
      serveBoard settings setup (fun _ => pure ()) (.idle .powerOn .powerOn)
      return .ok ()
  | .mapped =>
      let path := settings.board.devicePath
      match MappedBoard.open? path (← readBytes? path) settings.board.mapLength.toNat with
      | .error e => return .error (.board e)
      | .ok board =>
          let setup : Setup MappedBoard Unit := setupOf settings MappedBoard.port .absent
          serveBoard settings setup (fun b => IO.FS.writeBinFile path ⟨b.file⟩) (.idle board ())
          return .ok ()

def start (a : Arguments) : IO (Except DaemonError Unit) := do
  let file ← readFile? (a.file.getD "aiod.toml")
  match DaemonSettings.load file (← readEnvironment) a.port with
  | .error e => return .error e
  | .ok settings =>
      match LogOutput.ofNames settings.logging.level settings.logging.format with
      | .error fault => return .error (.logging fault)
      | .ok _ => run settings

end DaqServer.CommandLine

open DaqServer in
def main (words : List String) : IO UInt32 := do
  match CommandLine.Arguments.ofWords? words {} with
  | none =>
      IO.eprintln "usage: [port] [--config file]"
      return 2
  | some a =>
      match ← CommandLine.start a with
      | .ok () => return 0
      | .error e =>
          IO.eprintln ("Error: " ++ e.message)
          return 1
