import DaqServer.Adc.Arbiter
import DaqServer.Board.Dma
import DaqServer.Scan.Engine
import DaqServer.Shutdown
import DaqServer.Stream.Run
import DaqServer.Stream.Settings

/-!
# The instrument

An instrument is a board with everything that is done on it: the arbiter of its ADC, the streaming
session and the shutdown request. A setup is what does not change while it is used.
-/

namespace DaqServer

/-- The ways to a board and the settings of what runs on it. -/
structure Setup (β δ : Type) where
  port : Port β
  dma : DmaEngine δ
  scan : ScanSettings
  watch : Stopwatch
  stream : StreamSettings

/-- The streaming side of an instrument. -/
structure Session where
  /-- The connections that wait for a session, each with its sink. -/
  endpoints : List (ConnectionId × SinkId)
  /-- The sinks of all connections, by number. -/
  sinks : List Sink
  /-- The last run, running or finished. -/
  run : Option Run
  deriving DecidableEq, Repr

def Session.empty : Session := ⟨[], [], none⟩

/-- The state of an instrument: that of the board, of its DMA engine and of what runs on them. -/
structure Instrument (β δ : Type) where
  board : β
  dma : δ
  arbiter : Arbiter
  session : Session
  shutdown : ShutdownSignal

namespace Instrument

variable {β δ : Type}

def idle (board : β) (dma : δ) : Instrument β δ where
  board := board
  dma := dma
  arbiter := .idle
  session := .empty
  shutdown := .quiet

def setRun (x : Instrument β δ) (run : Run) : Instrument β δ :=
  { x with session := { x.session with run := some run } }

def modifySink (x : Instrument β δ) (id : SinkId) (f : Sink → Sink) : Instrument β δ :=
  { x with session := { x.session with sinks := x.session.sinks.modify id f } }

def onBoard {α : Type} (access : Access β α) (x : Instrument β δ) :
    Except BoardError α × Instrument β δ :=
  let (result, board) := access x.board
  (result, { x with board := board })

def onDma {α : Type} (access : Access δ α) (x : Instrument β δ) :
    Except BoardError α × Instrument β δ :=
  let (result, dma) := access x.dma
  (result, { x with dma := dma })

def scan (setup : Setup β δ) (x : Instrument β δ) :
    Except AcquisitionError Readings × Instrument β δ :=
  let (result, arbiter, board) := Scan.run setup.port setup.scan setup.watch x.arbiter x.board
  (result, { x with arbiter := arbiter, board := board })

end Instrument

end DaqServer
