import DaqServer.Stream.Threads

/-!
# Controlling the streaming session

Connections are registered as endpoints and wait there until a session is started for one of them.
A start claims the ADC, takes the endpoint, sets the DMA engine going and hands the sink to a new
run; whatever fails on the way is undone. The claim is free only after the worker of the previous
run has finished, so a start that has the claim has nothing to wait for. The sizes that are set have
room here; `Checked.startStream` is a start that stops where they have none.
-/

namespace DaqServer

structure StreamStatus where
  active : Option ConnectionId
  /-- Blocks sent by the current or last run. -/
  blocksSent : Nat
  deriving DecidableEq, Repr

namespace Instrument

variable {β δ : Type}

def endpoint? (x : Instrument β δ) (id : ConnectionId) : Option SinkId :=
  x.session.endpoints.lookup id

def removeEndpoint (id : ConnectionId) (x : Instrument β δ) : Instrument β δ :=
  { x with session := { x.session with
    endpoints := x.session.endpoints.filter fun e => e.1 != id } }

/-- Let a connection wait with a sink; one of the same number is replaced. -/
def insertEndpoint (id : ConnectionId) (sink : SinkId) (x : Instrument β δ) : Instrument β δ :=
  let x := x.removeEndpoint id
  { x with session := { x.session with endpoints := (id, sink) :: x.session.endpoints } }

def addSink (sink : Sink) (x : Instrument β δ) : SinkId × Instrument β δ :=
  (x.session.sinks.length,
    { x with session := { x.session with sinks := x.session.sinks ++ [sink] } })

def registerEndpoint (id : ConnectionId) (sink : Sink) (x : Instrument β δ) :
    SinkId × Instrument β δ :=
  let (number, x) := x.addSink sink
  (number, x.insertEndpoint id number)

/-- Tell the worker of the last run to end, and end its wait. -/
def requestStop (setup : Setup β δ) (x : Instrument β δ) : Instrument β δ :=
  match x.session.run with
  | none => x
  | some run => { x.setRun run.terminate with dma := setup.dma.cancel x.dma }

/-- Ask the session to stop; tells whether one was active. -/
def stopStream (setup : Setup β δ) (x : Instrument β δ) : Bool × Instrument β δ :=
  (x.arbiter.streamingOwner.isSome, x.requestStop setup)

def dropEndpoint (id : ConnectionId) (x : Instrument β δ) : Instrument β δ :=
  match x.endpoint? id with
  | none => x
  | some sink => (x.removeEndpoint id).modifySink sink Sink.close

/-- A streaming connection goes away; the session stops if it belongs to it. -/
def deregisterEndpoint (setup : Setup β δ) (id : ConnectionId) (x : Instrument β δ) :
    Instrument β δ :=
  let x := x.dropEndpoint id
  if x.arbiter.streamingOwner = some id then (x.stopStream setup).2 else x

def startDma (setup : Setup β δ) : Access δ Unit := do
  setup.dma.configure setup.stream.blockBytes
  setup.dma.start

/-- Start a session for a connection. -/
def startStream (setup : Setup β δ) (id : ConnectionId) (x : Instrument β δ) :
    Except AcquisitionError Unit × Instrument β δ :=
  match x.arbiter.claimStream id with
  | .error e => (.error e, x)
  | .ok held =>
      match x.endpoint? id with
      | none => (.error (.notConnected id), { x with arbiter := held.releaseStream id })
      | some sink =>
          let taken := { x.removeEndpoint id with arbiter := held }
          match startDma setup x.dma with
          | (.error e, dma) =>
              let undone := taken.insertEndpoint id sink
              (.error (.board e), { undone with dma := dma, arbiter := held.releaseStream id })
          | (.ok (), dma) =>
              let ring := Ring.make setup.stream.ringSlots.toNat setup.stream.blockBytes
              (.ok (), { taken.setRun (.fresh id sink ring) with dma := dma })

def streamStatus (x : Instrument β δ) : StreamStatus :=
  ⟨x.arbiter.streamingOwner, (x.session.run.map (·.flags.blocksSent)).getD 0⟩

def shutdownStream (setup : Setup β δ) (x : Instrument β δ) : Instrument β δ :=
  let x := (x.stopStream setup).2
  let closed := x.session.endpoints.foldl (fun x e => x.modifySink e.2 Sink.close) x
  { closed with session := { closed.session with endpoints := [] } }

/-- Wait for the worker of the last run, for at most `turns` turns of the threads. -/
def joinStream (setup : Setup β δ) (turns : Nat) (x : Instrument β δ) : Instrument β δ :=
  x.advance setup isJoined turns

/-- Turns in which the threads of a run finish once its worker has been told to end. -/
def endingTurns : Nat := 32

end Instrument

end DaqServer
