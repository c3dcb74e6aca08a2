import DaqServer.Daemon.Queue
import DaqServer.Message.Framing
import DaqServer.Stream.Control

/-!
# The daemon

A daemon serves one instrument to control clients, whose messages go through the action queue, and
to streaming clients, which wait as endpoints of the streaming session. Both kinds of connection are
numbered together. Shutting down stops the session, handles what the queue still holds, closes all
connections and leaves the board idle.
-/

namespace DaqServer

structure ControlClient where
  id : ConnectionId
  framer : Framer
  /-- Everything sent to the client, oldest first. -/
  received : List Message
  isOpen : Bool

structure StreamClient where
  id : ConnectionId
  sink : SinkId
  isOpen : Bool

structure Daemon (β δ : Type) where
  instrument : Instrument β δ
  ids : ConnectionIds
  controls : List ControlClient
  streams : List StreamClient
  queue : ActionQueue
  /-- Whether it was shut down. -/
  stopped : Bool

namespace Daemon

variable {β δ : Type}

def start (x : Instrument β δ) : Daemon β δ where
  instrument := x
  ids := .fresh
  controls := []
  streams := []
  queue := .empty
  stopped := false

/-! ## Connections -/

def allocate (d : Daemon β δ) : ConnectionId × Daemon β δ :=
  let (id, ids) := d.ids.allocate
  (id, { d with ids := ids })

def connect (limit : Nat) (d : Daemon β δ) : ConnectionId × Daemon β δ :=
  let (id, d) := d.allocate
  let client : ControlClient := ⟨id, .empty limit, [.hello id], true⟩
  (id, { d with controls := d.controls ++ [client] })

/-- A streaming client connects: first it is registered, so that a start that names it finds it,
then it is greeted. -/
def attach (d : Daemon β δ) : ConnectionId × Daemon β δ :=
  let (id, d) := d.allocate
  let (sink, x) := d.instrument.registerEndpoint id (.fresh none)
  let x := x.modifySink sink fun s => s.write id.helloBytes
  (id, { d with instrument := x, streams := d.streams ++ [⟨id, sink, true⟩] })

def modifyControl (id : ConnectionId) (f : ControlClient → ControlClient) (d : Daemon β δ) :
    Daemon β δ :=
  { d with controls := d.controls.map fun c => if c.id = id then f c else c }

/-! ## Requests -/

def actionOf (client : ControlClient) : Except FramingError Message → Action
  | .ok request => .execute ⟨client.id, client.isOpen⟩ request
  | .error e => .deliver ⟨client.id, client.isOpen⟩ (.error .framing e.message)

def push (a : Action) (d : Daemon β δ) : Daemon β δ := { d with queue := (d.queue.push a).2 }

/-- A reply reaches its client, unless sending failed, which closes the connection. -/
def post (dispatch : Dispatch) (d : Daemon β δ) : Daemon β δ :=
  d.modifyControl dispatch.recipient.connection fun c =>
    if dispatch.recipient.reachable then { c with received := c.received ++ [dispatch.reply] }
    else { c with isOpen := false }

def serve (setup : Setup β δ) (d : Daemon β δ) : Daemon β δ :=
  let (dispatches, queue, x) := d.queue.serve setup d.instrument
  dispatches.foldl (fun d reply => d.post reply) { d with queue := queue, instrument := x }

/-- Bytes arrive on a control connection. They are read as long as no shutdown is requested. -/
def receive (setup : Setup β δ) (id : ConnectionId) (bytes : Bytes) (d : Daemon β δ) :
    Daemon β δ :=
  match d.controls.find? fun c => c.id = id ∧ c.isOpen with
  | none => d
  | some client =>
      if d.instrument.shutdown.requested then d
      else
        let (results, framer) := (client.framer.extend bytes).drain
        let d := d.modifyControl id fun c => { c with framer := framer }
        (results.foldl (fun d r => d.push (actionOf client r)) d).serve setup

/-- A streaming client goes away: sending to it fails from now on, and a session of its own ends. -/
def detach (setup : Setup β δ) (id : ConnectionId) (d : Daemon β δ) : Daemon β δ :=
  match d.streams.find? fun c => c.id = id ∧ c.isOpen with
  | none => d
  | some client =>
      let x := (d.instrument.modifySink client.sink Sink.hangUp).deregisterEndpoint setup id
      let streams := d.streams.map fun (c : StreamClient) =>
        if c.id = id then { c with isOpen := false } else c
      { d with instrument := x, streams := streams }

/-! ## What clients see -/

/-- The messages that a control client was sent, oldest first. -/
def received (d : Daemon β δ) (id : ConnectionId) : List Message :=
  match d.controls.find? fun c => c.id = id with
  | none => []
  | some client => client.received

/-! ## Shutting down -/

def requestShutdown (d : Daemon β δ) : Daemon β δ :=
  { d with instrument := { d.instrument with shutdown := d.instrument.shutdown.request } }

def closeAll (setup : Setup β δ) (d : Daemon β δ) : Daemon β δ :=
  let controls := d.controls.map fun (c : ControlClient) => { c with isOpen := false }
  d.streams.foldl (fun d c => d.detach setup c.id) { d with controls := controls }

def endSession (setup : Setup β δ) (x : Instrument β δ) : Instrument β δ :=
  (x.shutdownStream setup).joinStream setup Instrument.endingTurns

/-- Shut down. Doing so again changes nothing. -/
def shutdown (setup : Setup β δ) (d : Daemon β δ) : Daemon β δ :=
  if d.stopped then d
  else
    let d := d.requestShutdown
    let d := { d with stopped := true, instrument := d.instrument.shutdownStream setup }
    let d := (d.push .close).serve setup
    let d := d.closeAll setup
    let x := endSession setup d.instrument
    { d with instrument := (x.onBoard (setup.port.write Register.trigger Trigger.disabled)).2 }

end Daemon

end DaqServer
