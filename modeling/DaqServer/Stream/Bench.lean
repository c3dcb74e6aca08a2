import DaqServer.Stream.Control

/-!
# An instrument in concurrent use

Calls of the streaming session are taken apart into the atomic steps between which others may take
theirs. A call that is inside the lock of the session keeps other calls out of it, but not the
threads of the runs, a scan, or a call that looks at the arbiter. A bench is an instrument with
everyone at work on it; an act is one step of one of them.
-/

namespace DaqServer

inductive StartPoint
  /-- About to take the lock. -/
  | arriving
  /-- About to claim the ADC. -/
  | claiming
  /-- About to take the sink of the connection. -/
  | taking
  /-- About to wait for the worker of the last run. -/
  | joining (sink : SinkId)
  /-- About to set the size of a transfer. -/
  | configuring (sink : SinkId)
  /-- About to start the engine. -/
  | igniting (sink : SinkId)
  /-- About to create the worker. -/
  | spawning (sink : SinkId)
  /-- About to stop the engine for want of a worker. -/
  | halting (cause : AcquisitionError)
  /-- About to put the sink back. -/
  | restoring (sink : SinkId) (cause : AcquisitionError)
  /-- About to give up the ADC. -/
  | yielding (cause : AcquisitionError)
  /-- The lock is given up; there is an error unless a session was started. -/
  | returned (failure : Option AcquisitionError)
  deriving DecidableEq, Repr

inductive StopPoint
  /-- About to take the lock. -/
  | arriving
  /-- About to look whether a session is active. -/
  | looking
  /-- About to tell the worker of the last run to end. -/
  | flagging (active : Bool)
  /-- About to end the wait of the worker. -/
  | cancelling (active : Bool)
  /-- The lock is given up. -/
  | returned (active : Bool)
  deriving DecidableEq, Repr

inductive DetachPoint
  /-- About to take the sink of the connection, under the lock. -/
  | removing
  /-- About to close the sink. -/
  | closing (sink : SinkId)
  /-- About to look whether the session belongs to the connection. -/
  | checking
  /-- In a stop of the session. -/
  | stopping (point : StopPoint)
  | returned
  deriving DecidableEq, Repr

inductive ClosePoint
  /-- In a stop of the session. -/
  | stopping (point : StopPoint)
  /-- About to take the waiting sinks, under the lock. -/
  | draining
  /-- About to close the sinks that were taken, the first one next. -/
  | closing (sinks : List SinkId)
  | returned
  deriving DecidableEq, Repr

inductive JoinPoint
  /-- About to take the handle of the worker, under the lock. -/
  | taking
  /-- Waiting for the worker of a run. -/
  | waiting (run : Nat)
  | returned
  deriving DecidableEq, Repr

/-- A call of the streaming session and where it stands. -/
inductive Call
  | start (id : ConnectionId) (point : StartPoint)
  | stop (point : StopPoint)
  | detach (id : ConnectionId) (point : DetachPoint)
  | close (point : ClosePoint)
  | join (point : JoinPoint)
  deriving DecidableEq, Repr

def StartPoint.inside : StartPoint → Bool
  | arriving | returned _ => false
  | _ => true

def StopPoint.inside : StopPoint → Bool
  | arriving | returned _ => false
  | _ => true

namespace Call

/-- Whether a call is inside the lock between its steps. -/
def inside : Call → Bool
  | start _ point => point.inside
  | stop point | detach _ (.stopping point) | close (.stopping point) => point.inside
  | _ => false

def isNew : Call → Bool
  | start _ .arriving | stop .arriving | detach _ .removing | close (.stopping .arriving)
  | join .taking => true
  | _ => false

end Call

/-- An instrument and everyone at work on it. -/
structure Bench (β δ : Type) where
  instrument : Instrument β δ
  /-- The runs before the last one, oldest first. -/
  earlier : List Run
  /-- Nobody has taken the handle of the last worker. -/
  joinable : Bool
  /-- All calls so far, numbered from zero. -/
  calls : List Call

namespace Bench

variable {β δ : Type}

def fresh (board : β) (dma : δ) : Bench β δ := ⟨.idle board dma, [], false, []⟩

def runs (b : Bench β δ) : List Run := b.earlier ++ b.instrument.session.run.toList

def locked (b : Bench β δ) : Bool := b.calls.any Call.inside

def on (b : Bench β δ) (f : Instrument β δ → Instrument β δ) : Bench β δ :=
  { b with instrument := f b.instrument }

def onDma {α : Type} (access : Access δ α) (b : Bench β δ) : Except BoardError α × Bench β δ :=
  let (result, x) := b.instrument.onDma access
  (result, { b with instrument := x })

end Bench

variable {β δ : Type}

open Bench in
def StartPoint.step (setup : Setup β δ) (id : ConnectionId) (b : Bench β δ) :
    StartPoint → Option (StartPoint × Bench β δ)
  | .arriving => if b.locked then none else some (.claiming, b)
  | .claiming =>
      match b.instrument.arbiter.claimStream id with
      | .error e => some (.returned (some e), b)
      | .ok held => some (.taking, b.on fun x => { x with arbiter := held })
  | .taking =>
      match b.instrument.endpoint? id with
      | none => some (.yielding (.notConnected id), b)
      | some sink => some (.joining sink, b.on (Instrument.removeEndpoint id))
  | .joining sink =>
      if b.joinable && !b.instrument.isJoined then none
      else some (.configuring sink, { b with joinable := false })
  | .configuring sink =>
      match b.onDma (setup.dma.configure setup.stream.blockBytes) with
      | (.error e, b) => some (.restoring sink (.board e), b)
      | (.ok (), b) => some (.igniting sink, b)
  | .igniting sink =>
      match b.onDma setup.dma.start with
      | (.error e, b) => some (.restoring sink (.board e), b)
      | (.ok (), b) => some (.spawning sink, b)
  | .spawning sink =>
      let ring := Ring.make setup.stream.ringSlots.toNat setup.stream.blockBytes
      some (.returned none, { b with
        instrument := b.instrument.setRun (.fresh id sink ring)
        earlier := b.runs
        joinable := true })
  | .halting cause => some (.yielding cause, (b.onDma setup.dma.stop).2)
  | .restoring sink cause => some (.yielding cause, b.on (Instrument.insertEndpoint id sink))
  | .yielding cause =>
      some (.returned (some cause), b.on fun x => { x with arbiter := x.arbiter.releaseStream id })
  | .returned _ => none

def StopPoint.step (setup : Setup β δ) (b : Bench β δ) : StopPoint → Option (StopPoint × Bench β δ)
  | .arriving => if b.locked then none else some (.looking, b)
  | .looking => some (.flagging b.instrument.arbiter.streamingOwner.isSome, b)
  | .flagging active =>
      match b.instrument.session.run with
      | none => some (.returned active, b)
      | some run => some (.cancelling active, b.on fun x => x.setRun run.terminate)
  | .cancelling active =>
      some (.returned active, b.on fun x => { x with dma := setup.dma.cancel x.dma })
  | .returned _ => none

def DetachPoint.step (setup : Setup β δ) (id : ConnectionId) (b : Bench β δ) :
    DetachPoint → Option (DetachPoint × Bench β δ)
  | .removing =>
      if b.locked then none
      else match b.instrument.endpoint? id with
        | none => some (.checking, b)
        | some sink => some (.closing sink, b.on (Instrument.removeEndpoint id))
  | .closing sink => some (.checking, b.on fun x => x.modifySink sink Sink.close)
  | .checking =>
      if b.instrument.arbiter.streamingOwner = some id then some (.stopping .arriving, b)
      else some (.returned, b)
  | .stopping point => (point.step setup b).map fun next => (.stopping next.1, next.2)
  | .returned => none

def ClosePoint.step (setup : Setup β δ) (b : Bench β δ) :
    ClosePoint → Option (ClosePoint × Bench β δ)
  | .stopping (.returned _) => some (.draining, b)
  | .stopping point => (point.step setup b).map fun next => (.stopping next.1, next.2)
  | .draining =>
      if b.locked then none
      else some (.closing (b.instrument.session.endpoints.map Prod.snd),
        b.on fun x => { x with session := { x.session with endpoints := [] } })
  | .closing [] => some (.returned, b)
  | .closing (sink :: sinks) => some (.closing sinks, b.on fun x => x.modifySink sink Sink.close)
  | .returned => none

def JoinPoint.step (b : Bench β δ) : JoinPoint → Option (JoinPoint × Bench β δ)
  | .taking =>
      if b.locked then none
      else if b.joinable then some (.waiting b.earlier.length, { b with joinable := false })
      else some (.returned, b)
  | .waiting run => if (b.runs[run]?).all Run.isFinished then some (.returned, b) else none
  | .returned => none

def Call.step (setup : Setup β δ) (b : Bench β δ) : Call → Option (Call × Bench β δ)
  | start id point => (point.step setup id b).map fun next => (start id next.1, next.2)
  | stop point => (point.step setup b).map fun next => (stop next.1, next.2)
  | detach id point => (point.step setup id b).map fun next => (detach id next.1, next.2)
  | close point => (point.step setup b).map fun next => (close next.1, next.2)
  | join point => (point.step b).map fun next => (join next.1, next.2)

/-- One step of someone at a bench. Acts of a call or a thread say where it stands before. -/
inductive Act (β δ : Type)
  /-- A new call is made. -/
  | call (call : Call)
  /-- A call takes its step. -/
  | caller (number : Nat) (call : Call)
  /-- No thread can be created for the worker of a start. -/
  | noWorker (number : Nat) (id : ConnectionId) (sink : SinkId) (cause : String)
  /-- A worker that is about to start its logger cannot. -/
  | noLogger (run : Nat)
  | worker (run : Nat) (point : WorkerPoint)
  | logger (run : Nat) (point : LoggerPoint)
  /-- A streaming connection is registered, under the lock. -/
  | register (id : ConnectionId) (sink : Sink)
  | beginScan
  | endScan
  /-- The board or its engine changes on its own or by an access to its registers. -/
  | hardware (board : β) (dma : δ)
  /-- The peer of a sink takes more blocks or fewer. -/
  | peer (sink : SinkId) (accepts : Option Nat)

def Act.isScan : Act β δ → Bool
  | beginScan | endScan => true
  | _ => false

/-- A worker without a logger goes on to its end. -/
def Run.abandon (run : Run) : Run := { run with worker := .ending }

namespace Bench

/-- A thread of a run takes a step. For the threads of an earlier run it stands in for the last. -/
def onRun (number : Nat) (f : Run → Instrument β δ → Option (Instrument β δ)) (b : Bench β δ) :
    Option (Bench β δ) :=
  match b.earlier[number]? with
  | some run => (f run b.instrument).map fun x =>
      { b with
        instrument := { x with session := { x.session with run := b.instrument.session.run } }
        earlier := b.earlier.set number (x.session.run.getD run) }
  | none =>
      if number = b.earlier.length then
        (b.instrument.session.run.bind fun run => f run b.instrument).map fun x =>
          { b with instrument := x }
      else none

def step (setup : Setup β δ) (b : Bench β δ) : Act β δ → Option (Bench β δ)
  | .call call => if call.isNew then some { b with calls := b.calls ++ [call] } else none
  | .caller number call =>
      if b.calls[number]? = some call then
        (call.step setup b).map fun next =>
          { next.2 with calls := next.2.calls.set number next.1 }
      else none
  | .noWorker number id sink cause =>
      if b.calls[number]? = some (.start id (.spawning sink)) then
        some { b with calls := b.calls.set number (.start id (.halting (.io cause))) }
      else none
  | .noLogger number =>
      b.onRun number fun run x =>
        if run.worker = .launching then some (x.setRun run.abandon) else none
  | .worker number point =>
      b.onRun number fun run x => if run.worker = point then run.workerStep setup x else none
  | .logger number point =>
      b.onRun number fun run x => if run.logger = some point then run.loggerStep setup x else none
  | .register id sink =>
      if b.locked then none else some (b.on fun x => (x.registerEndpoint id sink).2)
  | .beginScan =>
      match b.instrument.arbiter.beginScan with
      | .error _ => none
      | .ok held => some (b.on fun x => { x with arbiter := held })
  | .endScan =>
      if b.instrument.arbiter.owner = some .scan then
        some (b.on fun x => { x with arbiter := x.arbiter.endScan })
      else none
  | .hardware board dma => some (b.on fun x => { x with board := board, dma := dma })
  | .peer sink accepts =>
      some (b.on fun x => x.modifySink sink fun s => { s with accepts := accepts })

def run (setup : Setup β δ) : List (Act β δ) → Bench β δ → Option (Bench β δ)
  | [], b => some b
  | act :: acts, b => (b.step setup act).bind (run setup acts)

end Bench

end DaqServer
