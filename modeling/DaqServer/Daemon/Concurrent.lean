import DaqServer.Daemon.ActionServer
import DaqServer.SharedInstrument

/-!
# A daemon in concurrent use

A daemon is a shared instrument with the queue of requests for it, the consumer that answers them,
and whoever shuts the daemon down. An item that starts or stops a session or runs a scan takes
several steps, so that others may take theirs in between: the consumer makes the call and goes on
once it has returned. Connections act at any time, also after they were closed, which is more than
they do.
-/

namespace DaqServer

variable {β δ : Type}

/-- What an item waits for that takes several steps. -/
inductive ItemWait
  /-- A call of the streaming session. -/
  | call (number : Nat)
  | scan (number : Nat)
  deriving DecidableEq, Repr

namespace Item

/-- The call of the streaming session that carries out a pending item. -/
def call? : Item → Option Call
  | ⟨_, _, .streamStart target, .pending⟩ => some (.start target .arriving)
  | ⟨_, _, .streamStop, .pending⟩ => some (.stop .arriving)
  | _ => none

def scans : Item → Bool
  | ⟨_, _, .scan _, .pending⟩ => true
  | _ => false

def settle (item : Item) : Except ItemError item.request.Result → Except ItemError Unit × Item
  | .ok result => (.ok (), { item with status := .done result })
  | .error e => (.error e, { item with status := .failed (.ofError e) })

/-- What comes of an item when its call has returned. -/
def ofCall? : Item → Call → Option (Except ItemError Unit × Item)
  | ⟨code, payload, .streamStart target, status⟩, .start _ (.returned failure) =>
      some (settle ⟨code, payload, .streamStart target, status⟩ (match failure with
        | none => .ok ()
        | some e => .error (.acquisition e)))
  | ⟨code, payload, .streamStop, status⟩, .stop (.returned active) =>
      some (settle ⟨code, payload, .streamStop, status⟩ (.ok active))
  | _, _ => none

/-- What comes of an item when its scan has returned. -/
def ofScan? : Item → ScanPoint → Option (Except ItemError Unit × Item)
  | ⟨code, payload, .scan view, status⟩, .returned result =>
      some (settle ⟨code, payload, .scan view, status⟩ (result.mapError .acquisition))
  | _, _ => none

def outcome? (item : Item) (shared : SharedInstrument β δ) :
    ItemWait → Option (Except ItemError Unit × Item)
  | .call number => (shared.bench.calls[number]?).bind item.ofCall?
  | .scan number => (shared.scans[number]?).bind fun scan => item.ofScan? scan.point

end Item

/-- Where the consumer goes from an item of a request. Those after one that fails are left out. -/
def ConsumerPoint.next (recipient : Recipient) (request : Message) (done rest : List Item) :
    Except ItemError Unit × Item → ConsumerPoint
  | (.ok (), item) => executing recipient request (done ++ [item]) rest
  | (.error _, item) => executing recipient request (done ++ item :: rest) []

/-- Where the one stands who shuts a daemon down. -/
inductive CloserPoint
  /-- About to request the shutdown and to stop the session. -/
  | requesting
  /-- Waiting for the call that stops the session. -/
  | stopping (call : Nat)
  /-- About to close the queue. -/
  | sealing
  /-- Waiting for the consumer to end, about to stop the session again. -/
  | awaiting
  /-- Waiting for the second call that stops the session. -/
  | stoppingAgain (call : Nat)
  /-- Waiting for the call that waits for the last worker. -/
  | joining (call : Nat)
  /-- About to disable the trigger. -/
  | idling
  | returned
  deriving DecidableEq, Repr

/-- A shared instrument, the queue of requests for it, and everyone at work on them. -/
structure ConcurrentDaemon (β δ : Type) where
  shared : SharedInstrument β δ
  queue : ActionQueue
  consumer : ConsumerPoint
  /-- What the item at hand waits for. -/
  wait : Option ItemWait
  readers : ConnectionId → ControlReader
  /-- The entries that the queue accepted, oldest first. -/
  entered : List Action
  /-- What the consumer did to the sinks of control connections, oldest first. -/
  calls : List SinkCall
  /-- Where the one stands who shuts the daemon down, once somebody does. -/
  closer : Option CloserPoint

/-- Whether an act in a shared instrument is left to the consumer and to the one who shuts the
daemon down. -/
def SharedAct.isReserved : SharedAct β δ → Bool
  | arrive _ | bench (.call (.start _ _)) | bench (.call (.join _)) => true
  | _ => false

/-- One step of someone in a daemon. -/
inductive DaemonAct (β δ : Type)
  /-- A call, a scan or a thread takes its step, a streaming connection comes or goes, or the
  hardware changes. -/
  | shared (act : SharedAct β δ)
  | reader (id : ConnectionId) (step : ReaderStep)
  /-- Someone else uses the queue. -/
  | push (action : Action)
  /-- The consumer takes its step. If that begins a scan it gets a stopwatch. -/
  | consume (watch : Stopwatch)
  /-- Somebody asks for the daemon to be shut down. -/
  | shutdown
  /-- The one who shuts the daemon down takes its step. -/
  | close

namespace ConcurrentDaemon

/-- A daemon that nobody has entered; the readers hand out messages up to a limit. -/
def fresh (limit : Nat) (board : β) (dma : δ) : ConcurrentDaemon β δ where
  shared := .fresh board dma
  queue := .empty
  consumer := .waiting
  wait := none
  readers _ := ⟨.empty limit, .looking⟩
  entered := []
  calls := []
  closer := none

def server (h : ConcurrentDaemon β δ) : ActionServer β δ :=
  ⟨h.shared.bench.instrument, h.queue, h.consumer, h.readers, h.entered, h.calls⟩

def on (h : ConcurrentDaemon β δ) (f : Instrument β δ → Instrument β δ) : ConcurrentDaemon β δ :=
  { h with shared := { h.shared with bench := h.shared.bench.on f } }

/-- The daemon with its instrument and its queue as at an action server. -/
def withServer (h : ConcurrentDaemon β δ) (d : ActionServer β δ) : ConcurrentDaemon β δ :=
  { h.on fun _ => d.instrument with
    queue := d.queue
    consumer := d.consumer
    readers := d.readers
    entered := d.entered
    calls := d.calls }

def make (setup : Setup β δ) (call : Call) (h : ConcurrentDaemon β δ) :
    Option (Nat × ConcurrentDaemon β δ) :=
  (h.shared.step setup (.bench (.call call))).map fun shared =>
    (h.shared.bench.calls.length, { h with shared := shared })

/-- One step of the consumer. -/
def consume (setup : Setup β δ) (watch : Stopwatch) (h : ConcurrentDaemon β δ) :
    Option (ConcurrentDaemon β δ) :=
  match h.consumer with
  | .executing recipient request done (item :: rest) =>
      match h.wait with
      | some wait => (item.outcome? h.shared wait).map fun outcome =>
          { h with wait := none, consumer := .next recipient request done rest outcome }
      | none =>
          match item.call? with
          | some call => (h.make setup call).map fun made =>
              { made.2 with wait := some (.call made.1) }
          | none =>
              if item.scans then (h.shared.step setup (.arrive watch)).map fun shared =>
                { h with shared := shared, wait := some (.scan h.shared.scans.length) }
              else (h.server.consume setup).map h.withServer
  | _ => (h.server.consume setup).map h.withServer

def hasReturned (h : ConcurrentDaemon β δ) (number : Nat) (last : Call) : Bool :=
  h.shared.bench.calls[number]? = some last

/-- One step of the one who shuts the daemon down. -/
def close (setup : Setup β δ) (h : ConcurrentDaemon β δ) :
    CloserPoint → Option (ConcurrentDaemon β δ)
  | .requesting =>
      ((h.on fun x => { x with shutdown := x.shutdown.request }).make setup
        (.close (.stopping .arriving))).map fun made =>
          { made.2 with closer := some (.stopping made.1) }
  | .stopping call =>
      if h.hasReturned call (.close .returned) then some { h with closer := some .sealing }
      else none
  | .sealing => some { h.withServer (h.server.push .close).2 with closer := some .awaiting }
  | .awaiting =>
      match h.consumer with
      | .gone => (h.make setup (.close (.stopping .arriving))).map fun made =>
          { made.2 with closer := some (.stoppingAgain made.1) }
      | _ => none
  | .stoppingAgain call =>
      if h.hasReturned call (.close .returned) then
        (h.make setup (.join .taking)).map fun made =>
          { made.2 with closer := some (.joining made.1) }
      else none
  | .joining call =>
      if h.hasReturned call (.join .returned) then some { h with closer := some .idling } else none
  | .idling =>
      some { h.on fun x => (x.onBoard (setup.port.write Register.trigger Trigger.disabled)).2 with
        closer := some .returned }
  | .returned => none

def step (setup : Setup β δ) (h : ConcurrentDaemon β δ) :
    DaemonAct β δ → Option (ConcurrentDaemon β δ)
  | .shared act =>
      if act.isReserved then none
      else (h.shared.step setup act).map fun shared => { h with shared := shared }
  | .reader id step => (h.server.readerStep id step (h.readers id).point).map h.withServer
  | .push action => if action.isClose then none else some (h.withServer (h.server.push action).2)
  | .consume watch => h.consume setup watch
  | .shutdown => some (if h.closer.isSome then h else { h with closer := some .requesting })
  | .close => h.closer.bind (h.close setup)

def run (setup : Setup β δ) :
    List (DaemonAct β δ) → ConcurrentDaemon β δ → Option (ConcurrentDaemon β δ)
  | [], h => some h
  | act :: acts, h => (h.step setup act).bind (run setup acts)

end ConcurrentDaemon

end DaqServer
