import DaqServer.Stream.Bench

/-!
# Streaming connections at an instrument

A streaming server is a bench with the streaming connections that come to it. A connection is
registered first, so that a start that names it finds it, and greeted then, by a write to its sink
of its own; whoever has the sink may write to it in between. It is detached when its peer is gone.
-/

namespace DaqServer

variable {β δ : Type}

inductive StreamConnectionPoint
  /-- About to be registered. -/
  | arriving
  /-- Registered, about to be greeted. -/
  | greeting (sink : SinkId)
  /-- Greeted; whatever the peer sends is thrown away. -/
  | reading (sink : SinkId)
  /-- About to be detached. -/
  | departing
  | gone
  deriving DecidableEq, Repr

structure StreamConnection where
  id : ConnectionId
  /-- Blocks that the peer takes at first. -/
  accepts : Option Nat
  point : StreamConnectionPoint
  deriving DecidableEq, Repr

/-- A bench and the streaming connections that came to it. -/
structure StreamServer (β δ : Type) where
  bench : Bench β δ
  /-- All streaming connections so far, numbered from zero. -/
  connections : List StreamConnection

inductive StreamConnectionStep
  | register
  /-- Write the greeting, unless the peer is gone already. -/
  | greet (arrives : Bool)
  /-- The peer goes away, or a shutdown is requested. -/
  | leave
  | detach
  deriving DecidableEq, Repr

/-- One step of someone in a streaming server. -/
inductive StreamServerAct (β δ : Type)
  /-- Someone other than a streaming connection acts at the bench. -/
  | bench (act : Act β δ)
  /-- A streaming connection is accepted. -/
  | arrive (id : ConnectionId) (accepts : Option Nat)
  | connection (number : Nat) (step : StreamConnectionStep)

def Act.registers : Act β δ → Bool
  | register .. => true
  | _ => false

def Act.takes? : Act β δ → Option ConnectionId
  | caller _ (.start id .taking) => some id
  | _ => none

def StreamServerAct.takes? : StreamServerAct β δ → Option ConnectionId
  | bench act => act.takes?
  | _ => none

/-- One step of a streaming connection, if it is the next one. -/
def StreamConnection.step (setup : Setup β δ) (v : StreamConnection) (b : Bench β δ) :
    StreamConnectionStep → Option (StreamConnectionPoint × Bench β δ)
  | .register =>
      if v.point = .arriving then
        (b.step setup (.register v.id (.fresh v.accepts))).map fun next =>
          (.greeting b.instrument.session.sinks.length, next)
      else none
  | .greet arrives =>
      match v.point with
      | .greeting sink =>
          some (if arrives then
            (.reading sink, b.on fun x => x.modifySink sink fun s => s.write v.id.helloBytes)
          else (.departing, b))
      | _ => none
  | .leave =>
      match v.point with
      | .reading _ => some (.departing, b)
      | _ => none
  | .detach =>
      if v.point = .departing then
        (b.step setup (.call (.detach v.id .removing))).map fun next => (.gone, next)
      else none

namespace StreamServer

def fresh (board : β) (dma : δ) : StreamServer β δ := ⟨.fresh board dma, []⟩

def step (setup : Setup β δ) (server : StreamServer β δ) :
    StreamServerAct β δ → Option (StreamServer β δ)
  | .bench act =>
      if act.registers then none
      else (server.bench.step setup act).map fun bench => { server with bench := bench }
  | .arrive id accepts =>
      some { server with connections := server.connections ++ [⟨id, accepts, .arriving⟩] }
  | .connection number step =>
      server.connections[number]?.bind fun v =>
        (v.step setup server.bench step).map fun next =>
          ⟨next.2, server.connections.set number { v with point := next.1 }⟩

def run (setup : Setup β δ) :
    List (StreamServerAct β δ) → StreamServer β δ → Option (StreamServer β δ)
  | [], server => some server
  | act :: acts, server => (server.step setup act).bind (run setup acts)

end StreamServer

end DaqServer
