import DaqServer.Stream.Ring
import DaqServer.Stream.Sink
import DaqServer.Connection

/-!
# Streaming runs

A run is one streaming session with its two threads. The worker moves slots of the DMA engine into
the ring, the logger sends the blocks of the ring to the sink. A point tells which atomic step a
thread takes next.
-/

namespace DaqServer

/-- What the threads of a run and its callers share. -/
structure RunFlags where
  /-- The worker has to end. -/
  terminate : Bool
  /-- The logger has to end. -/
  loggerTerminate : Bool
  /-- Blocks sent so far. -/
  blocksSent : Nat
  deriving DecidableEq, Repr

/-- Where the worker stands. The lists hold the slots of the engine that are still to be moved, the
current one first. -/
inductive WorkerPoint
  /-- About to start the logger. -/
  | launching
  /-- About to look at the termination flag before asking for slots. -/
  | checking
  /-- About to ask the engine for filled slots. -/
  | querying
  /-- Waiting for the interrupt of the engine. -/
  | waiting
  /-- About to look at the termination flag before moving a slot. -/
  | offering (slots : List Nat)
  /-- About to take a permit of the ring. -/
  | claiming (slots : List Nat)
  /-- About to copy the slot into the ring. -/
  | filling (slots : List Nat)
  /-- About to return the permit after the copy failed. -/
  | returning
  /-- About to hand the block to the logger. -/
  | publishing (slots : List Nat)
  /-- About to hand the slot back to the engine. -/
  | releasing (slots : List Nat)
  /-- About to tell both threads to end. -/
  | ending
  /-- Waiting for the logger to end. -/
  | joining
  /-- About to disable the trigger. -/
  | idling
  /-- About to stop the engine. -/
  | stopping
  /-- About to close the sink. -/
  | closing
  /-- About to give up the ADC. -/
  | yielding
  | finished
  deriving DecidableEq, Repr

inductive LoggerPoint
  /-- About to look at its termination flag. -/
  | checking
  /-- About to take a permit of the ring. -/
  | taking
  /-- About to copy the slot out. -/
  | copying
  /-- About to send a block. -/
  | sending (block : Bytes)
  /-- About to tell the worker that the peer is gone. -/
  | failing
  /-- About to end the wait of the worker. -/
  | cancelling
  /-- About to hand the slot back to the worker. -/
  | releasing
  /-- About to count the block. -/
  | counting
  | finished
  deriving DecidableEq, Repr

structure Run where
  connection : ConnectionId
  sink : SinkId
  flags : RunFlags
  ring : Ring
  worker : WorkerPoint
  /-- The logger, once it was started. -/
  logger : Option LoggerPoint
  deriving DecidableEq, Repr

namespace Run

/-- A run whose worker is about to begin. -/
def fresh (connection : ConnectionId) (sink : SinkId) (ring : Ring) : Run where
  connection := connection
  sink := sink
  flags := ⟨false, false, 0⟩
  ring := ring
  worker := .launching
  logger := none

def terminate (r : Run) : Run := { r with flags := { r.flags with terminate := true } }

def isFinished (r : Run) : Bool := r.worker == .finished

end Run

end DaqServer
