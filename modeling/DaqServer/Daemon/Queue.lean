import DaqServer.Message.Executor

/-!
# The action queue

All connections put their requests into one queue, and one consumer takes them out in that order, so
that requests of different clients never mix on the board. An entry that closes the queue ends the
consumer: what stands behind it is never handled, and nothing is accepted any more.
-/

namespace DaqServer

variable {β δ : Type}

/-- Where a reply goes. -/
structure Recipient where
  connection : ConnectionId
  /-- Whether sending to it succeeds. -/
  reachable : Bool
  deriving DecidableEq, Repr

inductive Action
  /-- Execute a request and send the reply. -/
  | execute (recipient : Recipient) (request : Message)
  /-- Send a message as it is, in its turn. -/
  | deliver (recipient : Recipient) (reply : Message)
  /-- End the consumer. -/
  | close

def Action.isClose : Action → Bool
  | close => true
  | _ => false

/-- One attempt to send a reply. If it fails the connection is closed. -/
structure Dispatch where
  recipient : Recipient
  reply : Message

/-- Handle entries in order up to the first that closes the queue. -/
def handleActions (setup : Setup β δ) :
    List Action → Instrument β δ → List Dispatch × Instrument β δ
  | [], x => ([], x)
  | .close :: _, x => ([], x)
  | .execute recipient request :: rest, x =>
      let (reply, x) := request.execute setup recipient.connection x
      let (dispatches, x) := handleActions setup rest x
      (⟨recipient, reply⟩ :: dispatches, x)
  | .deliver recipient reply :: rest, x =>
      let (dispatches, x) := handleActions setup rest x
      (⟨recipient, reply⟩ :: dispatches, x)

structure ActionQueue where
  /-- Entries that were not handled yet, oldest first. -/
  waiting : List Action
  /-- Whether the consumer is still there. -/
  accepting : Bool

namespace ActionQueue

def empty : ActionQueue := ⟨[], true⟩

/-- Put an entry into the queue; tells whether it was accepted. -/
def push (q : ActionQueue) (a : Action) : Bool × ActionQueue :=
  if q.accepting then (true, { q with waiting := q.waiting ++ [a] }) else (false, q)

def serve (setup : Setup β δ) (q : ActionQueue) (x : Instrument β δ) :
    List Dispatch × ActionQueue × Instrument β δ :=
  let (dispatches, x) := handleActions setup q.waiting x
  (dispatches, ⟨[], q.accepting && !q.waiting.any Action.isClose⟩, x)

end ActionQueue

end DaqServer
