import DaqServer.Daemon.Basic

/-!
# The action queue in concurrent use

Every control connection has a reader that, once its client is greeted, frames what arrives and puts
it into the queue, and one consumer answers what the queue holds. An action server is an instrument
with its queue and everyone at work on it; an act is one step of one of them. The consumer carries
out the items of a request one by one, so that whoever else uses the instrument may do so in
between.
-/

namespace DaqServer

variable {β δ : Type}

def Action.ofFrame (recipient : Recipient) : Except FramingError Message → Action
  | .ok request => .execute recipient request
  | .error e => .deliver recipient (.error .framing e.message)

theorem Daemon.actionOf_eq (client : ControlClient) :
    actionOf client = Action.ofFrame ⟨client.id, client.isOpen⟩ := by
  funext result
  cases result <;> rfl

inductive ReaderPoint
  /-- About to look whether a shutdown is requested. -/
  | looking
  | reading
  /-- About to ask the framer. -/
  | framing
  /-- About to put into the queue what the framer handed out. -/
  | queueing (result : Except FramingError Message)
  /-- Nothing is read any more. -/
  | left

structure ControlReader where
  framer : Framer
  point : ReaderPoint

/-- What the consumer does to the sink of a connection. -/
inductive SinkCall
  | send (connection : ConnectionId) (reply : Message)
  | close (connection : ConnectionId)

inductive ConsumerPoint
  /-- About to take an entry out of the queue. -/
  | waiting
  /-- In a request; the next item to carry out is the first of the rest. -/
  | executing (recipient : Recipient) (request : Message) (done rest : List Item)
  | sending (dispatch : Dispatch)
  /-- About to close a connection that a reply could not be sent to. -/
  | closing (connection : ConnectionId)
  /-- About to drop the queue. -/
  | leaving
  | gone

/-- Where the consumer stands with an entry that it has just taken. -/
def ConsumerPoint.take : Action → ConsumerPoint
  | .close => leaving
  | .deliver recipient reply => sending ⟨recipient, reply⟩
  | .execute recipient request =>
      match request.kind with
      | .query | .config => executing recipient request [] request.items
      | kind => sending ⟨recipient, .unexpected kind⟩

/-- The reply to a request whose items were carried out as far as they were. -/
def Message.replyWith (m : Message) (items : List Item) : Message :=
  { { m with items := items }.toReply with items := items ++ diagnosticsOf items }

/-- An instrument, the queue of requests for it, and everyone at work on them. -/
structure ActionServer (β δ : Type) where
  instrument : Instrument β δ
  queue : ActionQueue
  consumer : ConsumerPoint
  readers : ConnectionId → ControlReader
  /-- The entries that the queue accepted, oldest first. -/
  entered : List Action
  /-- What the consumer did to the sinks, oldest first. -/
  calls : List SinkCall

inductive ReaderStep
  /-- Look whether a shutdown is requested. -/
  | look
  | arrive (bytes : Bytes)
  /-- No bytes come for a while. -/
  | idle
  /-- The peer goes away. -/
  | hangUp
  /-- Ask the framer. -/
  | frame
  /-- Use the queue; sending the answer will succeed or not. -/
  | enter (reachable : Bool)

/-- One step of someone at an action server. -/
inductive ActionServerAct (β δ : Type)
  | reader (id : ConnectionId) (step : ReaderStep)
  /-- Someone else uses the queue. -/
  | push (action : Action)
  /-- The consumer takes its step. -/
  | consume
  /-- The threads of a session, or other users of the instrument, change it. -/
  | others (change : Instrument β δ → Instrument β δ)

namespace ActionServer

/-- An action server before the first connection; the readers hand out messages up to a limit. -/
def fresh (limit : Nat) (x : Instrument β δ) : ActionServer β δ where
  instrument := x
  queue := .empty
  consumer := .waiting
  readers _ := ⟨.empty limit, .looking⟩
  entered := []
  calls := []

def setReader (d : ActionServer β δ) (id : ConnectionId) (reader : ControlReader) :
    ActionServer β δ :=
  { d with readers := fun other => if other = id then reader else d.readers other }

def push (action : Action) (d : ActionServer β δ) : Bool × ActionServer β δ :=
  match d.queue.push action with
  | (true, queue) => (true, { d with queue := queue, entered := d.entered ++ [action] })
  | (false, queue) => (false, { d with queue := queue })

/-- One step of the consumer. -/
def consume (setup : Setup β δ) (d : ActionServer β δ) : Option (ActionServer β δ) :=
  match d.consumer with
  | .waiting =>
      match d.queue.waiting with
      | [] => none
      | action :: rest =>
          some { d with queue := { d.queue with waiting := rest }, consumer := .take action }
  | .executing recipient request done [] =>
      some { d with consumer := .sending ⟨recipient, request.replyWith done⟩ }
  | .executing recipient request done (item :: rest) =>
      match item.execute setup recipient.connection d.instrument with
      | ((.ok (), item), x) =>
          some { d with
            instrument := x, consumer := .executing recipient request (done ++ [item]) rest }
      | ((.error _, item), x) =>
          some { d with
            instrument := x, consumer := .executing recipient request (done ++ item :: rest) [] }
  | .sending dispatch =>
      some { d with
        calls := d.calls ++ [.send dispatch.recipient.connection dispatch.reply]
        consumer := if dispatch.recipient.reachable then .waiting
          else .closing dispatch.recipient.connection }
  | .closing connection =>
      some { d with calls := d.calls ++ [.close connection], consumer := .waiting }
  | .leaving => some { d with queue := ⟨[], false⟩, consumer := .gone }
  | .gone => none

/-- One step of the reader of a connection, if it is the next one. -/
def readerStep (d : ActionServer β δ) (id : ConnectionId) :
    ReaderStep → ReaderPoint → Option (ActionServer β δ)
  | .look, .looking =>
      let next := if d.instrument.shutdown.requested then .left else .reading
      some (d.setReader id ⟨(d.readers id).framer, next⟩)
  | .arrive bytes, .reading =>
      some (d.setReader id ⟨(d.readers id).framer.extend bytes, .framing⟩)
  | .idle, .reading => some (d.setReader id ⟨(d.readers id).framer, .looking⟩)
  | .hangUp, .reading => some (d.setReader id ⟨(d.readers id).framer, .left⟩)
  | .frame, .framing =>
      match (d.readers id).framer.next with
      | (some result, framer) => some (d.setReader id ⟨framer, .queueing result⟩)
      | (none, framer) => some (d.setReader id ⟨framer, .looking⟩)
  | .enter reachable, .queueing result =>
      match d.push (.ofFrame ⟨id, reachable⟩ result) with
      | (true, d) => some (d.setReader id ⟨(d.readers id).framer, .framing⟩)
      | (false, d) => some (d.setReader id ⟨(d.readers id).framer, .left⟩)
  | _, _ => none

def step (setup : Setup β δ) (d : ActionServer β δ) :
    ActionServerAct β δ → Option (ActionServer β δ)
  | .reader id step => d.readerStep id step (d.readers id).point
  | .push action => some (d.push action).2
  | .consume => d.consume setup
  | .others change => some { d with instrument := change d.instrument }

def run (setup : Setup β δ) :
    List (ActionServerAct β δ) → ActionServer β δ → Option (ActionServer β δ)
  | [], d => some d
  | act :: acts, d => (d.step setup act).bind (run setup acts)

end ActionServer

end DaqServer
