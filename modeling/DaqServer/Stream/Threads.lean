import DaqServer.Instrument

/-!
# The threads of a run

`workerStep` and `loggerStep` take one atomic step of a thread. They give nothing when there is no
such thread, when it has finished, or when it waits for something that has not happened. A thread
whose permit is not available looks at its flag again, which is what it does after each timed wait.
-/

namespace DaqServer

variable {β δ : Type}

/-- The slots of an engine with `slots` slots that are ready, oldest first. -/
def DmaReady.slots (ready : DmaReady) (slots : Nat) : List Nat :=
  (List.range ready.count).map fun i => (ready.first + i) % max slots 1

def WorkerPoint.next : List Nat → WorkerPoint
  | [] => .checking
  | slots => .offering slots

def Run.workerStep (setup : Setup β δ) (run : Run) (x : Instrument β δ) :
    Option (Instrument β δ) :=
  let goTo (point : WorkerPoint) : Instrument β δ := x.setRun { run with worker := point }
  match run.worker with
  | .launching => some (x.setRun { run with worker := .checking, logger := some .checking })
  | .checking => some (goTo (if run.flags.terminate then .ending else .querying))
  | .querying =>
      let (result, dma) := setup.dma.ready x.dma
      let point := match result with
        | .error _ => .ending
        | .ok ready =>
            if ready.count = 0 then .waiting else .offering (ready.slots setup.dma.slots)
      some { goTo point with dma := dma }
  | .waiting =>
      match setup.dma.wait x.dma with
      | none => none
      | some (result, dma) =>
          let point := match result with
            | .ok .fired => .checking
            | _ => .ending
          some { goTo point with dma := dma }
  | .offering slots => some (goTo (if run.flags.terminate then .ending else .claiming slots))
  | .claiming slots =>
      match run.ring.takeEmpty with
      | none => some (goTo (.offering slots))
      | some ring => some (x.setRun { run with ring := ring, worker := .filling slots })
  | .filling slots =>
      let (result, dma) := setup.dma.copySlot (slots.headD 0) run.ring.slotBytes x.dma
      let run := match result with
        | .error _ => { run with worker := .returning }
        | .ok block => { run with ring := run.ring.fill block, worker := .publishing slots }
      some { x.setRun run with dma := dma }
  | .returning => some (x.setRun { run with ring := run.ring.giveBack, worker := .ending })
  | .publishing slots =>
      some (x.setRun { run with ring := run.ring.publish, worker := .releasing slots })
  | .releasing slots =>
      let (result, dma) := setup.dma.release 1 x.dma
      let point := match result with
        | .error _ => .ending
        | .ok () => .next slots.tail
      some { goTo point with dma := dma }
  | .ending =>
      let flags := { run.flags with terminate := true, loggerTerminate := true }
      some (x.setRun { run with flags := flags, worker := .joining })
  | .joining =>
      match run.logger with
      | none | some .finished => some (goTo .idling)
      | _ => none
  | .idling =>
      let (_, board) := setup.port.write Register.trigger Trigger.disabled x.board
      some { goTo .stopping with board := board }
  | .stopping =>
      let (_, dma) := setup.dma.stop x.dma
      some { goTo .closing with dma := dma }
  | .closing =>
      some (if run.logger.isSome then (goTo .yielding).modifySink run.sink Sink.close
        else goTo .yielding)
  | .yielding => some { goTo .finished with arbiter := x.arbiter.releaseStream run.connection }
  | .finished => none

def Run.loggerStep (setup : Setup β δ) (run : Run) (x : Instrument β δ) :
    Option (Instrument β δ) :=
  let goTo (point : LoggerPoint) : Instrument β δ := x.setRun { run with logger := some point }
  match run.logger with
  | none => none
  | some .checking => some (goTo (if run.flags.loggerTerminate then .finished else .taking))
  | some .taking =>
      match run.ring.takeFull with
      | none => some (goTo .checking)
      | some ring => some (x.setRun { run with ring := ring, logger := some .copying })
  | some .copying => some (goTo (.sending run.ring.readSlot))
  | some (.sending block) =>
      match (x.session.sinks[run.sink]?).bind (·.send block) with
      | none => some (goTo .failing)
      | some sink => some ((goTo .releasing).modifySink run.sink fun _ => sink)
  | some .failing => some (x.setRun { run.terminate with logger := some .cancelling })
  | some .cancelling => some { goTo .finished with dma := setup.dma.cancel x.dma }
  | some .releasing =>
      some (x.setRun { run with ring := run.ring.release, logger := some .counting })
  | some .counting =>
      let flags := { run.flags with blocksSent := run.flags.blocksSent + 1 }
      some (x.setRun { run with flags := flags, logger := some .checking })
  | some .finished => none

namespace Instrument

def workerStep (setup : Setup β δ) (x : Instrument β δ) : Option (Instrument β δ) :=
  x.session.run.bind fun run => run.workerStep setup x

def loggerStep (setup : Setup β δ) (x : Instrument β δ) : Option (Instrument β δ) :=
  x.session.run.bind fun run => run.loggerStep setup x

def turn (setup : Setup β δ) (x : Instrument β δ) : Instrument β δ :=
  let x := (x.workerStep setup).getD x
  (x.loggerStep setup).getD x

/-- Let the threads take turns until a goal is reached, for at most `turns` turns. -/
def advance (setup : Setup β δ) (goal : Instrument β δ → Bool) :
    (turns : Nat) → Instrument β δ → Instrument β δ
  | 0, x => x
  | turns + 1, x => if goal x then x else advance setup goal turns (x.turn setup)

def isJoined (x : Instrument β δ) : Bool := x.session.run.all Run.isFinished

end Instrument

end DaqServer
