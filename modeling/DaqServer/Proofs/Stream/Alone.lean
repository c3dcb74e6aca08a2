import DaqServer.Proofs.Board.Access
import DaqServer.Proofs.Stream.Custody
import Mathlib.Logic.Relation

/-!
# Calls that nobody interrupts

A call that takes its steps one right after the other does what the control of the session says of
it as a whole: `startStream`, `stopStream`, `deregisterEndpoint` and `shutdownStream` are the calls
of a bench where everyone else waits. The steps of such a call are a run of the bench, whatever
calls were made before it.
-/

namespace DaqServer

namespace Bench

variable {β δ : Type} {setup : Setup β δ} {b : Bench β δ} {id : ConnectionId}

open Relation (ReflTransGen)

def Goes (setup : Setup β δ) (s t : Call × Bench β δ) : Prop := s.1.step setup s.2 = some t

/-- A call goes from one point to its end, with a certain instrument afterwards. -/
def Ends (setup : Setup β δ) (call : Call) (b : Bench β δ) (call' : Call) (x : Instrument β δ) :
    Prop :=
  ∃ b', ReflTransGen (Goes setup) (call, b) (call', b') ∧ b'.calls = b.calls ∧ b'.instrument = x

def failure? : Except AcquisitionError Unit → Option AcquisitionError
  | .error e => some e
  | .ok () => none

variable {call call' call'' : Call} {b' : Bench β δ} {x : Instrument β δ} {sink : SinkId}
  {cause : AcquisitionError}

theorem Ends.of_step (h : call.step setup b = some (call', b')) (hcalls : b'.calls = b.calls)
    (hends : Ends setup call' b' call'' x) : Ends setup call b call'' x := by
  obtain ⟨last, hgoes, hlast, hx⟩ := hends
  exact ⟨last, .head h hgoes, hlast.trans hcalls, hx⟩

theorem ends_refl (call : Call) (b : Bench β δ) : Ends setup call b call b.instrument :=
  ⟨b, .refl, rfl, rfl⟩

theorem yielding_ends (b : Bench β δ) :
    Ends setup (.start id (.yielding cause)) b (.start id (.returned (some cause)))
      { b.instrument with arbiter := b.instrument.arbiter.releaseStream id } :=
  .of_step rfl rfl (ends_refl _ _)

/-- A start whose engine cannot be set going gives the sink and the ADC back. -/
theorem restoring_ends (b : Bench β δ) :
    Ends setup (.start id (.restoring sink cause)) b (.start id (.returned (some cause)))
      { b.instrument.insertEndpoint id sink with
        arbiter := b.instrument.arbiter.releaseStream id } :=
  .of_step rfl rfl (yielding_ends _)

/-- A start that has the sink sets the engine going, or gives everything back. -/
theorem joining_ends (setup : Setup β δ) (id : ConnectionId) (sink : SinkId) (b : Bench β δ)
    (hjoined : b.instrument.isJoined) :
    let ring := Ring.make setup.stream.ringSlots.toNat setup.stream.blockBytes
    match Instrument.startDma setup b.instrument.dma with
    | (.error e, dma) =>
        Ends setup (.start id (.joining sink)) b (.start id (.returned (some (.board e))))
          { b.instrument.insertEndpoint id sink with
            dma := dma
            arbiter := b.instrument.arbiter.releaseStream id }
    | (.ok (), dma) =>
        Ends setup (.start id (.joining sink)) b (.start id (.returned none))
          { b.instrument.setRun (.fresh id sink ring) with dma := dma } := by
  have hjoin : (Call.start id (.joining sink)).step setup b =
      some (.start id (.configuring sink), { b with joinable := false }) := by
    simp [Call.step, StartPoint.step, hjoined]
  rw [Instrument.startDma]
  rcases hconfigure : setup.dma.configure setup.stream.blockBytes b.instrument.dma with
    ⟨e | ⟨⟩, dma⟩
  · have hstep : (Call.start id (.configuring sink)).step setup { b with joinable := false } =
        some (.start id (.restoring sink (.board e)),
          { b with joinable := false, instrument := { b.instrument with dma := dma } }) := by
      simp [Call.step, StartPoint.step, onDma, Instrument.onDma, hconfigure]
    rw [bind_of_error hconfigure]
    exact .of_step hjoin rfl (.of_step hstep rfl (restoring_ends _))
  · have hstep : (Call.start id (.configuring sink)).step setup { b with joinable := false } =
        some (.start id (.igniting sink),
          { b with joinable := false, instrument := { b.instrument with dma := dma } }) := by
      simp [Call.step, StartPoint.step, onDma, Instrument.onDma, hconfigure]
    rw [bind_of_ok hconfigure]
    rcases hstart : setup.dma.start dma with ⟨e | ⟨⟩, dma'⟩
    · have hstep' : (Call.start id (.igniting sink)).step setup
          { b with joinable := false, instrument := { b.instrument with dma := dma } } =
            some (.start id (.restoring sink (.board e)),
              { b with joinable := false, instrument := { b.instrument with dma := dma' } }) := by
        simp [Call.step, StartPoint.step, onDma, Instrument.onDma, hstart]
      exact .of_step hjoin rfl (.of_step hstep rfl (.of_step hstep' rfl (restoring_ends _)))
    · have hstep' : (Call.start id (.igniting sink)).step setup
          { b with joinable := false, instrument := { b.instrument with dma := dma } } =
            some (.start id (.spawning sink),
              { b with joinable := false, instrument := { b.instrument with dma := dma' } }) := by
        simp [Call.step, StartPoint.step, onDma, Instrument.onDma, hstart]
      exact .of_step hjoin rfl (.of_step hstep rfl (.of_step hstep' rfl
        (.of_step rfl rfl (ends_refl _ _))))

/-- A start is `startStream`, if the worker of the last run has finished when the ADC is free. -/
theorem start_ends (hlock : b.locked = false)
    (hjoined : b.instrument.arbiter.owner = none → b.instrument.isJoined) :
    Ends setup (.start id .arriving) b
      (.start id (.returned (failure? (b.instrument.startStream setup id).1)))
      (b.instrument.startStream setup id).2 := by
  have harrive : (Call.start id .arriving).step setup b = some (.start id .claiming, b) := by
    simp [Call.step, StartPoint.step, hlock]
  refine .of_step harrive rfl ?_
  rw [Instrument.startStream]
  rcases hclaim : b.instrument.arbiter.claimStream id with e | held
  · have hstep : (Call.start id .claiming).step setup b =
        some (.start id (.returned (some e)), b) := by
      simp [Call.step, StartPoint.step, hclaim]
    exact .of_step hstep rfl (ends_refl _ _)
  · have hstep : (Call.start id .claiming).step setup b =
        some (.start id .taking, b.on fun x => { x with arbiter := held }) := by
      simp [Call.step, StartPoint.step, hclaim]
    refine .of_step hstep rfl ?_
    have hsame : (b.on fun x => { x with arbiter := held }).instrument.endpoint? id =
        b.instrument.endpoint? id := rfl
    rcases hsink : b.instrument.endpoint? id with _ | sink
    · have htake : (Call.start id .taking).step setup (b.on fun x => { x with arbiter := held }) =
          some (.start id (.yielding (.notConnected id)),
            b.on fun x => { x with arbiter := held }) := by
        simp [Call.step, StartPoint.step, hsame, hsink]
      exact .of_step htake rfl (yielding_ends _)
    · have htake : (Call.start id .taking).step setup (b.on fun x => { x with arbiter := held }) =
          some (.start id (.joining sink),
            b.on fun x => { x.removeEndpoint id with arbiter := held }) := by
        simp only [Call.step, StartPoint.step, hsame, hsink]
        rfl
      have hfree := (Arbiter.eq_of_claimStream hclaim).1
      have hends := joining_ends setup id sink
        (b.on fun x => { x.removeEndpoint id with arbiter := held }) (hjoined hfree)
      have hengine : (b.on fun x => { x.removeEndpoint id with arbiter := held }).instrument.dma =
          b.instrument.dma := rfl
      rw [hengine] at hends
      refine .of_step htake rfl ?_
      rcases hdma : Instrument.startDma setup b.instrument.dma with ⟨e | ⟨⟩, dma⟩ <;>
        rw [hdma] at hends <;> exact hends

theorem Ends.trans {y : Instrument β δ} (h : Ends setup call b call' x)
    (hrest : ∀ b', b'.calls = b.calls → b'.instrument = x → Ends setup call' b' call'' y) :
    Ends setup call b call'' y := by
  obtain ⟨b', hgoes, hcalls, hx⟩ := h
  obtain ⟨last, hgoes', hlast, hy⟩ := hrest b' hcalls hx
  exact ⟨last, hgoes.trans hgoes', hlast.trans hcalls, hy⟩

/-- A stop, by itself or as part of another call. -/
theorem stopping_ends (wrap : StopPoint → Call) (hlock : b.locked = false)
    (hwrap : ∀ point (b : Bench β δ) next, point.step setup b = some next →
      (wrap point).step setup b = some (wrap next.1, next.2)) :
    Ends setup (wrap .arriving) b (wrap (.returned (b.instrument.stopStream setup).1))
      (b.instrument.stopStream setup).2 := by
  have harrive : StopPoint.arriving.step setup b = some (.looking, b) := by
    simp [StopPoint.step, hlock]
  refine .of_step (hwrap _ _ _ harrive) rfl (.of_step (hwrap .looking _ _ rfl) rfl ?_)
  rcases hrun : b.instrument.session.run with _ | run
  · have hflag : (StopPoint.flagging b.instrument.arbiter.streamingOwner.isSome).step setup b =
        some (.returned b.instrument.arbiter.streamingOwner.isSome, b) := by
      simp [StopPoint.step, hrun]
    have hstop : (b.instrument.stopStream setup).2 = b.instrument := by
      rw [Instrument.stopStream, Instrument.requestStop, hrun]
    rw [hstop]
    exact .of_step (hwrap _ _ _ hflag) rfl (ends_refl _ _)
  · have hflag : (StopPoint.flagging b.instrument.arbiter.streamingOwner.isSome).step setup b =
        some (.cancelling b.instrument.arbiter.streamingOwner.isSome,
          b.on fun x => x.setRun run.terminate) := by
      simp [StopPoint.step, hrun]
    have hstop : (b.instrument.stopStream setup).2 =
        { b.instrument.setRun run.terminate with dma := setup.dma.cancel b.instrument.dma } := by
      rw [Instrument.stopStream, Instrument.requestStop, hrun]
    rw [hstop]
    exact .of_step (hwrap _ _ _ hflag) rfl
      (.of_step (hwrap (.cancelling _) _ _ rfl) rfl (ends_refl _ _))

theorem stop_ends (hlock : b.locked = false) :
    Ends setup (.stop .arriving) b (.stop (.returned (b.instrument.stopStream setup).1))
      (b.instrument.stopStream setup).2 :=
  stopping_ends .stop hlock fun point b next h => by rw [Call.step, h]; rfl

theorem detach_ends (hlock : b.locked = false) :
    ∃ point, (Call.detach id point).hasReturned = true ∧
      Ends setup (.detach id .removing) b (.detach id point)
        (b.instrument.deregisterEndpoint setup id) := by
  have hchecking : ∀ x : Bench β δ, x.calls = b.calls → ∃ point,
      (Call.detach id point).hasReturned = true ∧
      Ends setup (.detach id .checking) x (.detach id point)
        (if x.instrument.arbiter.streamingOwner = some id then (x.instrument.stopStream setup).2
          else x.instrument) := by
    intro x hcalls
    split
    · rename_i howner
      have hlook : (Call.detach id .checking).step setup x =
          some (.detach id (.stopping .arriving), x) := by
        simp [Call.step, DetachPoint.step, howner]
      refine ⟨.stopping (.returned _), rfl,
        .of_step hlook rfl (stopping_ends (fun point => .detach id (.stopping point)) ?_ ?_)⟩
      · rw [locked, hcalls]
        exact hlock
      · intro point b next h
        rw [Call.step, DetachPoint.step, h]
        rfl
    · rename_i howner
      have hlook : (Call.detach id .checking).step setup x = some (.detach id .returned, x) := by
        simp [Call.step, DetachPoint.step, howner]
      exact ⟨.returned, rfl, .of_step hlook rfl (ends_refl _ _)⟩
  rw [Instrument.deregisterEndpoint, Instrument.dropEndpoint]
  rcases hsink : b.instrument.endpoint? id with _ | sink
  · have hremove : (Call.detach id .removing).step setup b = some (.detach id .checking, b) := by
      simp [Call.step, DetachPoint.step, hlock, hsink]
    obtain ⟨point, hover, hends⟩ := hchecking b rfl
    exact ⟨point, hover, .of_step hremove rfl hends⟩
  · have hremove : (Call.detach id .removing).step setup b =
        some (.detach id (.closing sink), b.on (Instrument.removeEndpoint id)) := by
      simp [Call.step, DetachPoint.step, hlock, hsink]
    obtain ⟨point, hover, hends⟩ := hchecking
      ((b.on (Instrument.removeEndpoint id)).on fun x => x.modifySink sink Sink.close) rfl
    exact ⟨point, hover, .of_step hremove rfl (.of_step rfl rfl hends)⟩

theorem closing_ends (sinks : List SinkId) (b : Bench β δ) :
    Ends setup (.close (.closing sinks)) b (.close .returned)
      (sinks.foldl (fun x sink => x.modifySink sink Sink.close) b.instrument) := by
  induction sinks generalizing b with
  | nil => exact .of_step rfl rfl (ends_refl _ _)
  | cons sink sinks ih => exact .of_step rfl rfl (ih _)

/-- The sinks can be taken before they are closed. -/
theorem foldl_close_endpoints (endpoints : List (ConnectionId × SinkId)) (x : Instrument β δ) :
    (endpoints.map Prod.snd).foldl (fun x sink => x.modifySink sink Sink.close)
        { x with session := { x.session with endpoints := [] } } =
      let closed := endpoints.foldl (fun x e => x.modifySink e.2 Sink.close) x
      { closed with session := { closed.session with endpoints := [] } } := by
  induction endpoints generalizing x with
  | nil => rfl
  | cons endpoint endpoints ih => exact ih (x.modifySink endpoint.2 Sink.close)

theorem close_ends (hlock : b.locked = false) :
    Ends setup (.close (.stopping .arriving)) b (.close .returned)
      (b.instrument.shutdownStream setup) := by
  have hstop : Ends setup (.close (.stopping .arriving)) b _ _ :=
    stopping_ends (fun point => .close (.stopping point)) hlock fun point b next h => by
      cases point with
      | returned active => exact absurd h nofun
      | _ =>
        simp only [Call.step, ClosePoint.step, h]
        rfl
  refine hstop.trans fun x hcalls hx => ?_
  have hdrain : (Call.close .draining).step setup x =
      some (.close (.closing (x.instrument.session.endpoints.map Prod.snd)),
        x.on fun x => { x with session := { x.session with endpoints := [] } }) := by
    have hfree : x.locked = false := by rw [locked, hcalls]; exact hlock
    simp [Call.step, ClosePoint.step, hfree]
  rw [Instrument.shutdownStream, ← foldl_close_endpoints, ← hx]
  exact .of_step rfl rfl (.of_step hdrain rfl (closing_ends _ _))

/-- A call that waits for the last worker returns when that has finished. -/
theorem join_ends (hlock : b.locked = false) (hjoined : b.instrument.isJoined = true) :
    Ends setup (.join .taking) b (.join .returned) b.instrument := by
  cases hhandle : b.joinable with
  | false =>
      have htake : (Call.join .taking).step setup b = some (.join .returned, b) := by
        simp [Call.step, JoinPoint.step, hlock, hhandle]
      exact .of_step htake rfl (ends_refl _ _)
  | true =>
      have htake : (Call.join .taking).step setup b =
          some (.join (.waiting b.earlier.length), { b with joinable := false }) := by
        simp [Call.step, JoinPoint.step, hlock, hhandle]
      have hended : ((({ b with joinable := false } : Bench β δ).runs)[b.earlier.length]?).all
          Run.isFinished = true := by
        rw [runs, List.getElem?_append_right le_rfl, Nat.sub_self]
        rw [Instrument.isJoined] at hjoined
        cases hrun : b.instrument.session.run with
        | none => rfl
        | some run => rwa [hrun] at hjoined
      have hwait : (Call.join (.waiting b.earlier.length)).step setup { b with joinable := false } =
          some (.join .returned, { b with joinable := false }) := by
        rw [Call.step, JoinPoint.step, if_pos hended]
        rfl
      exact .of_step htake rfl (.of_step hwait rfl (ends_refl _ _))

/-! ### Calls among others -/

/-- A stop looks at other calls only to see whether one is inside the lock. -/
theorem stopPoint_step_calls {calls : List Call} (point : StopPoint)
    (hlock : point.inside = true ∨ calls.any Call.inside = b.locked) :
    point.step setup { b with calls := calls } =
      (point.step setup b).map fun next => (next.1, { next.2 with calls := calls }) := by
  cases point with
  | arriving =>
      have hsame : ({ b with calls := calls } : Bench β δ).locked = b.locked :=
        hlock.resolve_left (by simp [StopPoint.inside])
      simp only [StopPoint.step, hsame]
      split <;> rfl
  | flagging active =>
      simp only [StopPoint.step]
      split <;> rfl
  | looking | cancelling | returned => rfl

theorem startPoint_step_calls {calls : List Call} (point : StartPoint)
    (hlock : point.inside = true ∨ calls.any Call.inside = b.locked) :
    point.step setup id { b with calls := calls } =
      (point.step setup id b).map fun next => (next.1, { next.2 with calls := calls }) := by
  cases point with
  | arriving =>
      have hsame : ({ b with calls := calls } : Bench β δ).locked = b.locked :=
        hlock.resolve_left (by simp [StartPoint.inside])
      simp only [StartPoint.step, hsame]
      split <;> rfl
  | claiming | taking | joining =>
      simp only [StartPoint.step]
      split <;> rfl
  | configuring | igniting =>
      simp only [StartPoint.step, onDma]
      split <;> rename_i heq <;> obtain ⟨h, rfl⟩ := Prod.mk.inj heq <;> rw [h] <;> rfl
  | _ => rfl

theorem detachPoint_step_calls {calls : List Call} (point : DetachPoint)
    (hlock : (Call.detach id point).inside = true ∨ calls.any Call.inside = b.locked) :
    point.step setup id { b with calls := calls } =
      (point.step setup id b).map fun next => (next.1, { next.2 with calls := calls }) := by
  cases point with
  | removing =>
      have hsame : ({ b with calls := calls } : Bench β δ).locked = b.locked :=
        hlock.resolve_left (by simp [Call.inside])
      simp only [DetachPoint.step, hsame]
      split
      · rfl
      · split <;> rfl
  | checking =>
      simp only [DetachPoint.step]
      split <;> rfl
  | stopping point =>
      rw [DetachPoint.step, DetachPoint.step, stopPoint_step_calls point hlock, Option.map_map,
        Option.map_map]
      rfl
  | closing | returned => rfl

theorem closePoint_step_calls {calls : List Call} (point : ClosePoint)
    (hlock : (Call.close point).inside = true ∨ calls.any Call.inside = b.locked) :
    point.step setup { b with calls := calls } =
      (point.step setup b).map fun next => (next.1, { next.2 with calls := calls }) := by
  cases point with
  | stopping point =>
      have hstop : point.step setup { b with calls := calls } = _ :=
        stopPoint_step_calls point hlock
      cases point with
      | returned => rfl
      | _ =>
        simp only [ClosePoint.step]
        rw [hstop, Option.map_map, Option.map_map]
        rfl
  | draining =>
      have hsame : ({ b with calls := calls } : Bench β δ).locked = b.locked :=
        hlock.resolve_left (by simp [Call.inside])
      simp only [ClosePoint.step, hsame]
      split <;> rfl
  | closing sinks => cases sinks <;> rfl
  | returned => rfl

theorem joinPoint_step_calls {calls : List Call} (point : JoinPoint)
    (hlock : calls.any Call.inside = b.locked) :
    point.step { b with calls := calls } =
      (point.step b).map fun next => (next.1, { next.2 with calls := calls }) := by
  have hsame : ({ b with calls := calls } : Bench β δ).locked = b.locked := hlock
  cases point with
  | taking =>
      simp only [JoinPoint.step, hsame]
      split
      · rfl
      · split <;> rfl
  | waiting run =>
      simp only [JoinPoint.step]
      change (if (b.runs[run]?).all Run.isFinished = true then _ else _) = _
      split <;> rfl
  | returned => rfl

/-- A call looks at other calls only to see whether one is inside the lock. -/
theorem call_step_calls {calls : List Call}
    (hlock : call.inside = true ∨ calls.any Call.inside = b.locked) :
    call.step setup { b with calls := calls } =
      (call.step setup b).map fun next => (next.1, { next.2 with calls := calls }) := by
  cases call with
  | start id point =>
      rw [Call.step, Call.step, startPoint_step_calls point hlock, Option.map_map, Option.map_map]
      rfl
  | stop point =>
      rw [Call.step, Call.step, stopPoint_step_calls point hlock, Option.map_map, Option.map_map]
      rfl
  | detach id point =>
      rw [Call.step, Call.step, detachPoint_step_calls point hlock, Option.map_map, Option.map_map]
      rfl
  | close point =>
      rw [Call.step, Call.step, closePoint_step_calls point hlock, Option.map_map, Option.map_map]
      rfl
  | join point =>
      have hfree : calls.any Call.inside = b.locked := hlock.resolve_left (by simp [Call.inside])
      rw [Call.step, Call.step, joinPoint_step_calls point hfree, Option.map_map, Option.map_map]
      rfl

/-- A call that goes on alone does so after the calls that were made before it. -/
theorem run_of_goes {calls : List Call} (hfree : calls.any Call.inside = false)
    {s t : Call × Bench β δ} (h : ReflTransGen (Goes setup) s t) (hs : s.2.calls = calls) :
    t.2.calls = calls ∧ ∃ steps : List Call,
      run setup (steps.map (.caller calls.length)) { s.2 with calls := calls ++ [s.1] } =
        some { t.2 with calls := calls ++ [t.1] } := by
  induction h using ReflTransGen.head_induction_on with
  | refl => exact ⟨hs, [], rfl⟩
  | @head s m hgoes _ ih =>
      obtain ⟨hcalls, steps, hsteps⟩ := ih ((calls_of_call hgoes).trans hs)
      refine ⟨hcalls, s.1 :: steps, ?_⟩
      have hlock : s.1.inside = true ∨ (calls ++ [s.1]).any Call.inside = s.2.locked := by
        rw [List.any_append, hfree, locked, hs, hfree]
        cases hinside : s.1.inside with
        | true => exact .inl rfl
        | false => exact .inr (by simp [hinside])
      have hstep : s.1.step setup { s.2 with calls := calls ++ [s.1] } = _ := call_step_calls hlock
      have hcall : (calls ++ [s.1])[calls.length]? = some s.1 := List.getElem?_concat_length
      rw [show s.1.step setup s.2 = some m from hgoes] at hstep
      rw [List.map_cons, run, step, if_pos hcall, hstep, Option.map_some, Option.map_some,
        Option.bind_some, ← hsteps]
      simp

/-! ### Threads -/

theorem step_worker (h : b.instrument.workerStep setup = some x) :
    ∃ point, b.step setup (.worker b.earlier.length point) = some { b with instrument := x } := by
  obtain ⟨run, hrun, hx⟩ := Option.bind_eq_some_iff.mp h
  refine ⟨run.worker, ?_⟩
  rw [step, onRun, List.getElem?_eq_none le_rfl]
  simp only [if_true, hrun, Option.bind_some, hx, Option.map_some]

theorem step_logger (h : b.instrument.loggerStep setup = some x) :
    ∃ point, b.step setup (.logger b.earlier.length point) = some { b with instrument := x } := by
  obtain ⟨run, hrun, hx⟩ := Option.bind_eq_some_iff.mp h
  cases hlogger : run.logger with
  | none =>
      rw [Run.loggerStep, hlogger] at hx
      cases hx
  | some point =>
      refine ⟨point, ?_⟩
      rw [step, onRun, List.getElem?_eq_none le_rfl]
      simp only [if_true, hrun, Option.bind_some, hlogger, hx, Option.map_some]

end Bench

end DaqServer
