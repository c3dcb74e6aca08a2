import DaqServer.Proofs.Stream.Exclusion
import DaqServer.Proofs.Stream.Origin

/-!
# What an act does to the last run and its engine

Only the last run can be unfinished, so all that threads do is done by its threads, and only one
call at a time is inside the lock. `Bench.Turns` lists what an act does to the last run and to the
engine; main statements: every act is one of these turns, and every act keeps the others out.
-/

namespace DaqServer

variable {β δ : Type}

def Call.stopPoint? : Call → Option StopPoint
  | stop point | detach _ (.stopping point) | close (.stopping point) => some point
  | _ => none

theorem Call.inside_of_stopPoint? {call : Call} {point : StopPoint}
    (h : call.stopPoint? = some point) : call.inside = point.inside := by
  cases call with
  | stop => exact Option.some.inj h ▸ rfl
  | detach id point' =>
      cases point' with
      | stopping => exact Option.some.inj h ▸ rfl
      | _ => cases h
  | close point' =>
      cases point' with
      | stopping => exact Option.some.inj h ▸ rfl
      | _ => cases h
  | start | join => cases h

theorem StartPoint.inside_of_holds {point : StartPoint} (h : point.holds = true) :
    point.inside = true := by
  cases point with
  | arriving | claiming | returned => cases h
  | _ => rfl

def Act.stopPoint? : Act β δ → Option StopPoint
  | caller _ c => c.stopPoint?
  | _ => none

def Act.caller? : Act β δ → Option Nat
  | caller number _ | noWorker number _ _ _ => some number
  | _ => none

namespace Run

variable {setup : Setup β δ} {run : Run} {x : Instrument β δ}

theorem worker_ne_launching (h : run.isFinished = true) : run.worker ≠ .launching := by
  intro hworker
  rw [isFinished, hworker] at h
  cases h

theorem workerStep_of_isFinished (h : run.isFinished = true) : run.workerStep setup x = none := by
  rw [workerStep, beq_iff_eq.mp h]

theorem loggerStep_of_isFinished (h : run.isFinished = true) (hordered : run.Ordered) :
    run.loggerStep setup x = none := by
  have hjoined : .joining ∈ run.worker.tornDown := by
    rw [beq_iff_eq.mp h]
    exact .tail _ (.head _)
  cases hlogger : run.logger with
  | none => rw [loggerStep, hlogger]
  | some point => rw [loggerStep, hlogger, hordered hjoined point hlogger]

end Run

namespace Bench

/-- The runs and the engine are as they were. -/
structure Still (b b' : Bench β δ) : Prop where
  run : b'.instrument.session.run = b.instrument.session.run
  earlier : b'.earlier = b.earlier
  dma : b'.instrument.dma = b.instrument.dma

theorem Still.refl (b : Bench β δ) : Still b b := ⟨rfl, rfl, rfl⟩

/-- What an act does to the last run and to the engine. -/
inductive Turns (setup : Setup β δ) (act : Act β δ) (b b' : Bench β δ) : Prop
  | still : Still b b' → Turns setup act b b'
  /-- A stop tells the last run to end. -/
  | flag {number : Nat} {call : Call} {active : Bool} {run : Run} :
      act = .caller number call → b.calls[number]? = some call →
      call.stopPoint? = some (.flagging active) → b.instrument.session.run = some run →
      b'.instrument.session.run = some run.terminate → b'.earlier = b.earlier →
      b'.instrument.dma = b.instrument.dma → Turns setup act b b'
  /-- A stop ends the wait of the engine, the current one or the next. -/
  | cancel {number : Nat} {call : Call} {active : Bool} :
      act = .caller number call → b.calls[number]? = some call →
      call.stopPoint? = some (.cancelling active) →
      b'.instrument.session.run = b.instrument.session.run → b'.earlier = b.earlier →
      b'.instrument.dma = setup.dma.cancel b.instrument.dma → Turns setup act b b'
  /-- A start that has the ADC sets up the engine or stops it. -/
  | drive {number : Nat} {id : ConnectionId} {point : StartPoint} :
      act = .caller number (.start id point) → b.calls[number]? = some (.start id point) →
      point.holds = true → b'.instrument.session.run = b.instrument.session.run →
      b'.earlier = b.earlier → Turns setup act b b'
  | spawn {number : Nat} {id : ConnectionId} {sink : SinkId} :
      act = .caller number (.start id (.spawning sink)) →
      b.calls[number]? = some (.start id (.spawning sink)) → b'.earlier = b.runs →
      b'.instrument.session.run = some (.fresh id sink
        (Ring.make setup.stream.ringSlots.toNat setup.stream.blockBytes)) →
      b'.instrument.dma = b.instrument.dma → Turns setup act b b'
  | worker {run : Run} {y : Instrument β δ} :
      act = .worker b.earlier.length run.worker → b.instrument.session.run = some run →
      run.workerStep setup b.instrument = some y → b' = { b with instrument := y } →
      Turns setup act b b'
  | logger {run : Run} {point : LoggerPoint} {y : Instrument β δ} :
      act = .logger b.earlier.length point → b.instrument.session.run = some run →
      run.logger = some point → run.loggerStep setup b.instrument = some y →
      b' = { b with instrument := y } → Turns setup act b b'
  | abandon {run : Run} :
      act = .noLogger b.earlier.length → b.instrument.session.run = some run →
      run.worker = .launching → b' = b.on (·.setRun run.abandon) → Turns setup act b b'
  | hardware {board : β} {dma : δ} :
      act = .hardware board dma → b'.instrument.session.run = b.instrument.session.run →
      b'.earlier = b.earlier → b'.instrument.dma = dma → Turns setup act b b'

variable {setup : Setup β δ} {act : Act β δ} {b b' : Bench β δ}

/-- A call changes runs and engine by a stop that is part of it, if at all. -/
inductive Stops (setup : Setup β δ) (b b' : Bench β δ) : Option StopPoint → Prop
  | still {point : Option StopPoint} : Still b b' → Stops setup b b' point
  | flag {active : Bool} {run : Run} : b.instrument.session.run = some run →
      b' = b.on (·.setRun run.terminate) → Stops setup b b' (some (.flagging active))
  | cancel {active : Bool} : b' = b.on (fun x => { x with dma := setup.dma.cancel x.dma }) →
      Stops setup b b' (some (.cancelling active))

theorem stops_of_stopPoint {point : StopPoint} {next : StopPoint × Bench β δ}
    (h : point.step setup b = some next) : Stops setup b next.2 (some point) := by
  cases point with
  | arriving =>
      simp only [StopPoint.step] at h
      split at h
      · cases h
      · cases h
        exact .still (.refl b)
  | looking =>
      cases h
      exact .still (.refl b)
  | flagging active =>
      simp only [StopPoint.step] at h
      split at h
      · cases h
        exact .still (.refl b)
      · rename_i run hrun
        cases h
        exact .flag hrun rfl
  | cancelling active =>
      cases h
      exact .cancel rfl
  | returned active => cases h

theorem stops_of_call {call : Call} {next : Call × Bench β δ} (h : call.step setup b = some next)
    (hstart : ∀ id point, call ≠ .start id point) : Stops setup b next.2 call.stopPoint? := by
  cases call with
  | start id point => exact absurd rfl (hstart id point)
  | stop point =>
      obtain ⟨next, hnext, rfl⟩ := Option.map_eq_some_iff.mp h
      exact stops_of_stopPoint hnext
  | detach id point =>
      obtain ⟨next, hnext, rfl⟩ := Option.map_eq_some_iff.mp h
      cases point with
      | removing =>
          simp only [DetachPoint.step] at hnext
          split at hnext
          · cases hnext
          · split at hnext <;> cases hnext <;> exact .still ⟨rfl, rfl, rfl⟩
      | closing sink =>
          cases hnext
          exact .still ⟨rfl, rfl, rfl⟩
      | checking =>
          simp only [DetachPoint.step] at hnext
          split at hnext <;> cases hnext <;> exact .still (.refl b)
      | stopping point =>
          obtain ⟨next, hstep, rfl⟩ := Option.map_eq_some_iff.mp hnext
          exact stops_of_stopPoint hstep
      | returned => cases hnext
  | close point =>
      obtain ⟨next, hnext, rfl⟩ := Option.map_eq_some_iff.mp h
      cases point with
      | stopping point =>
          cases point with
          | returned active =>
              cases hnext
              exact .still (.refl b)
          | arriving | looking | flagging active | cancelling active =>
              simp only [ClosePoint.step] at hnext
              obtain ⟨next, hstep, rfl⟩ := Option.map_eq_some_iff.mp hnext
              exact stops_of_stopPoint hstep
      | draining =>
          simp only [ClosePoint.step] at hnext
          split at hnext
          · cases hnext
          · cases hnext
            exact .still ⟨rfl, rfl, rfl⟩
      | closing sinks => cases sinks <;> cases hnext <;> exact .still ⟨rfl, rfl, rfl⟩
      | returned => cases hnext
  | join point =>
      obtain ⟨next, hnext, rfl⟩ := Option.map_eq_some_iff.mp h
      cases point with
      | taking =>
          simp only [JoinPoint.step] at hnext
          split at hnext
          · cases hnext
          · split at hnext <;> cases hnext <;> exact .still ⟨rfl, rfl, rfl⟩
      | waiting run =>
          simp only [JoinPoint.step] at hnext
          split at hnext <;> cases hnext
          exact .still (.refl b)
      | returned => cases hnext

/-- A start that has no claim changes neither runs nor engine. With one it may, but only by creating
its worker does it change the runs. -/
theorem start_turns {id : ConnectionId} {point : StartPoint} {next : StartPoint × Bench β δ}
    (h : point.step setup id b = some next) :
    Still b next.2 ∨
      (point.holds = true ∧ next.2.instrument.session.run = b.instrument.session.run ∧
        next.2.earlier = b.earlier) ∨
      ∃ sink, point = .spawning sink ∧ next.2.earlier = b.runs ∧
        next.2.instrument.session.run = some (.fresh id sink
          (Ring.make setup.stream.ringSlots.toNat setup.stream.blockBytes)) ∧
        next.2.instrument.dma = b.instrument.dma := by
  cases point with
  | arriving =>
      simp only [StartPoint.step] at h
      split at h
      · cases h
      · cases h
        exact .inl (.refl b)
  | claiming | taking =>
      simp only [StartPoint.step] at h
      split at h <;> cases h <;> exact .inl ⟨rfl, rfl, rfl⟩
  | joining sink =>
      simp only [StartPoint.step] at h
      split at h
      · cases h
      · cases h
        exact .inl ⟨rfl, rfl, rfl⟩
  | configuring sink | igniting sink =>
      simp only [StartPoint.step, onDma, Instrument.onDma] at h
      split at h <;> rename_i hdma <;> obtain ⟨-, rfl⟩ := Prod.mk.inj hdma <;> cases h <;>
        exact .inr (.inl ⟨rfl, rfl, rfl⟩)
  | spawning sink =>
      cases h
      exact .inr (.inr ⟨sink, rfl, rfl, rfl, rfl⟩)
  | halting cause =>
      cases h
      exact .inr (.inl ⟨rfl, rfl, rfl⟩)
  | restoring sink cause | yielding cause =>
      cases h
      exact .inl ⟨rfl, rfl, rfl⟩
  | returned failure => cases h

theorem turns_of_caller {number : Nat} {call : Call}
    (h : b.step setup (.caller number call) = some b') :
    Turns setup (.caller number call) b b' := by
  simp only [step] at h
  split at h
  · rename_i hcall
    obtain ⟨next, hstep, rfl⟩ := Option.map_eq_some_iff.mp h
    cases call with
    | start id point =>
        obtain ⟨next, hpoint, rfl⟩ := Option.map_eq_some_iff.mp hstep
        rcases start_turns hpoint with
          ⟨hrun, hearlier, hdma⟩ | ⟨hholds, hrun, hearlier⟩ | ⟨sink, rfl, hearlier, hrun, hdma⟩
        · exact .still ⟨hrun, hearlier, hdma⟩
        · exact .drive rfl hcall hholds hrun hearlier
        · exact .spawn rfl hcall hearlier hrun hdma
    | stop point | detach id point | close point | join point =>
        have hstops := stops_of_call hstep (by simp)
        generalize hpoint : Call.stopPoint? _ = stopping at hstops
        obtain ⟨call', x⟩ := next
        cases hstops with
        | still hstill => exact .still ⟨hstill.run, hstill.earlier, hstill.dma⟩
        | flag hrun hx =>
            obtain rfl : x = _ := hx
            exact .flag rfl hcall hpoint hrun rfl rfl rfl
        | cancel hx =>
            obtain rfl : x = _ := hx
            exact .cancel rfl hcall hpoint rfl rfl rfl
  · cases h

/-- Where all earlier runs are over, only the last one has threads that act. -/
theorem onRun_last {number : Nat} {f : Run → Instrument β δ → Option (Instrument β δ)}
    (h : b.onRun number f = some b')
    (hover : ∀ run ∈ b.earlier, ∀ x, f run x = none) :
    number = b.earlier.length ∧ ∃ run y, b.instrument.session.run = some run ∧
      f run b.instrument = some y ∧ b' = { b with instrument := y } := by
  rw [onRun] at h
  split at h
  · rename_i run hrun
    rw [hover run (List.mem_of_getElem? hrun)] at h
    cases h
  · split at h
    · rename_i hnumber
      obtain ⟨y, hy, rfl⟩ := Option.map_eq_some_iff.mp h
      obtain ⟨run, hrun, hy⟩ := Option.bind_eq_some_iff.mp hy
      exact ⟨hnumber, run, y, hrun, hy, rfl⟩
    · cases h

/-- What stays true of a bench: all runs but the last are over, and one call at most is inside the
lock. -/
structure Guarded (b : Bench β δ) : Prop where
  ended : ∀ run ∈ b.earlier, run.isFinished = true
  alone : b.calls.countP Call.inside ≤ 1

theorem guarded_fresh (board : β) (dma : δ) : Guarded (fresh board dma) := ⟨nofun, Nat.zero_le _⟩

theorem Guarded.turns {acts : List (Act β δ)} (h : Guarded b) (hsound : Sound acts b)
    (hstep : b.step setup act = some b') : Turns setup act b b' := by
  have hordered : ∀ run ∈ b.earlier, run.Ordered :=
    fun run hmem => hsound.ordered run (List.mem_append_left _ hmem)
  cases act with
  | call call =>
      simp only [step] at hstep
      split at hstep
      · cases hstep
        exact .still ⟨rfl, rfl, rfl⟩
      · cases hstep
  | caller number call => exact turns_of_caller hstep
  | noWorker number id sink cause =>
      simp only [step] at hstep
      split at hstep
      · cases hstep
        exact .still ⟨rfl, rfl, rfl⟩
      · cases hstep
  | noLogger number =>
      simp only [step] at hstep
      obtain ⟨rfl, run, y, hrun, hy, rfl⟩ := onRun_last hstep fun run hmem x =>
        if_neg (Run.worker_ne_launching (h.ended run hmem))
      split at hy
      · rename_i hworker
        cases hy
        exact .abandon rfl hrun hworker rfl
      · cases hy
  | worker number point =>
      simp only [step] at hstep
      obtain ⟨rfl, run, y, hrun, hy, rfl⟩ := onRun_last hstep fun run hmem x => by
        rw [Run.workerStep_of_isFinished (h.ended run hmem), ite_self]
      split at hy
      · rename_i hworker
        subst hworker
        exact .worker rfl hrun hy rfl
      · cases hy
  | logger number point =>
      simp only [step] at hstep
      obtain ⟨rfl, run, y, hrun, hy, rfl⟩ := onRun_last hstep fun run hmem x => by
        rw [Run.loggerStep_of_isFinished (h.ended run hmem) (hordered run hmem), ite_self]
      split at hy
      · rename_i hlogger
        exact .logger rfl hrun hlogger hy rfl
      · cases hy
  | register id sink =>
      simp only [step] at hstep
      split at hstep
      · cases hstep
      · cases hstep
        exact .still ⟨rfl, rfl, rfl⟩
  | beginScan =>
      simp only [step] at hstep
      split at hstep
      · cases hstep
      · cases hstep
        exact .still ⟨rfl, rfl, rfl⟩
  | endScan =>
      simp only [step] at hstep
      split at hstep
      · cases hstep
        exact .still ⟨rfl, rfl, rfl⟩
      · cases hstep
  | hardware board dma =>
      cases hstep
      exact .hardware rfl rfl rfl rfl
  | peer sink accepts =>
      cases hstep
      exact .still ⟨rfl, rfl, rfl⟩

/-! ### The lock -/

/-- A stop comes inside the lock only where nobody is inside. -/
theorem stop_enters {point : StopPoint} {next : StopPoint × Bench β δ}
    (h : point.step setup b = some next) : point.inside = true ∨ b.locked = false := by
  cases point with
  | arriving =>
      simp only [StopPoint.step] at h
      split at h
      · cases h
      · exact .inr (Bool.eq_false_iff.mpr ‹_›)
  | looking | flagging active | cancelling active => exact .inl rfl
  | returned active => cases h

theorem call_enters {call : Call} {next : Call × Bench β δ} (h : call.step setup b = some next)
    (hinside : next.1.inside = true) : call.inside = true ∨ b.locked = false := by
  cases call with
  | start id point =>
      obtain ⟨next, hnext, rfl⟩ := Option.map_eq_some_iff.mp h
      cases point with
      | arriving =>
          simp only [StartPoint.step] at hnext
          split at hnext
          · cases hnext
          · exact .inr (Bool.eq_false_iff.mpr ‹_›)
      | returned failure => cases hnext
      | _ => exact .inl rfl
  | stop point =>
      obtain ⟨next, hnext, rfl⟩ := Option.map_eq_some_iff.mp h
      exact stop_enters hnext
  | detach id point =>
      obtain ⟨next, hnext, rfl⟩ := Option.map_eq_some_iff.mp h
      cases point with
      | removing =>
          simp only [DetachPoint.step] at hnext
          split at hnext
          · cases hnext
          · exact .inr (Bool.eq_false_iff.mpr ‹_›)
      | closing sink =>
          cases hnext
          cases hinside
      | checking =>
          simp only [DetachPoint.step] at hnext
          split at hnext <;> cases hnext <;> cases hinside
      | stopping point =>
          obtain ⟨next, hstep, rfl⟩ := Option.map_eq_some_iff.mp hnext
          exact stop_enters hstep
      | returned => cases hnext
  | close point =>
      obtain ⟨next, hnext, rfl⟩ := Option.map_eq_some_iff.mp h
      cases point with
      | stopping point =>
          cases point with
          | returned active =>
              cases hnext
              cases hinside
          | arriving | looking | flagging active | cancelling active =>
              simp only [ClosePoint.step] at hnext
              obtain ⟨next, hstep, rfl⟩ := Option.map_eq_some_iff.mp hnext
              exact stop_enters hstep
      | draining =>
          simp only [ClosePoint.step] at hnext
          split at hnext
          · cases hnext
          · exact .inr (Bool.eq_false_iff.mpr ‹_›)
      | closing sinks => cases sinks <;> cases hnext <;> cases hinside
      | returned => cases hnext
  | join point =>
      obtain ⟨next, hnext, rfl⟩ := Option.map_eq_some_iff.mp h
      cases hinside

theorem calls_of_call {call : Call} {next : Call × Bench β δ} (h : call.step setup b = some next) :
    next.2.calls = b.calls := by
  rcases call_cases h with ⟨hspares, -⟩ | ⟨id, point, point', rfl, -, hpoint⟩
  · exact hspares.calls
  · exact (startPoint_cases hpoint).1

/-- What an act does to the calls. -/
inductive Calls (setup : Setup β δ) (act : Act β δ) (b b' : Bench β δ) : Prop
  | same : act.caller? = none → b'.calls = b.calls → Calls setup act b b'
  | new {call : Call} : act = .call call → call.isNew = true → b'.calls = b.calls ++ [call] →
      Calls setup act b b'
  | moves {number : Nat} {call : Call} {next : Call × Bench β δ} : act = .caller number call →
      b.calls[number]? = some call → call.step setup b = some next →
      b' = { next.2 with calls := b.calls.set number next.1 } → Calls setup act b b'
  | fails {number : Nat} {id : ConnectionId} {sink : SinkId} {cause : String} :
      act = .noWorker number id sink cause →
      b.calls[number]? = some (.start id (.spawning sink)) →
      b' = { b with calls := b.calls.set number (.start id (.halting (.io cause))) } →
      Calls setup act b b'

theorem calls_of_step (h : b.step setup act = some b') : Calls setup act b b' := by
  cases act with
  | call call =>
      simp only [step] at h
      split at h
      · cases h
        exact .new rfl ‹_› rfl
      · cases h
  | caller number call =>
      simp only [step] at h
      split at h
      · rename_i hcall
        obtain ⟨next, hstep, rfl⟩ := Option.map_eq_some_iff.mp h
        exact .moves rfl hcall hstep (by rw [calls_of_call hstep])
      · cases h
  | noWorker number id sink cause =>
      simp only [step] at h
      split at h
      · rename_i hcall
        cases h
        exact .fails rfl hcall rfl
      · cases h
  | noLogger number | worker number point | logger number point =>
      simp only [step] at h
      obtain ⟨run, y, -, -, hcalls, -⟩ := onRun_cases h
      exact .same rfl hcalls
  | register id sink | beginScan | endScan =>
      refine .same rfl ?_
      simp only [step] at h
      split at h
      all_goals cases h
      all_goals rfl
  | hardware board dma | peer sink accepts =>
      cases h
      exact .same rfl rfl

/-- A call stands where it stood until it takes its step. -/
theorem getElem?_calls_of_step (h : b.step setup act = some b') {number : Nat} {call : Call}
    (hcall : b.calls[number]? = some call) (hact : act.caller? ≠ some number) :
    b'.calls[number]? = some call := by
  cases calls_of_step h with
  | same _ hcalls => rwa [hcalls]
  | new _ _ hcalls =>
      obtain ⟨hlt, -⟩ := List.getElem?_eq_some_iff.mp hcall
      rwa [hcalls, List.getElem?_append_left hlt]
  | moves hact' _ _ hb' | fails hact' _ hb' =>
      subst hact'
      rw [hb', List.getElem?_set_ne fun heq => hact (congrArg some heq)]
      exact hcall

theorem inside_of_isNew {call : Call} (h : call.isNew = true) : call.inside = false := by
  rw [Call.isNew.eq_def] at h
  split at h
  · rfl
  · rfl
  · rfl
  · rfl
  · rfl
  · cases h

theorem countP_of_locked (h : b.locked = false) : b.calls.countP Call.inside = 0 :=
  List.countP_eq_zero.mpr (by simpa [locked] using h)

/-- A call that is replaced leaves as many inside as before, unless the new one goes inside. -/
theorem alone_set {number : Nat} {call call' : Call} (hcall : b.calls[number]? = some call)
    (henters : call'.inside = true → call.inside = true ∨ b.locked = false)
    (hb : b.calls.countP Call.inside ≤ 1) : (b.calls.set number call').countP Call.inside ≤ 1 := by
  obtain ⟨before, after, hsplit, hset⟩ := exists_set_eq hcall
  have hfree : b.locked = false →
      before.countP Call.inside = 0 ∧ after.countP Call.inside = 0 := by
    intro hlocked
    have hzero := countP_of_locked hlocked
    rw [hsplit, List.countP_append, List.countP_cons] at hzero
    omega
  rw [hsplit, List.countP_append, List.countP_cons] at hb
  rw [hset, List.countP_append, List.countP_cons]
  cases hinside : call'.inside with
  | false => simp only [Bool.false_eq_true, if_false]; omega
  | true =>
      rcases henters hinside with hcall | hlocked
      · rw [hcall] at hb
        exact hb
      · obtain ⟨hbefore, hafter⟩ := hfree hlocked
        rw [hbefore, hafter, if_pos rfl]

theorem alone_of_step (h : b.step setup act = some b') (hb : b.calls.countP Call.inside ≤ 1) :
    b'.calls.countP Call.inside ≤ 1 := by
  cases calls_of_step h with
  | same _ hcalls => rwa [hcalls]
  | new _ hnew hcalls =>
      rw [hcalls, List.countP_append, List.countP_singleton, inside_of_isNew hnew]
      exact hb
  | moves _ hcall hstep hb' =>
      rw [hb']
      exact alone_set hcall (fun _ => call_enters hstep ‹_›) hb
  | fails _ hcall hb' =>
      rw [hb']
      exact alone_set hcall (fun _ => .inl rfl) hb

/-- Two calls that are inside the lock are one. -/
theorem Guarded.eq_of_inside (h : Guarded b) {m n : Nat} {call call' : Call}
    (hm : b.calls[m]? = some call) (hcall : call.inside = true)
    (hn : b.calls[n]? = some call') (hcall' : call'.inside = true) : m = n := by
  by_contra hne
  -- With the first call out of the lock nobody is left inside.
  obtain ⟨before, after, hsplit, hset⟩ := exists_set_eq hm
  have halone := h.alone
  have hnone : (b.calls.set m (.stop .arriving)).countP Call.inside = 0 := by
    rw [hsplit, List.countP_append, List.countP_cons, if_pos hcall] at halone
    rw [hset, List.countP_append, List.countP_cons_of_neg (by decide)]
    omega
  have hmem : call' ∈ b.calls.set m (.stop .arriving) :=
    List.mem_of_getElem? ((List.getElem?_set_ne hne).trans hn)
  exact List.countP_eq_zero.mp hnone call' hmem hcall'

theorem Guarded.step {acts : List (Act β δ)} (h : Guarded b) (hsound : Sound acts b)
    (hstep : b.step setup act = some b') : Guarded b' where
  alone := alone_of_step hstep h.alone
  ended := by
    have hover {x : Bench β δ} (hearlier : x.earlier = b.earlier) :
        ∀ run ∈ x.earlier, run.isFinished = true := hearlier ▸ h.ended
    cases h.turns hsound hstep with
    | still hstill => exact hover hstill.earlier
    | flag _ _ _ _ _ hearlier | cancel _ _ _ _ hearlier | drive _ _ _ _ hearlier
      | hardware _ _ hearlier => exact hover hearlier
    | spawn _ hcall hearlier =>
        rw [hearlier]
        exact hsound.isFinished_of_claim hcall rfl
    | worker _ _ _ hb' | logger _ _ _ _ hb' | abandon _ _ _ hb' =>
        rw [hb']
        exact h.ended

/-! ### An unfinished run -/

theorem getElem?_runs_last {run : Run} (h : b.instrument.session.run = some run) :
    b.runs[b.earlier.length]? = some run := by
  rw [runs, h, List.getElem?_append_right (Nat.le_refl _), Nat.sub_self]
  rfl

/-- A run that is not finished is the last one. -/
theorem Guarded.last (h : Guarded b) {number : Nat} {run : Run} (hrun : b.runs[number]? = some run)
    (hunfinished : run.isFinished = false) :
    number = b.earlier.length ∧ b.instrument.session.run = some run := by
  rw [runs] at hrun
  rcases Nat.lt_or_ge number b.earlier.length with hlt | hge
  · rw [List.getElem?_append_left hlt] at hrun
    rw [h.ended run (List.mem_of_getElem? hrun)] at hunfinished
    cases hunfinished
  · rw [List.getElem?_append_right hge] at hrun
    cases hlast : b.instrument.session.run with
    | none =>
        rw [hlast] at hrun
        cases hrun
    | some last =>
        rw [hlast, Option.toList_some, List.getElem?_singleton] at hrun
        split at hrun
        · exact ⟨by omega, hrun⟩
        · cases hrun

/-- What an act does to a run that is not finished and to its engine. -/
inductive Tends (setup : Setup β δ) (act : Act β δ) (number : Nat) (x x' : Instrument β δ)
    (run : Run) : Run → Prop
  | still : x'.dma = x.dma → Tends setup act number x x' run run
  | hardware {board : β} {dma : δ} : act = .hardware board dma → x'.dma = dma →
      Tends setup act number x x' run run
  | flag {active : Bool} : act.stopPoint? = some (.flagging active) → x'.dma = x.dma →
      Tends setup act number x x' run run.terminate
  | cancel {active : Bool} : act.stopPoint? = some (.cancelling active) →
      x'.dma = setup.dma.cancel x.dma → Tends setup act number x x' run run
  | worker {run' : Run} : act = .worker number run.worker → run.workerStep setup x = some x' →
      x'.session.run = some run' → Tends setup act number x x' run run'
  | logger {run' : Run} {point : LoggerPoint} : act = .logger number point →
      run.logger = some point → run.loggerStep setup x = some x' → x'.session.run = some run' →
      Tends setup act number x x' run run'
  | abandon : act = .noLogger number → x'.dma = x.dma →
      Tends setup act number x x' run run.abandon

theorem Tends.connection {number : Nat} {x x' : Instrument β δ} {run run' : Run}
    (h : Tends setup act number x x' run run') (hordered : run.Ordered) :
    run'.connection = run.connection := by
  cases h with
  | still | hardware | flag | cancel | abandon => rfl
  | worker _ hworker hlast =>
      obtain ⟨next, hnext, -, hmoves⟩ := Run.moves_of_workerStep hworker
      exact Option.some.inj (hnext.symm.trans hlast) ▸ hmoves.connection
  | logger _ _ hlogger hlast =>
      obtain ⟨next, hnext, -, hmoves⟩ := Run.moves_of_loggerStep hordered hlogger
      exact Option.some.inj (hnext.symm.trans hlast) ▸ hmoves.connection

theorem Guarded.tends {acts : List (Act β δ)} (h : Guarded b) (hsound : Sound acts b)
    (hstep : b.step setup act = some b') {number : Nat} {run : Run}
    (hrun : b.runs[number]? = some run) (hunfinished : run.isFinished = false) :
    ∃ run', b'.runs[number]? = some run' ∧
      Tends setup act number b.instrument b'.instrument run run' := by
  obtain ⟨rfl, hlast⟩ := h.last hrun hunfinished
  have hplace {run' : Run} (hrun' : b'.instrument.session.run = some run')
      (hearlier : b'.earlier = b.earlier) : b'.runs[b.earlier.length]? = some run' :=
    hearlier ▸ getElem?_runs_last hrun'
  have hover {point : StartPoint} {id : ConnectionId} {n : Nat}
      (hcall : b.calls[n]? = some (.start id point)) (hholds : point.holds = true) : False := by
    have hclaim : (Call.start id point).claim? = some id := by rw [Call.claim?, if_pos hholds]
    rw [hsound.isFinished_of_claim hcall hclaim run (List.mem_of_getElem? hrun)] at hunfinished
    cases hunfinished
  cases h.turns hsound hstep with
  | still hstill => exact ⟨run, hplace (hstill.run.trans hlast) hstill.earlier, .still hstill.dma⟩
  | flag hact hcall hpoint hrun' hflagged hearlier hdma =>
      obtain rfl := Option.some.inj (hlast.symm.trans hrun')
      subst hact
      exact ⟨_, hplace hflagged hearlier, .flag hpoint hdma⟩
  | cancel hact hcall hpoint hsame hearlier hdma =>
      subst hact
      exact ⟨run, hplace (hsame.trans hlast) hearlier, .cancel hpoint hdma⟩
  | drive hact hcall hholds => exact (hover hcall hholds).elim
  | spawn hact hcall => exact (hover hcall rfl).elim
  | worker hact hrun' hworker hb' =>
      obtain rfl := Option.some.inj (hlast.symm.trans hrun')
      subst hb'
      obtain ⟨run', hnext, -⟩ := Run.moves_of_workerStep hworker
      exact ⟨run', hplace hnext rfl, .worker hact hworker hnext⟩
  | logger hact hrun' hpoint hlogger hb' =>
      obtain rfl := Option.some.inj (hlast.symm.trans hrun')
      subst hb'
      obtain ⟨run', hnext, -⟩ := Run.keeps_of_loggerStep (fun _ => True) hlogger
      exact ⟨run', hplace hnext rfl, .logger hact hpoint hlogger hnext⟩
  | abandon hact hrun' hworker hb' =>
      obtain rfl := Option.some.inj (hlast.symm.trans hrun')
      subst hb'
      exact ⟨_, hplace rfl rfl, .abandon hact rfl⟩
  | hardware hact hsame hearlier hdma =>
      exact ⟨run, hplace (hsame.trans hlast) hearlier, .hardware hact hdma⟩

end Bench

end DaqServer
