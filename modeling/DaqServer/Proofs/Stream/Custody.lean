import DaqServer.Proofs.Stream.Stops

/-!
# Who looks after the last worker and the engine

A worker that has been created is waited for, by the next start or by a call of its own, and an
engine that runs is stopped, by the worker of its session or by a start that could not create one.
Main statements: at every moment the last worker is over or can be waited for (`Awaited`), and an
engine that runs has somebody left to stop it (`Driven`).
-/

namespace DaqServer

variable {β δ : Type}

/-- What a call is for. -/
inductive CallKind
  | start | stop | detach | close | join
  deriving DecidableEq

namespace Call

def kind : Call → CallKind
  | start .. => .start
  | stop _ => .stop
  | detach .. => .detach
  | close _ => .close
  | join _ => .join

def asMade : Call → Call
  | start id _ => start id .arriving
  | stop _ => stop .arriving
  | detach id _ => detach id .removing
  | close _ => close (.stopping .arriving)
  | join _ => join .taking

theorem kind_of_asMade {call call' : Call} (h : call.asMade = call'.asMade) :
    call.kind = call'.kind := by
  cases call <;> cases call' <;> first | rfl | cases h

def hasReturned : Call → Bool
  | start _ (.returned _) | stop (.returned _) | detach _ .returned
  | detach _ (.stopping (.returned _)) | close .returned | join .returned => true
  | _ => false

theorem inside_of_hasReturned {call : Call} (h : call.hasReturned = true) :
    call.inside = false := by
  cases call with
  | start id point | stop point | close point | join point =>
      cases point with
      | returned => rfl
      | _ => cases h
  | detach id point =>
      cases point with
      | returned => rfl
      | stopping point =>
          cases point with
          | returned => rfl
          | _ => cases h
      | _ => cases h

theorem asMade_of_step {setup : Setup β δ} {b : Bench β δ} {call : Call} {next : Call × Bench β δ}
    (h : call.step setup b = some next) :
    next.1.asMade = call.asMade ∧ call.hasReturned = false := by
  cases call with
  | start id point | stop point | close point | join point =>
      obtain ⟨next, hpoint, rfl⟩ := Option.map_eq_some_iff.mp h
      refine ⟨rfl, ?_⟩
      cases point with
      | returned => cases hpoint
      | _ => rfl
  | detach id point =>
      obtain ⟨next, hpoint, rfl⟩ := Option.map_eq_some_iff.mp h
      refine ⟨rfl, ?_⟩
      cases point with
      | returned => cases hpoint
      | stopping point =>
          cases point with
          | returned => cases hpoint
          | _ => rfl
      | _ => rfl

end Call

namespace Bench

variable {setup : Setup β δ} {acts : List (Act β δ)} {act : Act β δ} {b b' : Bench β δ}

/-! ### The last worker -/

/-- The last worker has ended, if there ever was one. -/
def Over (b : Bench β δ) : Prop :=
  ∀ run, b.instrument.session.run = some run → run.isFinished = true

/-- What an act does to the handle of the last worker. -/
inductive Handles (act : Act β δ) (b b' : Bench β δ) : Prop
  | same : b'.joinable = b.joinable → Handles act b b'
  | made : b'.joinable = true → act.spawns = true → Handles act b b'
  /-- A start that has the ADC waits for the worker, which has ended. -/
  | joined {number : Nat} {id : ConnectionId} {sink : SinkId} :
      b.calls[number]? = some (.start id (.joining sink)) → b'.joinable = false →
      b'.instrument.session.run = b.instrument.session.run → Handles act b b'
  /-- A call takes the handle, to wait for the worker. -/
  | taken {number : Nat} : b'.joinable = false → b'.earlier = b.earlier →
      b'.calls[number]? = some (.join (.waiting b.earlier.length)) → Handles act b b'

theorem joinable_of_stopPoint {point : StopPoint} {next : StopPoint × Bench β δ}
    (h : point.step setup b = some next) : next.2.joinable = b.joinable := by
  cases point with
  | arriving | flagging active =>
      simp only [StopPoint.step] at h
      split at h <;> cases h <;> rfl
  | looking | cancelling active =>
      cases h
      rfl
  | returned active => cases h

theorem joinable_of_detachPoint {id : ConnectionId} {point : DetachPoint}
    {next : DetachPoint × Bench β δ} (h : point.step setup id b = some next) :
    next.2.joinable = b.joinable := by
  cases point with
  | removing =>
      simp only [DetachPoint.step] at h
      split at h
      · cases h
      · split at h <;> cases h <;> rfl
  | closing sink =>
      cases h
      rfl
  | checking =>
      simp only [DetachPoint.step] at h
      split at h <;> cases h <;> rfl
  | stopping point =>
      obtain ⟨next, hnext, rfl⟩ := Option.map_eq_some_iff.mp h
      exact joinable_of_stopPoint hnext
  | returned => cases h

theorem joinable_of_closePoint {point : ClosePoint} {next : ClosePoint × Bench β δ}
    (h : point.step setup b = some next) : next.2.joinable = b.joinable := by
  cases point with
  | stopping point =>
      cases point with
      | returned active =>
          cases h
          rfl
      | arriving | looking | flagging active | cancelling active =>
          simp only [ClosePoint.step] at h
          obtain ⟨next, hnext, rfl⟩ := Option.map_eq_some_iff.mp h
          exact joinable_of_stopPoint hnext
  | draining =>
      simp only [ClosePoint.step] at h
      split at h <;> cases h
      rfl
  | closing sinks => cases sinks <;> cases h <;> rfl
  | returned => cases h

theorem joinable_of_onRun {number : Nat} {f : Run → Instrument β δ → Option (Instrument β δ)}
    (h : b.onRun number f = some b') : b'.joinable = b.joinable := by
  rw [onRun] at h
  split at h
  · obtain ⟨y, -, rfl⟩ := Option.map_eq_some_iff.mp h
    rfl
  · split at h
    · obtain ⟨y, -, rfl⟩ := Option.map_eq_some_iff.mp h
      rfl
    · cases h

theorem handles_of_caller {number : Nat} {call : Call}
    (h : b.step setup (.caller number call) = some b') : Handles (.caller number call) b b' := by
  have hcall := getElem?_of_caller h
  obtain ⟨hlt, -⟩ := List.getElem?_eq_some_iff.mp hcall
  rw [step, if_pos hcall] at h
  obtain ⟨next, hstep, rfl⟩ := Option.map_eq_some_iff.mp h
  cases call with
  | start id point =>
      obtain ⟨next, hpoint, rfl⟩ := Option.map_eq_some_iff.mp hstep
      cases point with
      | arriving | claiming | taking =>
          simp only [StartPoint.step] at hpoint
          split at hpoint <;> cases hpoint <;> exact .same rfl
      | joining sink =>
          simp only [StartPoint.step] at hpoint
          split at hpoint <;> cases hpoint
          exact .joined hcall rfl rfl
      | configuring sink | igniting sink =>
          simp only [StartPoint.step, onDma, Instrument.onDma] at hpoint
          split at hpoint <;> rename_i hdma <;> obtain ⟨-, rfl⟩ := Prod.mk.inj hdma <;>
            cases hpoint <;> exact .same rfl
      | spawning sink =>
          cases hpoint
          exact .made rfl rfl
      | halting cause | restoring sink cause | yielding cause =>
          cases hpoint
          exact .same rfl
      | returned failure => cases hpoint
  | stop point =>
      obtain ⟨next, hpoint, rfl⟩ := Option.map_eq_some_iff.mp hstep
      exact .same (joinable_of_stopPoint hpoint)
  | detach id point =>
      obtain ⟨next, hpoint, rfl⟩ := Option.map_eq_some_iff.mp hstep
      exact .same (joinable_of_detachPoint hpoint)
  | close point =>
      obtain ⟨next, hpoint, rfl⟩ := Option.map_eq_some_iff.mp hstep
      exact .same (joinable_of_closePoint hpoint)
  | join point =>
      obtain ⟨next, hpoint, rfl⟩ := Option.map_eq_some_iff.mp hstep
      cases point with
      | taking =>
          simp only [JoinPoint.step] at hpoint
          split at hpoint
          · cases hpoint
          · split at hpoint <;> cases hpoint
            · exact .taken rfl rfl (List.getElem?_set_self hlt)
            · exact .same rfl
      | waiting run =>
          simp only [JoinPoint.step] at hpoint
          split at hpoint <;> cases hpoint
          exact .same rfl
      | returned => cases hpoint

theorem handles_of_step (h : b.step setup act = some b') : Handles act b b' := by
  cases act with
  | caller number call => exact handles_of_caller h
  | noLogger number | worker number point | logger number point =>
      simp only [step] at h
      exact .same (joinable_of_onRun h)
  | call call | noWorker number id sink cause | register id sink | beginScan | endScan =>
      refine .same ?_
      simp only [step] at h
      split at h
      all_goals cases h
      all_goals rfl
  | hardware board dma | peer sink accepts =>
      cases h
      exact .same rfl

theorem joinable_of_spawns (h : b.step setup act = some b') (hspawns : act.spawns = true) :
    b'.joinable = true := by
  cases act with
  | caller number call =>
      rw [step, if_pos (getElem?_of_caller h)] at h
      obtain ⟨next, hstep, rfl⟩ := Option.map_eq_some_iff.mp h
      cases call with
      | start id point =>
          obtain ⟨next, hpoint, rfl⟩ := Option.map_eq_some_iff.mp hstep
          cases point with
          | spawning sink =>
              cases hpoint
              rfl
          | _ => cases hspawns
      | _ => cases hspawns
  | _ => cases hspawns

/-- Without a new session the last run stays the last, and a last worker that has ended does not
begin again. -/
theorem Guarded.keeps (h : Guarded b) (hsound : Sound acts b) (hstep : b.step setup act = some b')
    (hspawns : act.spawns = false) : b'.earlier = b.earlier ∧ (b.Over → b'.Over) := by
  have hsame {x : Bench β δ} (hrun : x.instrument.session.run = b.instrument.session.run) :
      b.Over → x.Over := fun hover run hr => hover run (hrun ▸ hr)
  have hordered {run : Run} (hrun : b.instrument.session.run = some run) : run.Ordered :=
    hsound.ordered run (List.mem_of_getElem? (getElem?_runs_last hrun))
  cases h.turns hsound hstep with
  | still hstill => exact ⟨hstill.earlier, hsame hstill.run⟩
  | flag _ _ _ hrun hrun' hearlier =>
      refine ⟨hearlier, fun hover run hr => ?_⟩
      obtain rfl := Option.some.inj (hrun'.symm.trans hr)
      have hended := hover _ hrun
      exact hended
  | cancel _ _ _ hrun hearlier | drive _ _ _ hrun hearlier | hardware _ hrun hearlier =>
      exact ⟨hearlier, hsame hrun⟩
  | spawn hact =>
      subst hact
      cases hspawns
  | worker _ hrun hworker hb' =>
      subst hb'
      refine ⟨rfl, fun hover => ?_⟩
      rw [Run.workerStep_of_isFinished (hover _ hrun)] at hworker
      cases hworker
  | logger _ hrun _ hlogger hb' =>
      subst hb'
      refine ⟨rfl, fun hover => ?_⟩
      rw [Run.loggerStep_of_isFinished (hover _ hrun) (hordered hrun)] at hlogger
      cases hlogger
  | abandon _ hrun hworker hb' =>
      subst hb'
      exact ⟨rfl, fun hover => absurd hworker (Run.worker_ne_launching (hover _ hrun))⟩

/-- The last worker has ended, or somebody can wait for it, or somebody does. -/
inductive Awaited (b : Bench β δ) : Prop
  | ended : b.Over → Awaited b
  | joinable : b.joinable = true → Awaited b
  | waited {number : Nat} :
      b.calls[number]? = some (.join (.waiting b.earlier.length)) → Awaited b

theorem awaited_fresh (board : β) (dma : δ) : (fresh board dma).Awaited :=
  .ended fun _ h => by cases h

/-- A call that waits for the last worker goes on only when that has ended. -/
theorem over_of_waiting {number : Nat}
    (h : b.step setup (.caller number (.join (.waiting b.earlier.length))) = some b') :
    b.Over ∧ b'.instrument = b.instrument := by
  rw [step, if_pos (getElem?_of_caller h)] at h
  obtain ⟨next, hstep, rfl⟩ := Option.map_eq_some_iff.mp h
  obtain ⟨next, hpoint, rfl⟩ := Option.map_eq_some_iff.mp hstep
  simp only [JoinPoint.step] at hpoint
  split at hpoint
  · rename_i hall
    cases hpoint
    refine ⟨fun run hrun => ?_, rfl⟩
    rw [getElem?_runs_last hrun] at hall
    exact hall
  · cases hpoint

theorem Awaited.step (h : Awaited b) (hguard : Guarded b) (hsound : Sound acts b)
    (hstep : b.step setup act = some b') : Awaited b' := by
  cases hspawns : act.spawns with
  | true => exact .joinable (joinable_of_spawns hstep hspawns)
  | false =>
      obtain ⟨hearlier, hover⟩ := hguard.keeps hsound hstep hspawns
      cases h with
      | ended hended => exact .ended (hover hended)
      | joinable hjoinable =>
          cases handles_of_step hstep with
          | same hsame => exact .joinable (hsame.trans hjoinable)
          | made hmade => exact .joinable hmade
          | joined hcall _ hrun =>
              have hended := hsound.isFinished_of_claim hcall rfl
              exact .ended (hover fun run hr =>
                hended run (List.mem_of_getElem? (getElem?_runs_last hr)))
          | taken _ _ hcall => exact .waited (hearlier ▸ hcall)
      | @waited number hcall =>
          by_cases hact : act.caller? = some number
          · cases act with
            | caller n call =>
                obtain rfl := Option.some.inj hact
                obtain rfl := Option.some.inj ((getElem?_of_caller hstep).symm.trans hcall)
                exact .ended (hover (over_of_waiting hstep).1)
            | noWorker n id sink cause =>
                obtain rfl := Option.some.inj hact
                rw [Bench.step, hcall, if_neg (by simp)] at hstep
                cases hstep
            | _ => cases hact
          · exact .waited (hearlier ▸ getElem?_calls_of_step hstep hcall hact)

/-! ### Calls that have not returned -/

def Pending (b : Bench β δ) (kind : CallKind) (number : Nat) : Prop :=
  ∃ call, b.calls[number]? = some call ∧ call.kind = kind ∧ call.hasReturned = false

/-- A call that has not returned was there before, unless it is new. -/
theorem pending_of_step (hstep : b.step setup act = some b') {kind : CallKind} {number : Nat}
    (h : b'.Pending kind number) :
    b.Pending kind number ∨ ∃ call, act = .call call ∧ call.kind = kind := by
  obtain ⟨call', hcall', rfl, hreturned⟩ := h
  cases calls_of_step hstep with
  | same _ hcalls => exact .inl ⟨call', hcalls ▸ hcall', rfl, hreturned⟩
  | @new call hact _ hcalls =>
      rw [hcalls, List.getElem?_append] at hcall'
      split at hcall'
      · exact .inl ⟨call', hcall', rfl, hreturned⟩
      · rw [List.getElem?_singleton] at hcall'
        split at hcall'
        · exact .inr ⟨call, hact, congrArg Call.kind (Option.some.inj hcall')⟩
        · cases hcall'
  | @moves moved call next _ hcall hnext hb' =>
      subst hb'
      dsimp only at hcall'
      rcases eq_or_ne moved number with rfl | hne
      · obtain ⟨hlt, -⟩ := List.getElem?_eq_some_iff.mp hcall
        rw [List.getElem?_set_self hlt] at hcall'
        obtain rfl := Option.some.inj hcall'
        obtain ⟨hmade, hbefore⟩ := Call.asMade_of_step hnext
        exact .inl ⟨call, hcall, (Call.kind_of_asMade hmade).symm, hbefore⟩
      · rw [List.getElem?_set_ne hne] at hcall'
        exact .inl ⟨call', hcall', rfl, hreturned⟩
  | @fails moved id sink cause _ hcall hb' =>
      subst hb'
      dsimp only at hcall'
      rcases eq_or_ne moved number with rfl | hne
      · obtain ⟨hlt, -⟩ := List.getElem?_eq_some_iff.mp hcall
        rw [List.getElem?_set_self hlt] at hcall'
        obtain rfl := Option.some.inj hcall'
        exact .inl ⟨_, hcall, rfl, rfl⟩
      · rw [List.getElem?_set_ne hne] at hcall'
        exact .inl ⟨call', hcall', rfl, hreturned⟩

/-- Without a pending start no worker is created. -/
theorem spawns_of_step (hstep : b.step setup act = some b')
    (hstarts : ∀ number, ¬ b.Pending .start number) : act.spawns = false := by
  refine Bool.eq_false_iff.mpr fun hspawns => ?_
  cases act with
  | caller number call =>
      have hcall := getElem?_of_caller hstep
      cases call with
      | start id point =>
          cases point with
          | spawning sink => exact hstarts number ⟨_, hcall, rfl, rfl⟩
          | _ => cases hspawns
      | _ => cases hspawns
  | _ => cases hspawns

/-- The handle that has been taken stays so, as no worker is created. -/
theorem joinable_of_step (hstep : b.step setup act = some b') (hspawns : act.spawns = false)
    (h : b.joinable = false) : b'.joinable = false := by
  cases handles_of_step hstep with
  | same hsame => exact hsame.trans h
  | made _ hmade =>
      rw [hspawns] at hmade
      cases hmade
  | joined _ hjoined => exact hjoined
  | taken htaken => exact htaken

/-- Once a call has looked for the handle of the last worker, nobody else has it. -/
theorem joinable_of_taking (h : b.step setup act = some b') {number : Nat}
    (hcall : b.calls[number]? = some (.join .taking)) (hact : act.caller? = some number) :
    b'.joinable = false := by
  cases calls_of_step h with
  | same hnone =>
      rw [hnone] at hact
      cases hact
  | new hnew =>
      subst hnew
      cases hact
  | moves hmoves hmoved hnext hb' =>
      subst hmoves hb'
      obtain rfl := Option.some.inj hact
      obtain rfl := Option.some.inj (hmoved.symm.trans hcall)
      obtain ⟨next, hpoint, rfl⟩ := Option.map_eq_some_iff.mp hnext
      simp only [JoinPoint.step] at hpoint
      split at hpoint
      · cases hpoint
      · split at hpoint <;> cases hpoint
        · rfl
        · exact Bool.eq_false_iff.mpr ‹_›
  | fails hfails hfailed =>
      subst hfails
      obtain rfl := Option.some.inj hact
      cases hfailed.symm.trans hcall

end Bench

/-! ### The engine -/

/-- Whether a start has started the engine and nobody else has it yet. -/
def StartPoint.ignited : StartPoint → Bool
  | spawning _ | halting _ => true
  | _ => false

theorem StartPoint.holds_of_ignited {point : StartPoint} (h : point.ignited = true) :
    point.holds = true := by
  cases point with
  | spawning | halting => rfl
  | _ => cases h

namespace Run

variable {setup : Setup β SimulatedDma} {run : Run} {x y : Instrument β SimulatedDma}

/-- A worker never starts the engine, and stops it in its teardown. -/
theorem running_of_workerStep (hdma : setup.dma = SimulatedDma.engine)
    (h : run.workerStep setup x = some y) (hrunning : y.dma.running = true) :
    x.dma.running = true ∧ run.worker ≠ .stopping := by
  obtain ⟨connection, sink, flags, ring, worker, logger⟩ := run
  obtain ⟨port, dma, scan, watch, stream⟩ := setup
  obtain rfl : dma = SimulatedDma.engine := hdma
  cases worker with
  | waiting =>
      simp only [workerStep, SimulatedDma.engine, SimulatedDma.wait] at h
      refine ⟨?_, by simp⟩
      split at h
      · cases h
      · rename_i result d hwait
        obtain rfl := Option.some.inj h
        split at hwait
        · cases hwait
          exact hrunning
        · split at hwait
          · cases hwait
            exact hrunning
          · cases hwait
  | filling slots =>
      rcases hcopy : SimulatedDma.copySlot (slots.headD 0) ring.slotBytes x.dma with ⟨result, d⟩
      obtain rfl := SimulatedDma.eq_of_copySlot hcopy
      simp only [workerStep, SimulatedDma.engine, hcopy] at h
      obtain rfl := Option.some.inj h
      exact ⟨hrunning, by simp⟩
  | releasing slots =>
      have hrelease : (SimulatedDma.release 1 x.dma).2.running = x.dma.running := by
        rw [SimulatedDma.release]
        split <;> rfl
      obtain rfl := Option.some.inj h
      exact ⟨hrelease ▸ hrunning, by simp⟩
  | stopping =>
      obtain rfl := Option.some.inj h
      cases hrunning
  | claiming slots | joining =>
      simp only [workerStep] at h
      split at h <;> cases h <;> exact ⟨hrunning, by simp⟩
  | closing =>
      simp only [workerStep] at h
      obtain rfl := Option.some.inj h
      refine ⟨?_, by simp⟩
      split at hrunning <;> exact hrunning
  | finished => cases h
  | _ =>
      obtain rfl := Option.some.inj h
      exact ⟨hrunning, by simp⟩

theorem running_of_loggerStep (hdma : setup.dma = SimulatedDma.engine)
    (h : run.loggerStep setup x = some y) : y.dma.running = x.dma.running := by
  obtain ⟨connection, sink, flags, ring, worker, logger⟩ := run
  obtain ⟨port, dma, scan, watch, stream⟩ := setup
  obtain rfl : dma = SimulatedDma.engine := hdma
  rcases logger with _ | point
  · cases h
  cases point with
  | taking | sending block =>
      simp only [loggerStep] at h
      split at h <;> obtain rfl := Option.some.inj h <;> rfl
  | finished => cases h
  | _ =>
      obtain rfl := Option.some.inj h
      rfl

end Run

namespace Bench

variable {setup : Setup β SimulatedDma} {acts : List (Act β SimulatedDma)}
  {act : Act β SimulatedDma} {b b' : Bench β SimulatedDma}

/-- An engine that runs has somebody left to stop it: a worker that has not come to that, or a start
that has no worker yet. -/
def Driven (b : Bench β SimulatedDma) : Prop :=
  b.instrument.dma.running = true →
    (∃ run, b.instrument.session.run = some run ∧ .stopping ∉ run.worker.tornDown) ∨
    ∃ (number : Nat) (id : ConnectionId) (point : StartPoint),
      b.calls[number]? = some (.start id point) ∧ point.ignited = true

/-- What a start leaves of an engine that runs after its step. -/
theorem running_of_start (hdma : setup.dma = SimulatedDma.engine) {id : ConnectionId}
    {point : StartPoint} {next : StartPoint × Bench β SimulatedDma}
    (hstep : point.step setup id b = some next)
    (hrunning : next.2.instrument.dma.running = true) :
    next.1.ignited = true ∨ b.instrument.dma.running = true ∧ point.ignited = false ∨
      ∃ sink, point = .spawning sink := by
  cases point with
  | arriving | claiming | taking | joining sink =>
      simp only [StartPoint.step] at hstep
      split at hstep <;> cases hstep <;> exact .inr (.inl ⟨hrunning, rfl⟩)
  | configuring sink =>
      refine .inr (.inl ⟨?_, rfl⟩)
      rw [← SimulatedDma.running_configure setup.stream.blockBytes]
      simp only [StartPoint.step, onDma, Instrument.onDma, hdma] at hstep
      split at hstep <;> rename_i hengine <;> obtain ⟨-, rfl⟩ := Prod.mk.inj hengine <;>
        cases hstep <;> exact hrunning
  | igniting sink =>
      simp only [StartPoint.step, onDma, Instrument.onDma, hdma] at hstep
      split at hstep <;> rename_i hengine <;> obtain ⟨hresult, rfl⟩ := Prod.mk.inj hengine <;>
        cases hstep
      · refine .inr (.inl ⟨?_, rfl⟩)
        rcases SimulatedDma.start_cases b.instrument.dma with ⟨e, hstart⟩ | ⟨-, hok⟩
        · have hsame : (SimulatedDma.start b.instrument.dma).2.running = true := hrunning
          rwa [hstart] at hsame
        · have hfailed : (SimulatedDma.start b.instrument.dma).1 = .error _ := hresult
          rw [hok] at hfailed
          cases hfailed
      · exact .inl rfl
  | spawning sink => exact .inr (.inr ⟨sink, rfl⟩)
  | halting cause =>
      obtain rfl := Option.some.inj hstep
      simp only [onDma, Instrument.onDma, hdma] at hrunning
      cases hrunning
  | restoring sink cause | yielding cause =>
      cases hstep
      exact .inr (.inl ⟨hrunning, rfl⟩)
  | returned failure => cases hstep

/-- A start that has the ADC and has not started the engine finds it stopped. -/
theorem Driven.stopped (h : Driven b) (hguard : Guarded b) (hsound : Sound acts b) {number : Nat}
    {id : ConnectionId} {point : StartPoint} (hcall : b.calls[number]? = some (.start id point))
    (hholds : point.holds = true) (hignited : point.ignited = false) :
    b.instrument.dma.running = false := by
  refine Bool.eq_false_iff.mpr fun hrunning => ?_
  rcases h hrunning with ⟨run, hrun, hstopping⟩ | ⟨other, id', point', hother, hignited'⟩
  · have hclaim : (Call.start id point).claim? = some id := by rw [Call.claim?, if_pos hholds]
    have hfinished := hsound.isFinished_of_claim hcall hclaim run
      (List.mem_of_getElem? (getElem?_runs_last hrun))
    rw [beq_iff_eq.mp hfinished] at hstopping
    exact hstopping (by decide)
  · obtain rfl := hguard.eq_of_inside hother
      (StartPoint.inside_of_holds (StartPoint.holds_of_ignited hignited')) hcall
      (StartPoint.inside_of_holds hholds)
    obtain ⟨-, rfl⟩ := Call.start.inj (Option.some.inj (hother.symm.trans hcall))
    rw [hignited] at hignited'
    cases hignited'

theorem driven_fresh (board : β) {dma : SimulatedDma} (hidle : dma.running = false) :
    (fresh board dma).Driven := by
  intro hrunning
  rw [fresh, Instrument.idle, hidle] at hrunning
  cases hrunning

/-- A start that has started the engine keeps it in hand until it hands it over or stops it. -/
theorem driven_of_ignited (hdma : setup.dma = SimulatedDma.engine) {number : Nat}
    {id : ConnectionId} {point : StartPoint} (hcall : b.calls[number]? = some (.start id point))
    (hignited : point.ignited = true) (hstep : b.step setup act = some b') : Driven b' := by
  by_cases hact : act.caller? = some number
  · cases act with
    | caller n call =>
        obtain rfl := Option.some.inj hact
        obtain rfl := Option.some.inj ((getElem?_of_caller hstep).symm.trans hcall)
        rw [Bench.step, if_pos hcall] at hstep
        obtain ⟨next, hnext, rfl⟩ := Option.map_eq_some_iff.mp hstep
        obtain ⟨next, hpoint, rfl⟩ := Option.map_eq_some_iff.mp hnext
        cases point with
        | spawning sink =>
            cases hpoint
            exact fun _ => .inl ⟨_, rfl, List.not_mem_nil⟩
        | halting cause =>
            cases hpoint
            intro hrunning
            simp only [onDma, Instrument.onDma, hdma] at hrunning
            cases hrunning
        | _ => cases hignited
    | noWorker n id' sink cause =>
        obtain rfl := Option.some.inj hact
        simp only [Bench.step] at hstep
        split at hstep
        · obtain ⟨hlt, -⟩ := List.getElem?_eq_some_iff.mp hcall
          cases hstep
          exact fun _ => .inr ⟨n, id', _, List.getElem?_set_self hlt, rfl⟩
        · cases hstep
    | _ => cases hact
  · exact fun _ => .inr ⟨number, id, point, getElem?_calls_of_step hstep hcall hact, hignited⟩

theorem Driven.step (h : Driven b) (hdma : setup.dma = SimulatedDma.engine) (hguard : Guarded b)
    (hsound : Sound acts b) (hnatural : act.Natural b.instrument.dma)
    (hstep : b.step setup act = some b') : Driven b' := by
  -- An engine that runs on is still that of a run which has not come to stopping it.
  have hruns (hrunning : b'.instrument.dma.running = true → b.instrument.dma.running = true)
      (hrun : ∀ run, b.instrument.session.run = some run → .stopping ∉ run.worker.tornDown →
        b'.instrument.dma.running = true →
        ∃ run', b'.instrument.session.run = some run' ∧ .stopping ∉ run'.worker.tornDown) :
      Driven b' := by
    by_cases hbefore : b.instrument.dma.running = true
    · rcases h hbefore with ⟨run, hlast, hstopping⟩ | ⟨number, id, point, hcall, hignited⟩
      · exact fun hafter => .inl (hrun run hlast hstopping hafter)
      · exact driven_of_ignited hdma hcall hignited hstep
    · exact fun hafter => absurd (hrunning hafter) hbefore
  cases hguard.turns hsound hstep with
  | still hstill =>
      exact hruns (hstill.dma ▸ id) fun run hrun hstopping _ =>
        ⟨run, hstill.run.trans hrun, hstopping⟩
  | flag _ _ _ hrun hrun' _ hengine =>
      refine hruns (hengine ▸ id) fun run hr hstopping _ => ⟨_, hrun', ?_⟩
      obtain rfl := Option.some.inj (hrun.symm.trans hr)
      exact hstopping
  | cancel _ _ _ hrun _ hengine =>
      refine hruns (fun hafter => ?_) fun run hr hstopping _ => ⟨run, hrun.trans hr, hstopping⟩
      rw [hengine, hdma] at hafter
      exact hafter
  | @drive number id point hact hcall hholds hrun =>
      subst hact
      cases hignited : point.ignited with
      | true => exact driven_of_ignited hdma hcall hignited hstep
      | false =>
          have hstopped := h.stopped hguard hsound hcall hholds hignited
          obtain ⟨hlt, -⟩ := List.getElem?_eq_some_iff.mp hcall
          rw [Bench.step, if_pos hcall] at hstep
          obtain ⟨next, hnext, rfl⟩ := Option.map_eq_some_iff.mp hstep
          obtain ⟨next, hpoint, rfl⟩ := Option.map_eq_some_iff.mp hnext
          have hcalls := (startPoint_cases hpoint).1
          intro hrunning
          rcases running_of_start hdma hpoint hrunning with hafter | ⟨hbefore, -⟩ | ⟨sink, rfl⟩
          · exact .inr ⟨number, id, next.1, by rw [hcalls]; exact List.getElem?_set_self hlt,
              hafter⟩
          · rw [hstopped] at hbefore
            cases hbefore
          · cases hignited
  | spawn _ _ _ hrun => exact fun _ => .inl ⟨_, hrun, List.not_mem_nil⟩
  | worker _ hrun hworker hb' =>
      subst hb'
      obtain ⟨run', hrun', -, hmoves⟩ := Run.moves_of_workerStep hworker
      refine hruns (fun hafter => (Run.running_of_workerStep hdma hworker hafter).1)
        fun run hr hstopping hafter => ⟨run', hrun', ?_⟩
      obtain rfl := Option.some.inj (hrun.symm.trans hr)
      rw [hmoves.tornDown, List.mem_append, not_or]
      refine ⟨hstopping, fun htearing => ?_⟩
      exact (Run.running_of_workerStep hdma hworker hafter).2
        (List.mem_singleton.mp (List.mem_filter.mp htearing).1).symm
  | logger _ hrun hpoint hlogger hb' =>
      subst hb'
      obtain ⟨run', hrun', -⟩ := Run.keeps_of_loggerStep (fun _ => True) hlogger
      have hworker := (Run.loggerStep_told hdma hlogger hrun').1
      refine hruns (fun hafter => (Run.running_of_loggerStep hdma hlogger).symm.trans hafter)
        fun run hr hstopping _ => ⟨run', hrun', ?_⟩
      obtain rfl := Option.some.inj (hrun.symm.trans hr)
      rwa [hworker]
  | abandon _ hrun _ hb' =>
      subst hb'
      exact hruns id fun run hr hstopping _ => ⟨_, rfl, by simp [Run.abandon, WorkerPoint.tornDown]⟩
  | hardware hact hrun _ hengine =>
      subst hact hengine
      exact hruns (fun hafter => (SimulatedDma.Drifts.running hnatural).symm.trans hafter)
        fun run hr hstopping _ => ⟨run, hrun.trans hr, hstopping⟩

end Bench

end DaqServer
