import DaqServer.Proofs.Stream.Pump
import DaqServer.Proofs.Stream.Turns

/-!
# Stops that hit and stops that are over

A stop sets a flag and ends a wait, in two steps, and the worker may stand anywhere between its look
at the flag and the wait. Main statement, over the simulated engine: a stop that finds a session
active tells that session to end, whose worker waits no more; and a session that begins when a stop
is over is not touched by it.
-/

namespace DaqServer

/-- What a start at a point has made of the engine: slots of the right size, and once it is started
no cancel is pending. -/
def StartPoint.Primed (bytes : Nat) (d : SimulatedDma) : StartPoint → Prop
  | igniting _ => d.Sized bytes
  | spawning _ => d.Sized bytes ∧ d.cancelPending = false
  | _ => True

theorem StartPoint.Primed.drifts {bytes : Nat} {d d' : SimulatedDma} {point : StartPoint}
    (h : point.Primed bytes d) (hd : d.Drifts d') : point.Primed bytes d' := by
  cases point with
  | igniting sink => exact SimulatedDma.Sized.drifts h hd
  | spawning sink => exact ⟨h.1.drifts hd, hd.cancelPending.trans h.2⟩
  | _ => trivial

/-- An act that does nothing to the engine from outside: what the hardware does to it is what the
engine does by itself. -/
def Act.Natural {β : Type} (d : SimulatedDma) : Act β SimulatedDma → Prop
  | .hardware _ dma => d.Drifts dma
  | _ => True

/-- Whether a stop is about to tell the last session to end, or to end its wait. -/
def StopPoint.strikes : StopPoint → Bool
  | flagging _ | cancelling _ => true
  | _ => false

/-- Whether an act may end a session: a stop strikes, the logger of the session finds its peer gone,
or there is no thread for its logger. -/
def Act.ends {β δ : Type} (session : Nat) : Act β δ → Bool
  | caller _ c => c.stopPoint?.any StopPoint.strikes
  | logger run .failing => run == session
  | noLogger run => run == session
  | _ => false

theorem Act.ends_of_stopPoint? {β δ : Type} {act : Act β δ} {point : StopPoint}
    (h : act.stopPoint? = some point) (session : Nat) : act.ends session = point.strikes := by
  cases act with
  | caller number c =>
      replace h : c.stopPoint? = some point := h
      rw [ends, h, Option.any_some]
  | _ => cases h

namespace Bench

variable {β : Type} {setup : Setup β SimulatedDma} {acts : List (Act β SimulatedDma)}
  {act : Act β SimulatedDma} {b b' : Bench β SimulatedDma}

/-- All acts leave the engine to itself and to the sessions. -/
def Natural (setup : Setup β SimulatedDma) :
    List (Act β SimulatedDma) → Bench β SimulatedDma → Prop
  | [], _ => True
  | act :: acts, b =>
      act.Natural b.instrument.dma ∧ ∀ b' ∈ b.step setup act, Natural setup acts b'

theorem natural_append {acts' : List (Act β SimulatedDma)} {x : Bench β SimulatedDma}
    (hrun : run setup acts b = some x) :
    Natural setup (acts ++ acts') b ↔ Natural setup acts b ∧ Natural setup acts' x := by
  induction acts generalizing b with
  | nil =>
      obtain rfl := Option.some.inj hrun
      exact ⟨fun h => ⟨trivial, h⟩, fun h => h.2⟩
  | cons act acts ih =>
      obtain ⟨y, hstep, hrun⟩ := Option.bind_eq_some_iff.mp hrun
      have hnext (P : Bench β SimulatedDma → Prop) : (∀ b' ∈ b.step setup act, P b') ↔ P y :=
        ⟨fun h => h y hstep, fun h b' hb' => Option.some.inj (hstep.symm.trans hb') ▸ h⟩
      rw [List.cons_append, Natural, Natural, hnext, hnext, ih hrun, and_assoc]

/-- Where the hardware does nothing by itself, it does nothing that the engine would not do. -/
theorem natural_of_callers (h : ∀ act ∈ acts, ∀ board dma, act ≠ .hardware board dma)
    (b : Bench β SimulatedDma) : Natural setup acts b := by
  induction acts generalizing b with
  | nil => trivial
  | cons act acts ih =>
      refine ⟨?_, fun b' _ => ih (fun act hmem => h act (.tail _ hmem)) b'⟩
      cases act with
      | hardware board dma => exact absurd rfl (h _ List.mem_cons_self board dma)
      | _ => trivial

/-- Every start that has set up the engine finds it as it left it. -/
def Primed (setup : Setup β SimulatedDma) (b : Bench β SimulatedDma) : Prop :=
  ∀ (number : Nat) id point, b.calls[number]? = some (Call.start id point) →
    point.Primed setup.stream.blockBytes b.instrument.dma

/-- While a start holds the ADC and does nothing, the engine is left alone. -/
theorem drifts_of_start (hguard : Guarded b) (hsound : Sound acts b)
    (hnatural : act.Natural b.instrument.dma) (hstep : b.step setup act = some b') {number : Nat}
    {id : ConnectionId} {point : StartPoint} (hcall : b.calls[number]? = some (.start id point))
    (hholds : point.holds = true)
    (hact : act.caller? ≠ some number) : b.instrument.dma.Drifts b'.instrument.dma := by
  have hsame {d : SimulatedDma} (hd : d = b.instrument.dma) : b.instrument.dma.Drifts d :=
    hd ▸ .rest
  have hinside : (Call.start id point).inside = true := StartPoint.inside_of_holds hholds
  have hover : ∀ run, b.instrument.session.run = some run → run.isFinished = true := by
    have hclaim : (Call.start id point).claim? = some id := by rw [Call.claim?, if_pos hholds]
    exact fun run hrun => hsound.isFinished_of_claim hcall hclaim run
      (List.mem_of_getElem? (getElem?_runs_last hrun))
  have hordered : ∀ run, b.instrument.session.run = some run → run.Ordered :=
    fun run hrun => hsound.ordered run (List.mem_of_getElem? (getElem?_runs_last hrun))
  cases hguard.turns hsound hstep with
  | still hstill => exact hsame hstill.dma
  | flag _ _ _ _ _ _ hengine | spawn _ _ _ _ hengine => exact hsame hengine
  | cancel hact' hother hpoint =>
      -- Only one call is inside the lock, and it is the start.
      obtain rfl := hguard.eq_of_inside hother (Call.inside_of_stopPoint? hpoint) hcall hinside
      obtain rfl := Option.some.inj (hother.symm.trans hcall)
      cases hpoint
  | drive hact' hother hholds' =>
      subst hact'
      obtain rfl := hguard.eq_of_inside hother (StartPoint.inside_of_holds hholds') hcall hinside
      exact absurd rfl hact
  | worker _ hrun hworker =>
      rw [Run.workerStep_of_isFinished (hover _ hrun)] at hworker
      cases hworker
  | logger _ hrun _ hlogger =>
      rw [Run.loggerStep_of_isFinished (hover _ hrun) (hordered _ hrun)] at hlogger
      cases hlogger
  | abandon _ _ _ hb' =>
      subst hb'
      exact .rest
  | hardware hact' _ _ hengine =>
      subst hact' hengine
      exact hnatural

/-- A start sets up the engine before it starts it. -/
theorem primed_of_start (hdma : setup.dma = SimulatedDma.engine) {id : ConnectionId}
    {point : StartPoint} {next : StartPoint × Bench β SimulatedDma}
    (hstep : point.step setup id b = some next)
    (hprimed : point.Primed setup.stream.blockBytes b.instrument.dma) :
    next.1.Primed setup.stream.blockBytes next.2.instrument.dma := by
  cases point with
  | arriving =>
      simp only [StartPoint.step] at hstep
      split at hstep <;> cases hstep
      trivial
  | claiming | taking =>
      simp only [StartPoint.step] at hstep
      split at hstep <;> cases hstep <;> trivial
  | joining sink =>
      simp only [StartPoint.step] at hstep
      split at hstep <;> cases hstep
      trivial
  | configuring sink =>
      simp only [StartPoint.step, onDma, Instrument.onDma, hdma] at hstep
      split at hstep <;> rename_i hengine <;> obtain ⟨hresult, rfl⟩ := Prod.mk.inj hengine <;>
        cases hstep
      · trivial
      · exact SimulatedDma.sized_of_configure (Prod.ext hresult rfl)
  | igniting sink =>
      simp only [StartPoint.step, onDma, Instrument.onDma, hdma] at hstep
      split at hstep <;> rename_i hengine <;> obtain ⟨hresult, rfl⟩ := Prod.mk.inj hengine <;>
        cases hstep
      · trivial
      · exact SimulatedDma.sized_of_start hprimed (Prod.ext hresult rfl)
  | spawning sink | halting cause | restoring sink cause | yielding cause =>
      cases hstep
      trivial
  | returned failure => cases hstep

theorem Primed.step (h : Primed setup b) (hdma : setup.dma = SimulatedDma.engine)
    (hguard : Guarded b) (hsound : Sound acts b) (hnatural : act.Natural b.instrument.dma)
    (hstep : b.step setup act = some b') : Primed setup b' := by
  intro number id point hcall
  -- A start that has not moved finds what it found before.
  have hrests (hcall : b.calls[number]? = some (Call.start id point))
      (hact : act.caller? ≠ some number) :
      point.Primed setup.stream.blockBytes b'.instrument.dma := by
    cases hholds : point.holds with
    | true =>
        exact (h number id point hcall).drifts
          (drifts_of_start hguard hsound hnatural hstep hcall hholds hact)
    | false =>
        cases point with
        | arriving | claiming | returned => trivial
        | _ => cases hholds
  cases calls_of_step hstep with
  | same hact hcalls => exact hrests (hcalls ▸ hcall) (hact ▸ nofun)
  | new hact hnew hcalls =>
      subst hact
      rw [hcalls] at hcall
      rcases Nat.lt_or_ge number b.calls.length with hlt | hge
      · rw [List.getElem?_append_left hlt] at hcall
        exact hrests hcall nofun
      · rw [List.getElem?_append_right hge, List.getElem?_singleton] at hcall
        split at hcall
        · obtain rfl := Option.some.inj hcall
          cases point with
          | arriving => trivial
          | _ => cases hnew
        · cases hcall
  | @moves moved call next hact hmoved hcallStep hb' =>
      subst hact hb'
      dsimp only at hcall
      rcases eq_or_ne moved number with rfl | hne
      · obtain ⟨hlt, -⟩ := List.getElem?_eq_some_iff.mp hmoved
        rw [List.getElem?_set_self hlt] at hcall
        obtain ⟨next, y⟩ := next
        obtain rfl := Option.some.inj hcall
        cases call with
        | start id' point' =>
            obtain ⟨next, hpoint, hnext⟩ := Option.map_eq_some_iff.mp hcallStep
            cases hnext
            exact primed_of_start hdma hpoint (h moved _ _ hmoved)
        | stop | detach | close | join =>
            obtain ⟨next, -, hnext⟩ := Option.map_eq_some_iff.mp hcallStep
            cases hnext
      · rw [List.getElem?_set_ne hne] at hcall
        exact hrests hcall (by simpa [Act.caller?] using hne)
  | @fails moved _ _ _ hact hmoved hb' =>
      subst hact hb'
      dsimp only at hcall
      rcases eq_or_ne moved number with rfl | hne
      · obtain ⟨hlt, -⟩ := List.getElem?_eq_some_iff.mp hmoved
        rw [List.getElem?_set_self hlt] at hcall
        cases hcall
        trivial
      · rw [List.getElem?_set_ne hne] at hcall
        exact hrests hcall (by simpa [Act.caller?] using hne)

/-- What is true over the simulated engine after acts on a fresh bench that leave the engine to
itself. -/
structure Kept (setup : Setup β SimulatedDma) (acts : List (Act β SimulatedDma))
    (b : Bench β SimulatedDma) : Prop where
  sound : Sound acts b
  guarded : Guarded b
  primed : Primed setup b

theorem kept_fresh (setup : Setup β SimulatedDma) (board : β) (dma : SimulatedDma) :
    Kept setup [] (fresh board dma) := ⟨sound_fresh board dma, guarded_fresh board dma, nofun⟩

theorem Kept.step (h : Kept setup acts b) (hdma : setup.dma = SimulatedDma.engine)
    (hnatural : act.Natural b.instrument.dma) (hstep : b.step setup act = some b') :
    Kept setup (acts ++ [act]) b' where
  sound := h.sound.step hstep
  guarded := h.guarded.step h.sound hstep
  primed := h.primed.step hdma h.guarded h.sound hnatural hstep

/-- What one act keeps of a bench, as far as the act is one that may be taken, is kept by a run of
such acts. -/
theorem Kept.run_induction {acts' : List (Act β SimulatedDma)} (h : Kept setup acts b)
    (hdma : setup.dma = SimulatedDma.engine) (hnatural : Natural setup acts' b)
    (hrun : run setup acts' b = some b') {P : Bench β SimulatedDma → Prop}
    (hP : ∀ {past : List (Act β SimulatedDma)} {x y : Bench β SimulatedDma},
      ∀ act ∈ acts', Kept setup past x → act.Natural x.instrument.dma →
        x.step setup act = some y → P x → P y) (hb : P b) :
    Kept setup (acts ++ acts') b' ∧ P b' := by
  induction acts' generalizing acts b with
  | nil =>
      obtain rfl := Option.some.inj hrun
      exact ⟨(List.append_nil acts).symm ▸ h, hb⟩
  | cons act acts' ih =>
      obtain ⟨x, hstep, hrun⟩ := Option.bind_eq_some_iff.mp hrun
      obtain ⟨hact, hnatural⟩ := hnatural
      have hnext := ih (h.step hdma hact hstep) (hnatural x hstep) hrun
        (fun act hmem => hP act (.tail _ hmem)) (hP act List.mem_cons_self h hact hstep hb)
      rwa [List.append_assoc] at hnext

theorem Kept.run {acts' : List (Act β SimulatedDma)} (h : Kept setup acts b)
    (hdma : setup.dma = SimulatedDma.engine) (hnatural : Natural setup acts' b)
    (hrun : run setup acts' b = some b') : Kept setup (acts ++ acts') b' :=
  (h.run_induction hdma hnatural hrun (P := fun _ => True) (fun _ _ _ _ _ _ => trivial) trivial).1

/-! ### A stop that finds a session -/

/-- The session of a number has been told to end if it still pumps, and its wait is cancelled if the
stop has come so far. -/
structure Told (number : Nat) (cancelled : Prop) (b : Bench β SimulatedDma) : Prop where
  begun : number < b.runs.length
  told : ∀ run, b.runs[number]? = some run → run.worker.pumping = true →
    run.flags.terminate = true ∧ (cancelled → b.instrument.dma.cancelPending = true)

theorem Told.step {number : Nat} {cancelled : Prop} (h : Told number cancelled b)
    (hdma : setup.dma = SimulatedDma.engine) (hkept : Kept setup acts b)
    (hnatural : act.Natural b.instrument.dma) (hstep : b.step setup act = some b') :
    Told number cancelled b' := by
  have hmoves := moves_of_step hkept.sound.ordered hstep
  refine ⟨by rw [hmoves.length_runs]; exact Nat.lt_add_right _ h.begun,
    fun run' hrun' hpumping => ?_⟩
  obtain ⟨run, hrun⟩ : ∃ run, b.runs[number]? = some run :=
    ⟨_, List.getElem?_eq_getElem h.begun⟩
  have hunfinished : run.isFinished = false := by
    refine Bool.eq_false_iff.mpr fun hfinished => ?_
    have hover := (hmoves.isFinished (fun _ hr => Option.some.inj (hrun.symm.trans hr) ▸ hfinished)
      h.begun).2 run' hrun'
    rw [Run.isFinished_of_pumping hpumping] at hover
    cases hover
  obtain ⟨next, hnext, htends⟩ := hkept.guarded.tends hkept.sound hstep hrun hunfinished
  obtain rfl := Option.some.inj (hnext.symm.trans hrun')
  cases htends with
  | still hengine =>
      rw [hengine]
      exact h.told run hrun hpumping
  | hardware hact hengine =>
      subst hact hengine
      obtain ⟨hterminate, hcancel⟩ := h.told run hrun hpumping
      exact ⟨hterminate, fun hc => (SimulatedDma.Drifts.cancelPending hnatural).trans (hcancel hc)⟩
  | flag _ hengine =>
      rw [hengine]
      exact ⟨rfl, (h.told run hrun hpumping).2⟩
  | cancel _ hengine =>
      rw [hengine, hdma]
      exact ⟨(h.told run hrun hpumping).1, fun _ => rfl⟩
  | worker _ hworker hlast =>
      obtain ⟨hbefore, hflags, hcancel⟩ := Run.workerStep_pumping hdma hworker hlast hpumping
      rw [hflags, hcancel]
      exact h.told run hrun hbefore
  | logger _ _ hlogger hlast =>
      obtain ⟨hworker, hflags, hcancel⟩ := Run.loggerStep_told hdma hlogger hlast
      rw [hworker] at hpumping
      obtain ⟨hterminate, hpending⟩ := h.told run hrun hpumping
      exact ⟨hflags hterminate, fun hc => hcancel (hpending hc)⟩
  | abandon => cases hpumping

/-- A call stands where it stood in an earlier bench, and no session was begun since. -/
structure Stands (number : Nat) (call : Call) (x b : Bench β SimulatedDma) : Prop where
  call : b.calls[number]? = some call
  earlier : b.earlier.length = x.earlier.length
  run : b.instrument.session.run.isSome = x.instrument.session.run.isSome

/-- As long as a stop is inside the lock, no session is begun. -/
theorem Stands.step {number : Nat} {call : Call} {x : Bench β SimulatedDma}
    (h : Stands number call x b) {point : StopPoint} (hpoint : call.stopPoint? = some point)
    (hinside : point.inside = true) (hkept : Kept setup acts b)
    (hstep : b.step setup act = some b') (hact : act.caller? ≠ some number) :
    Stands number call x b' := by
  have hcall := getElem?_calls_of_step hstep h.call hact
  cases hkept.guarded.turns hkept.sound hstep with
  | still hstill => exact ⟨hcall, hstill.earlier ▸ h.earlier, hstill.run ▸ h.run⟩
  | flag _ _ _ hrun hrun' hearlier =>
      exact ⟨hcall, hearlier ▸ h.earlier, by rw [hrun', ← h.run, hrun]; rfl⟩
  | cancel _ _ _ hrun hearlier | drive _ _ _ hrun hearlier | hardware _ hrun hearlier =>
      exact ⟨hcall, hearlier ▸ h.earlier, hrun ▸ h.run⟩
  | spawn _ hother =>
      obtain rfl := hkept.guarded.eq_of_inside hother rfl h.call
        ((Call.inside_of_stopPoint? hpoint).trans hinside)
      obtain rfl := Option.some.inj (hother.symm.trans h.call)
      cases hpoint
  | worker _ hrun hworker hb' =>
      obtain ⟨run', hrun', -⟩ := Run.moves_of_workerStep hworker
      subst hb'
      exact ⟨hcall, h.earlier, by rw [hrun', ← h.run, hrun]; rfl⟩
  | logger _ hrun _ hlogger hb' =>
      obtain ⟨run', hrun', -⟩ := Run.keeps_of_loggerStep (fun _ => True) hlogger
      subst hb'
      exact ⟨hcall, h.earlier, by rw [hrun', ← h.run, hrun]; rfl⟩
  | abandon _ hrun _ hb' =>
      subst hb'
      exact ⟨hcall, h.earlier, by rw [← h.run, hrun]; rfl⟩

/-- A stop takes its step in whatever call it is part of. -/
theorem stop_of_caller {number : Nat} {call : Call} {point : StopPoint}
    {next : StopPoint × Bench β SimulatedDma} (h : b.step setup (.caller number call) = some b')
    (hpoint : call.stopPoint? = some point) (hnext : point.step setup b = some next) :
    ∃ call', b'.calls[number]? = some call' ∧ call'.stopPoint? = some next.1 ∧
      b'.instrument = next.2.instrument ∧ b'.earlier = next.2.earlier := by
  have hwrap : ∃ call', call.step setup b = some (call', next.2) ∧
      call'.stopPoint? = some next.1 := by
    cases call with
    | stop point' =>
        obtain rfl := Option.some.inj hpoint
        exact ⟨_, congrArg (Option.map _) hnext, rfl⟩
    | detach id point' =>
        cases point' with
        | stopping point' =>
            obtain rfl := Option.some.inj hpoint
            exact ⟨_, by rw [Call.step, DetachPoint.step, hnext]; rfl, rfl⟩
        | _ => cases hpoint
    | close point' =>
        cases point' with
        | stopping point' =>
            obtain rfl := Option.some.inj hpoint
            refine ⟨.close (.stopping next.1), ?_, rfl⟩
            cases point' with
            | returned active => cases hnext
            | arriving | looking | flagging active | cancelling active =>
                simp only [Call.step, ClosePoint.step, hnext, Option.map_some]
        | _ => cases hpoint
    | start | join => cases hpoint
  obtain ⟨call', hstep, hpoint'⟩ := hwrap
  obtain ⟨hlt, -⟩ := List.getElem?_eq_some_iff.mp (getElem?_of_caller h)
  cases calls_of_step h with
  | same hact => cases hact
  | new hact => cases hact
  | moves hact _ hmoves hb' =>
      cases hact
      obtain rfl := Option.some.inj (hmoves.symm.trans hstep)
      rw [hb']
      exact ⟨call', List.getElem?_set_self hlt, hpoint', rfl, rfl⟩
  | fails hact => cases hact

/-- Whoever looks from inside the lock finds the ADC with the last session, if with anyone. -/
theorem Kept.session_of_owner (h : Kept setup acts b) {number : Nat} {call : Call}
    {point : StopPoint} (hcall : b.calls[number]? = some call)
    (hpoint : call.stopPoint? = some point) (hinside : point.inside = true) {id : ConnectionId}
    (howner : b.instrument.arbiter.streamingOwner = some id) :
    ∃ run, b.instrument.session.run = some run ∧ run.isFinished = false ∧
      run.connection = id := by
  have hmem : id ∈ b.holders := by
    rw [h.sound.holders_eq, howner]
    exact List.mem_singleton_self id
  rcases List.mem_append.mp hmem with hrun | hstart
  · obtain ⟨run, hmem, hclaim⟩ := List.mem_filterMap.mp hrun
    rw [Run.claim?] at hclaim
    split at hclaim
    · cases hclaim
    · rename_i hunfinished
      obtain ⟨session, hget⟩ := List.mem_iff_getElem?.mp hmem
      have hunfinished := Bool.eq_false_iff.mpr hunfinished
      exact ⟨run, (h.guarded.last hget hunfinished).2, hunfinished, Option.some.inj hclaim⟩
  · -- A start with a claim would be inside the lock as well.
    obtain ⟨other, hmem, hclaim⟩ := List.mem_filterMap.mp hstart
    obtain ⟨m, hother⟩ := List.mem_iff_getElem?.mp hmem
    cases other with
    | start id' point' =>
        rw [Call.claim?] at hclaim
        split at hclaim
        · obtain rfl := h.guarded.eq_of_inside hother (StartPoint.inside_of_holds ‹_›) hcall
            ((Call.inside_of_stopPoint? hpoint).trans hinside)
          obtain rfl := Option.some.inj (hother.symm.trans hcall)
          cases hpoint
        · cases hclaim
    | stop | detach | close | join => cases hclaim

/-- A worker that has been told to end does not wait. -/
theorem Told.ends {session : Nat} {cancelled : Prop} (h : Told session cancelled b)
    (hdma : setup.dma = SimulatedDma.engine) (hcancelled : cancelled) (hguard : Guarded b)
    {run : Run} (hrun : b.runs[session]? = some run)
    (hworker : run.worker = .waiting) :
    ∃ b', b.step setup (.worker session .waiting) = some b' ∧
      b'.runs[session]? = some { run with worker := .ending } := by
  have hpumping : run.worker.pumping = true := hworker ▸ rfl
  obtain ⟨rfl, hlast⟩ := hguard.last hrun (Run.isFinished_of_pumping hpumping)
  obtain ⟨y, hstep, hnext⟩ := Run.workerStep_of_cancelPending (x := b.instrument) hdma hworker
    ((h.told run hrun hpumping).2 hcancelled)
  refine ⟨{ b with instrument := y }, ?_, ?_⟩
  · rw [Bench.step, onRun, List.getElem?_eq_none (Nat.le_refl _)]
    dsimp only
    rw [if_pos rfl, hlast, Option.bind_some, if_pos hworker, hstep]
    rfl
  · exact getElem?_runs_last (b := { b with instrument := y }) hnext

/-- What a stop in progress has done, from its look to the flag that it sets. -/
theorem told_of_flag {x y z : Bench β SimulatedDma} {number : Nat} {call : Call}
    (hstands : Stands number call x y)
    (hpoint : call.stopPoint? = some (.flagging true))
    (hrun : x.instrument.session.run.isSome = true)
    (hstep : y.step setup (.caller number call) = some z) :
    ∃ run cancel, y.runs[x.earlier.length]? = some run ∧
      z.runs = y.runs.set x.earlier.length run.terminate ∧ z.calls[number]? = some cancel ∧
      cancel.stopPoint? = some (.cancelling true) ∧ Told x.earlier.length False z := by
  obtain ⟨run, hlast⟩ := Option.isSome_iff_exists.mp (hstands.run.trans hrun)
  have hnext : StopPoint.step setup y (.flagging true) =
      some (.cancelling true, y.on (·.setRun run.terminate)) := by
    simp only [StopPoint.step, hlast]
  obtain ⟨cancel, hcancel, hcancelling, hinstrument, hearlier⟩ :=
    stop_of_caller hstep hpoint hnext
  have hget : y.runs[x.earlier.length]? = some run := hstands.earlier ▸ getElem?_runs_last hlast
  have hruns : z.runs = y.runs.set x.earlier.length run.terminate := by
    rw [runs, runs, hinstrument, hearlier, hlast, ← hstands.earlier,
      List.set_append_right _ _ (Nat.le_refl _), Nat.sub_self]
    rfl
  obtain ⟨hlt, -⟩ := List.getElem?_eq_some_iff.mp hget
  refine ⟨run, cancel, hget, hruns, hcancel, hcancelling, ?_, fun run' hrun' _ => ⟨?_, False.elim⟩⟩
  · rwa [hruns, List.length_set]
  · rw [hruns, List.getElem?_set_self hlt] at hrun'
    exact Option.some.inj hrun' ▸ rfl

/-- With the step that ends the wait the stop has done all it does. -/
theorem Told.cancel {session number : Nat} {call : Call} (h : Told session False b)
    (hdma : setup.dma = SimulatedDma.engine) (hkept : Kept setup acts b)
    (hpoint : call.stopPoint? = some (.cancelling true))
    (hstep : b.step setup (.caller number call) = some b') : Told session True b' := by
  have hact : (Act.caller number call : Act β SimulatedDma).Natural b.instrument.dma := trivial
  have htold := h.step hdma hkept hact hstep
  obtain ⟨-, -, -, hinstrument, -⟩ := stop_of_caller hstep hpoint rfl
  refine ⟨htold.begun, fun run hrun hpumping => ⟨(htold.told run hrun hpumping).1, fun _ => ?_⟩⟩
  rw [hinstrument]
  exact congrArg (fun engine => (engine.cancel b.instrument.dma).cancelPending) hdma

theorem Told.run {acts' : List (Act β SimulatedDma)} {session : Nat} {cancelled : Prop}
    (h : Told session cancelled b) (hdma : setup.dma = SimulatedDma.engine)
    (hkept : Kept setup acts b) (hnatural : Natural setup acts' b)
    (hrun : Bench.run setup acts' b = some b') : Told session cancelled b' :=
  (hkept.run_induction hdma hnatural hrun
    (fun _ _ hkept hact hstep htold => htold.step hdma hkept hact hstep) h).2

theorem Told.run_of_mem {acts' : List (Act β SimulatedDma)} {session number : Nat} {call : Call}
    (h : Told session False b) (hdma : setup.dma = SimulatedDma.engine)
    (hkept : Kept setup acts b) (hnatural : Natural setup acts' b)
    (hrun : Bench.run setup acts' b = some b')
    (hpoint : call.stopPoint? = some (.cancelling true)) :
    Told session (.caller number call ∈ acts') b' := by
  have htold := h.run hdma hkept hnatural hrun
  refine ⟨htold.begun, fun run hget hpumping =>
    ⟨(htold.told run hget hpumping).1, fun hmem => ?_⟩⟩
  obtain ⟨past, future, rfl⟩ := List.append_of_mem hmem
  rw [run_append] at hrun
  obtain ⟨x, hx, hfuture⟩ := Option.bind_eq_some_iff.mp hrun
  obtain ⟨y, hstep, hfuture⟩ := Option.bind_eq_some_iff.mp hfuture
  obtain ⟨hpast, hact, hnatural⟩ := (natural_append hx).mp hnatural
  have hpast' := hkept.run hdma hpast hx
  have hcancelled := ((h.run hdma hkept hpast hx).cancel hdma hpast' hpoint hstep).run hdma
    (hpast'.step hdma hact hstep) (hnatural y hstep) hfuture
  exact (hcancelled.told run hget hpumping).2 trivial

/-- A stop that is going to return that there was a session has told that session to end. -/
theorem stop_hits {board : β} {dma : SimulatedDma} (hdma : setup.dma = SimulatedDma.engine)
    {number : Nat} {look flag : Call} {before between later : List (Act β SimulatedDma)}
    (hrun : run setup (before ++ .caller number look :: between ++ .caller number flag :: later)
      (fresh board dma) = some b)
    (hnatural : Natural setup
      (before ++ .caller number look :: between ++ .caller number flag :: later)
      (fresh board dma))
    (hlook : look.stopPoint? = some .looking) (hflag : flag.stopPoint? = some (.flagging true))
    (hbetween : ∀ act ∈ between, act.caller? ≠ some number) :
    ∃ x y z session run run' cancel,
      Bench.run setup before (fresh board dma) = some x ∧
      x.runs[session]? = some run ∧ run.isFinished = false ∧
      x.instrument.arbiter.streamingOwner = some run.connection ∧
      Bench.run setup (before ++ .caller number look :: between) (fresh board dma) = some y ∧
      y.step setup (.caller number flag) = some z ∧
      y.runs[session]? = some run' ∧ z.runs = y.runs.set session run'.terminate ∧
      z.calls[number]? = some cancel ∧ cancel.stopPoint? = some (.cancelling true) ∧
      Told session (.caller number cancel ∈ later) b := by
  rw [run_append] at hrun
  obtain ⟨y, hy, hlater⟩ := Option.bind_eq_some_iff.mp hrun
  obtain ⟨z, hstep, hlater⟩ := Option.bind_eq_some_iff.mp hlater
  obtain ⟨hnatural, hact, hnatural'⟩ := (natural_append hy).mp hnatural
  have hy' := hy
  rw [run_append] at hy'
  obtain ⟨x, hx, hbetween'⟩ := Option.bind_eq_some_iff.mp hy'
  obtain ⟨w, hlooked, hbetween'⟩ := Option.bind_eq_some_iff.mp hbetween'
  obtain ⟨hnatural, hact', hnatural''⟩ := (natural_append hx).mp hnatural
  have hkept := (kept_fresh setup board dma).run hdma hnatural hx
  have hcall := getElem?_of_caller hlooked
  obtain ⟨call, hcall', hpoint, hinstrument, hearlier⟩ := stop_of_caller hlooked hlook rfl
  obtain ⟨hkept', hstands⟩ := (hkept.step hdma hact' hlooked).run_induction hdma
    (hnatural'' w hlooked) hbetween' (P := Stands number call x)
    (fun act hmem hkept _ hstep hstands =>
      hstands.step hpoint rfl hkept hstep (hbetween act hmem))
    ⟨hcall', congrArg List.length hearlier, by rw [hinstrument]⟩
  obtain rfl := Option.some.inj ((getElem?_of_caller hstep).symm.trans hstands.call)
  have hactive : x.instrument.arbiter.streamingOwner.isSome = true := by
    rw [hflag] at hpoint
    exact (StopPoint.flagging.inj (Option.some.inj hpoint)).symm
  obtain ⟨id, howner⟩ := Option.isSome_iff_exists.mp hactive
  obtain ⟨run, hlast, hunfinished, rfl⟩ := hkept.session_of_owner hcall hlook rfl howner
  obtain ⟨run', cancel, hget, hruns, hcancel, hcancelling, htold⟩ :=
    told_of_flag hstands hflag (hlast ▸ rfl) hstep
  refine ⟨x, y, z, x.earlier.length, run, run', cancel, hx, getElem?_runs_last hlast, hunfinished,
    howner, hy, hstep, hget, hruns, hcancel, hcancelling, ?_⟩
  exact htold.run_of_mem hdma (hkept'.step hdma hact hstep) (hnatural' z hstep) hlater hcancelling

/-! ### A session that begins when stops are over -/

/-- Nobody ends a session before the first act that may end it. -/
theorem goes_on {session : Nat} (hdma : setup.dma = SimulatedDma.engine)
    (hkept : Kept setup acts b) (hnatural : act.Natural b.instrument.dma)
    (hstep : b.step setup act = some b') (hends : act.ends session = false) {id : ConnectionId}
    {bytes : Nat} (h : ∃ run, b.runs[session]? = some run ∧ run.connection = id ∧
      run.Pumps bytes b.instrument.dma) :
    ∃ run, b'.runs[session]? = some run ∧ run.connection = id ∧
      run.Pumps bytes b'.instrument.dma := by
  obtain ⟨run, hrun, hid, hpumps⟩ := h
  obtain ⟨run', hrun', htends⟩ := hkept.guarded.tends hkept.sound hstep hrun
    (Run.isFinished_of_pumping hpumps.pumping)
  have hordered := hkept.sound.ordered run (List.mem_of_getElem? hrun)
  refine ⟨run', hrun', (htends.connection hordered).trans hid, ?_⟩
  cases htends with
  | still hengine => rwa [hengine]
  | hardware hact hengine =>
      subst hact hengine
      exact hpumps.drifts hnatural
  | flag hpoint | cancel hpoint =>
      rw [Act.ends_of_stopPoint? hpoint] at hends
      cases hends
  | worker _ hworker hlast =>
      obtain ⟨next, hnext, hpumps⟩ := hpumps.workerStep hdma hworker
      exact Option.some.inj (hnext.symm.trans hlast) ▸ hpumps
  | logger hact hpoint hlogger hlast =>
      have hpeer : run.logger ≠ some .failing := by
        rintro hfailing
        obtain rfl := Option.some.inj (hpoint.symm.trans hfailing)
        rw [hact, Act.ends, beq_self_eq_true] at hends
        cases hends
      obtain ⟨next, hnext, hpumps⟩ := hpumps.loggerStep hlogger hpeer
      exact Option.some.inj (hnext.symm.trans hlast) ▸ hpumps
  | abandon hact =>
      rw [hact, Act.ends, beq_self_eq_true] at hends
      cases hends

/-- A session begins untouched, whatever stops and sessions there were, and goes on so. -/
theorem stale_stop_misses {board : β} {dma : SimulatedDma}
    (hdma : setup.dma = SimulatedDma.engine) {number : Nat} {id : ConnectionId} {sink : SinkId}
    {past future : List (Act β SimulatedDma)}
    (hrun : run setup (past ++ .caller number (.start id (.spawning sink)) :: future)
      (fresh board dma) = some b)
    (hnatural : Natural setup (past ++ .caller number (.start id (.spawning sink)) :: future)
      (fresh board dma))
    (hends : ∀ act ∈ future, act.ends (past.countP Act.spawns) = false) :
    ∃ run, b.runs[past.countP Act.spawns]? = some run ∧ run.connection = id ∧
      run.Pumps setup.stream.blockBytes b.instrument.dma := by
  rw [run_append] at hrun
  obtain ⟨x, hx, hfuture⟩ := Option.bind_eq_some_iff.mp hrun
  obtain ⟨y, hstep, hfuture⟩ := Option.bind_eq_some_iff.mp hfuture
  obtain ⟨hnatural, hact, hnatural'⟩ := (natural_append hx).mp hnatural
  have hkept := (kept_fresh setup board dma).run hdma hnatural hx
  have hlength : past.countP Act.spawns = x.runs.length := hkept.sound.spawned
  obtain ⟨hsized, hcancel⟩ := hkept.primed number id _ (getElem?_of_caller hstep)
  rw [hlength] at hends ⊢
  refine ((hkept.step hdma hact hstep).run_induction hdma (hnatural' y hstep) hfuture
    (P := fun b => ∃ run, b.runs[x.runs.length]? = some run ∧ run.connection = id ∧
      run.Pumps setup.stream.blockBytes b.instrument.dma)
    (fun act hmem hkept hact hstep => goes_on hdma hkept hact hstep (hends act hmem)) ?_).2
  -- The new run is the last one.
  rw [Bench.step, if_pos (getElem?_of_caller hstep)] at hstep
  obtain rfl := Option.some.inj hstep
  exact ⟨_, getElem?_runs_last rfl, rfl, rfl, rfl, hcancel, by simp [Run.fresh], trivial, rfl,
    hsized⟩

/-- A stop is never lost and never hits a session that begins after it, whatever the order in which
calls, threads, the engine and the peer take their steps. A stop that looks at the arbiter and then
sets a flag as one that found a session has found the session that the arbiter names, sets the flag
of that session and of no other, and goes on to end its wait. From then on, as long as the worker of
that session is in its pump loop, its flag is set and, once the stop is over, a cancel is pending,
so that a worker that waits goes on to its end. And a session whose worker has just been created,
whatever stops there were before, stays in its pump loop, with no flag set and no cancel pending,
until a stop strikes after that or its own logger ends it. -/
theorem stops_hit_their_session {board : β} {dma : SimulatedDma}
    (hdma : setup.dma = SimulatedDma.engine) (hrun : run setup acts (fresh board dma) = some b)
    (hnatural : Natural setup acts (fresh board dma)) :
    (∀ number look flag before between later,
      acts = before ++ .caller number look :: between ++ .caller number flag :: later →
      look.stopPoint? = some .looking → flag.stopPoint? = some (.flagging true) →
      (∀ act ∈ between, act.caller? ≠ some number) →
      ∃ x y z session run run' cancel,
        Bench.run setup before (fresh board dma) = some x ∧
        x.runs[session]? = some run ∧ run.isFinished = false ∧
        x.instrument.arbiter.streamingOwner = some run.connection ∧
        Bench.run setup (before ++ .caller number look :: between) (fresh board dma) = some y ∧
        y.step setup (.caller number flag) = some z ∧
        y.runs[session]? = some run' ∧ z.runs = y.runs.set session run'.terminate ∧
        z.calls[number]? = some cancel ∧ cancel.stopPoint? = some (.cancelling true) ∧
        ∀ last, b.runs[session]? = some last → last.worker.pumping = true →
          last.flags.terminate = true ∧
          (.caller number cancel ∈ later → b.instrument.dma.cancelPending = true ∧
            (last.worker = .waiting → ∃ b', b.step setup (.worker session .waiting) = some b' ∧
              b'.runs[session]? = some { last with worker := .ending }))) ∧
    ∀ number id sink past future,
      acts = past ++ .caller number (.start id (.spawning sink)) :: future →
      (∀ act ∈ future, act.ends (past.countP Act.spawns) = false) →
      ∃ run, b.runs[past.countP Act.spawns]? = some run ∧ run.connection = id ∧
        run.worker.pumping = true ∧ run.flags.terminate = false ∧
        b.instrument.dma.cancelPending = false := by
  refine ⟨?_, ?_⟩
  · rintro number look flag before between later rfl hlook hflag hbetween
    obtain ⟨x, y, z, session, run, run', cancel, hx, hsession, hunfinished, howner, hy, hstep,
      hrun', hflagged, hcancel, hcancelling, htold⟩ :=
        stop_hits hdma hrun hnatural hlook hflag hbetween
    refine ⟨x, y, z, session, run, run', cancel, hx, hsession, hunfinished, howner, hy, hstep,
      hrun', hflagged, hcancel, hcancelling, fun last hlast hpumping =>
        ⟨(htold.told last hlast hpumping).1, fun hmem =>
          ⟨(htold.told last hlast hpumping).2 hmem, fun hworker => ?_⟩⟩⟩
    exact htold.ends hdma hmem ((kept_fresh setup board dma).run hdma hnatural hrun).guarded hlast
      hworker
  · rintro number id sink past future rfl hends
    obtain ⟨run, hget, hid, hpumps⟩ := stale_stop_misses hdma hrun hnatural hends
    exact ⟨run, hget, hid, hpumps.pumping, hpumps.terminate, hpumps.cancelPending⟩

/-- A session whose worker has found nothing to move and waits, and a stop that has the lock. -/
def beforeLook : List (Act SimulatedBoard SimulatedDma) :=
  List.flatten [
    [.register ⟨1⟩ (.fresh none), .register ⟨2⟩ (.fresh none)],
    starting 0 ⟨1⟩
      [.arriving, .claiming, .taking, .joining 0, .configuring 0, .igniting 0, .spawning 0],
    [.launching, .checking, .querying].map (.worker 0),
    [.call (.stop .arriving), .caller 1 (.stop .arriving)]]

def struck : List (Act SimulatedBoard SimulatedDma) :=
  beforeLook ++ .caller 1 (.stop .looking) :: [] ++ .caller 1 (.stop (.flagging true)) ::
    [.caller 1 (.stop (.cancelling true))]

/-- The session ends, a second stop finds none and leaves its flag and its cancel behind, and a
second session is started up to its worker. -/
def beforeSecond : List (Act SimulatedBoard SimulatedDma) :=
  List.flatten [struck,
    [.waiting, .ending].map (.worker 0), [.logger 0 .checking],
    [.joining, .idling, .stopping, .closing, .yielding].map (.worker 0),
    [.call (.stop .arriving)],
    [.arriving, .looking, .flagging false, .cancelling false].map fun point =>
      .caller 2 (.stop point),
    starting 3 ⟨2⟩ [.arriving, .claiming, .taking, .joining 1, .configuring 1, .igniting 1]]

def second : List (Act SimulatedBoard SimulatedDma) :=
  beforeSecond ++ .caller 3 (.start ⟨2⟩ (.spawning 1)) ::
    [.launching, .checking, .querying].map (.worker 1)

theorem first_session_struck_second_spared :
    (∃ b b', run Instrument.smallSetup struck (fresh .powerOn .powerOn) = some b ∧
      b.runs.map Run.worker = [.waiting] ∧
      b.step Instrument.smallSetup (.worker 0 .waiting) = some b' ∧
      (b'.runs[0]?).map Run.worker = some .ending) ∧
    ∃ b run, Bench.run Instrument.smallSetup second (fresh .powerOn .powerOn) = some b ∧
      b.runs[1]? = some run ∧ run.connection = ⟨2⟩ ∧ run.worker.pumping = true ∧
      run.flags.terminate = false ∧ b.instrument.dma.cancelPending = false := by
  refine ⟨?_, ?_⟩
  · obtain ⟨b, last, hb, hruns, hworker⟩ : ∃ b last,
        run Instrument.smallSetup struck (fresh .powerOn .powerOn) = some b ∧
        b.runs = [last] ∧ last.worker = .waiting := ⟨_, _, rfl, rfl, rfl⟩
    obtain ⟨y', z', hy', hz', hlength, hcancel'⟩ : ∃ y z,
        run Instrument.smallSetup (beforeLook ++ .caller 1 (.stop .looking) :: [])
          (fresh .powerOn .powerOn) = some y ∧
        y.step Instrument.smallSetup (.caller 1 (.stop (.flagging true))) = some z ∧
        y.runs.length = 1 ∧ z.calls[1]? = some (.stop (.cancelling true)) :=
      ⟨_, _, rfl, rfl, rfl, rfl⟩
    have hnatural : Natural Instrument.smallSetup struck (fresh .powerOn .powerOn) :=
      natural_of_callers (by simp [struck, beforeLook, starting]) _
    obtain ⟨x, y, z, session, run, run', cancel, -, -, -, -, hy, hz, hget, -, hcancel, -, htold⟩ :=
      (stops_hit_their_session rfl hb hnatural).1 1 (.stop .looking) (.stop (.flagging true))
        beforeLook [] _ rfl rfl rfl nofun
    obtain rfl := Option.some.inj (hy.symm.trans hy')
    obtain rfl := Option.some.inj (hz.symm.trans hz')
    obtain rfl := Option.some.inj (hcancel.symm.trans hcancel')
    obtain ⟨hlt, -⟩ := List.getElem?_eq_some_iff.mp hget
    obtain rfl : session = 0 := by omega
    obtain ⟨b', hstep, hend⟩ := ((htold last (by rw [hruns]; rfl) (hworker ▸ rfl)).2
      List.mem_cons_self).2 hworker
    exact ⟨b, b', hb, by rw [hruns, List.map_singleton, hworker], hstep, by rw [hend]; rfl⟩
  · obtain ⟨b, hb⟩ : ∃ b, run Instrument.smallSetup second (fresh .powerOn .powerOn) = some b :=
      ⟨_, rfl⟩
    have hnatural : Natural Instrument.smallSetup second (fresh .powerOn .powerOn) :=
      natural_of_callers (by simp [second, beforeSecond, struck, beforeLook, starting]) _
    obtain ⟨run, hrun⟩ := (stops_hit_their_session rfl hb hnatural).2 3 ⟨2⟩ 1 beforeSecond _ rfl
      (by decide)
    exact ⟨b, run, hb, hrun⟩

end Bench

end DaqServer
