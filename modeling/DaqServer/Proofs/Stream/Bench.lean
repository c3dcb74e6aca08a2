import DaqServer.Stream.Bench
import Mathlib.Data.List.Basic

/-!
# What an act at a bench does to the sessions

The claims on the ADC lie with the runs that are not finished and with the starts that got it and
have not handed it to a run. `Bench.Moves` lists all that one act can do to runs and claims; main
statement: every act is one of these moves (`moves_of_step`).
-/

namespace DaqServer

variable {β δ : Type}

/-- A list around one of its elements, which can be replaced. -/
theorem exists_set_eq {α : Type} {l : List α} {n : Nat} {a : α} (h : l[n]? = some a) :
    ∃ before after, l = before ++ a :: after ∧ ∀ a', l.set n a' = before ++ a' :: after := by
  obtain ⟨hlt, rfl⟩ := List.getElem?_eq_some_iff.mp h
  refine ⟨l.take n, l.drop (n + 1), ?_, fun a' => ?_⟩
  · rw [List.getElem_cons_drop, List.take_append_drop]
  · rw [List.set_eq_take_append_cons_drop, if_pos hlt]

theorem Arbiter.eq_of_claimStream {a held : Arbiter} {id : ConnectionId}
    (h : a.claimStream id = .ok held) : a.owner = none ∧ held = ⟨some (.stream id)⟩ := by
  rw [claimStream] at h
  split at h
  · exact ⟨‹_›, (Except.ok.inj h).symm⟩
  · exact absurd h nofun
  · exact absurd h nofun

theorem Arbiter.eq_of_beginScan {a held : Arbiter} (h : a.beginScan = .ok held) :
    a.owner = none ∧ held = ⟨some .scan⟩ := by
  rw [beginScan] at h
  split at h
  · exact ⟨‹_›, (Except.ok.inj h).symm⟩
  · exact absurd h nofun

/-! ### Teardown -/

namespace WorkerPoint

def teardown : List WorkerPoint := [.ending, .joining, .idling, .stopping, .closing, .yielding]

/-- The part of the teardown that lies behind a point. -/
def tornDown : WorkerPoint → List WorkerPoint
  | .joining => teardown.take 1
  | .idling => teardown.take 2
  | .stopping => teardown.take 3
  | .closing => teardown.take 4
  | .yielding => teardown.take 5
  | .finished => teardown
  | _ => []

def tearing (point : WorkerPoint) : List WorkerPoint := [point].filter (· ∈ teardown)

@[simp] theorem tornDown_next (slots : List Nat) : (next slots).tornDown = [] := by
  cases slots <;> rfl

end WorkerPoint

namespace Run

/-- Once the worker is past joining, its logger is over or was never there. -/
def Ordered (run : Run) : Prop :=
  .joining ∈ run.worker.tornDown → ∀ point ∈ run.logger, point = .finished

/-- What one step can do to a run and to the arbiter, with the points of its teardown that are
passed. -/
structure Moves (run run' : Run) (torn : List WorkerPoint) (a a' : Arbiter) : Prop where
  connection : run'.connection = run.connection
  tornDown : run'.worker.tornDown = run.worker.tornDown ++ torn
  ordered : run.Ordered → run'.Ordered
  finished : run'.isFinished = (run.isFinished || torn == [.yielding])
  yields : torn = [.yielding] → run.isFinished = false
  arbiter : a' = if torn = [.yielding] then a.releaseStream run.connection else a

variable {setup : Setup β δ} {run run' : Run} {a : Arbiter} {x y : Instrument β δ}

theorem isFinished_eq_false_of_tornDown (h : run.worker.tornDown = []) :
    run.isFinished = false := by
  rw [isFinished, beq_eq_false_iff_ne]
  intro hworker
  rw [hworker] at h
  exact absurd h nofun

/-- Before the teardown a run moves as it likes. -/
theorem Moves.before (hconnection : run'.connection = run.connection)
    (h : run.worker.tornDown = []) (h' : run'.worker.tornDown = []) : run.Moves run' [] a a where
  connection := hconnection
  tornDown := by rw [h, h', List.append_nil]
  ordered _ hjoined := absurd (h' ▸ hjoined) List.not_mem_nil
  finished := by
    rw [isFinished_eq_false_of_tornDown h, isFinished_eq_false_of_tornDown h']
    rfl
  yields := nofun
  arbiter := rfl

theorem ordered_of_logger (hlogger : run'.logger = run.logger)
    (hjoined : .joining ∈ run.worker.tornDown) (h : run.Ordered) : run'.Ordered :=
  fun _ => hlogger ▸ h hjoined

/-- The worker passes its points one by one. Behind the joining the logger stays as it is, and the
ADC is given up by the last step. -/
theorem moves_of_workerStep (h : run.workerStep setup x = some y) :
    ∃ run', y.session.run = some run' ∧ run.isFinished = false ∧
      run.Moves run' run.worker.tearing x.arbiter y.arbiter := by
  obtain ⟨connection, sink, flags, ring, worker, logger⟩ := run
  cases worker with
  | launching | returning | publishing slots =>
      obtain rfl := Option.some.inj h
      exact ⟨_, rfl, rfl, .before rfl rfl rfl⟩
  | checking | offering slots =>
      obtain rfl := Option.some.inj h
      exact ⟨_, rfl, rfl, .before rfl rfl (by cases flags.terminate <;> rfl)⟩
  | querying =>
      obtain rfl := Option.some.inj h
      refine ⟨_, rfl, rfl, .before rfl rfl ?_⟩
      dsimp only
      split
      · rfl
      · split <;> rfl
  | waiting =>
      simp only [workerStep] at h
      split at h
      · exact absurd h nofun
      · obtain rfl := Option.some.inj h
        refine ⟨_, rfl, rfl, .before rfl rfl ?_⟩
        dsimp only
        split <;> rfl
  | claiming slots =>
      simp only [workerStep] at h
      split at h <;> obtain rfl := Option.some.inj h <;> exact ⟨_, rfl, rfl, .before rfl rfl rfl⟩
  | filling slots =>
      obtain rfl := Option.some.inj h
      refine ⟨_, rfl, rfl, .before ?_ rfl ?_⟩ <;> dsimp only <;> split <;> rfl
  | releasing slots =>
      obtain rfl := Option.some.inj h
      refine ⟨_, rfl, rfl, .before rfl rfl ?_⟩
      dsimp only
      split
      · rfl
      · exact WorkerPoint.tornDown_next _
  | ending =>
      -- The logger may still be at work: nothing is asked of it before the joining is passed.
      obtain rfl := Option.some.inj h
      have hjoining : .joining ∉ WorkerPoint.joining.tornDown := by decide
      exact ⟨_, rfl, rfl, rfl, rfl, fun _ hmem => absurd hmem hjoining, rfl, nofun, rfl⟩
  | joining =>
      -- The step is only there when the logger is over, which is what the order asks for.
      simp only [workerStep] at h
      split at h
      · obtain rfl := Option.some.inj h
        exact ⟨_, rfl, rfl, rfl, rfl, fun _ _ => nofun, rfl, nofun, rfl⟩
      · obtain rfl := Option.some.inj h
        refine ⟨_, rfl, rfl, rfl, rfl, fun _ _ point hpoint => ?_, rfl, nofun, rfl⟩
        exact (Option.some.inj hpoint).symm
      · exact absurd h nofun
  | idling | stopping =>
      obtain rfl := Option.some.inj h
      exact ⟨_, rfl, rfl, rfl, rfl, ordered_of_logger rfl (.tail _ (.head _)), rfl, nofun, rfl⟩
  | closing =>
      obtain rfl := Option.some.inj h
      refine ⟨{ connection, sink, flags, ring, worker := .yielding, logger }, ?_, rfl, rfl, rfl,
        ordered_of_logger rfl (.tail _ (.head _)), rfl, nofun, ?_⟩
      · split <;> rfl
      · dsimp only
        split <;> rfl
  | yielding =>
      obtain rfl := Option.some.inj h
      exact ⟨_, rfl, rfl, rfl, rfl, ordered_of_logger rfl (.tail _ (.head _)), rfl, fun _ => rfl,
        rfl⟩
  | finished => exact absurd h nofun

/-- While the logger is not over, the run is before the end of its teardown. -/
theorem moves_of_logging {point : LoggerPoint} (hconnection : run'.connection = run.connection)
    (hworker : run'.worker = run.worker) (hlogger : run.logger = some point)
    (hpoint : point ≠ .finished) (hordered : run.Ordered) :
    run.isFinished = false ∧ run.Moves run' [] a a := by
  have hjoining : .joining ∉ run.worker.tornDown := fun hmem => hpoint (hordered hmem point hlogger)
  have hfinished : run.isFinished = false := by
    rw [isFinished, beq_eq_false_iff_ne]
    intro h
    rw [h] at hjoining
    exact hjoining (.tail _ (.head _))
  refine ⟨hfinished, hconnection, by rw [hworker, List.append_nil], ?_, ?_, nofun, rfl⟩
  · intro _ hmem
    exact absurd (hworker ▸ hmem) hjoining
  · rw [hfinished, ← hfinished, isFinished, isFinished, hworker]
    simp

theorem moves_of_loggerStep (hordered : run.Ordered) (h : run.loggerStep setup x = some y) :
    ∃ run', y.session.run = some run' ∧ run.isFinished = false ∧
      run.Moves run' [] x.arbiter y.arbiter := by
  obtain ⟨connection, sink, flags, ring, worker, logger⟩ := run
  rcases logger with _ | point
  · exact absurd h nofun
  · cases point with
    | checking | copying | failing | cancelling | releasing | counting =>
        obtain rfl := Option.some.inj h
        exact ⟨_, rfl, moves_of_logging rfl rfl rfl nofun hordered⟩
    | taking | sending block =>
        simp only [loggerStep] at h
        split at h <;> obtain rfl := Option.some.inj h <;>
          exact ⟨_, rfl, moves_of_logging rfl rfl rfl nofun hordered⟩
    | finished => exact absurd h nofun

theorem moves_terminate {a' : Arbiter} (h : a' = a) : run.Moves run.terminate [] a a' where
  connection := rfl
  tornDown := (List.append_nil _).symm
  ordered := id
  finished := (Bool.or_false _).symm
  yields := nofun
  arbiter := h

end Run

/-! ### Acts -/

def StartPoint.holds : StartPoint → Bool
  | arriving | claiming | returned _ => false
  | _ => true

def Run.claim? (run : Run) : Option ConnectionId :=
  if run.isFinished then none else some run.connection

def Call.claim? : Call → Option ConnectionId
  | start id point => if point.holds then some id else none
  | _ => none

/-- What one step does to a claim and to the arbiter. -/
inductive ClaimStep (a a' : Arbiter) : Option ConnectionId → Option ConnectionId → Prop
  | same {claim : Option ConnectionId} : a' = a → ClaimStep a a' claim claim
  | gain {id : ConnectionId} :
      a.owner = none → a' = ⟨some (.stream id)⟩ → ClaimStep a a' none (some id)
  | give {id : ConnectionId} : a' = a.releaseStream id → ClaimStep a a' (some id) none

theorem Run.Moves.claimStep {run run' : Run} {torn : List WorkerPoint} {a a' : Arbiter}
    (h : run.Moves run' torn a a') : ClaimStep a a' run.claim? run'.claim? := by
  have harbiter := h.arbiter
  rw [claim?, claim?, h.finished, h.connection]
  by_cases hyields : torn = [.yielding]
  · rw [if_pos hyields] at harbiter
    rw [h.yields hyields, hyields]
    exact .give harbiter
  · rw [if_neg hyields] at harbiter
    rw [beq_eq_false_iff_ne.mpr hyields, Bool.or_false]
    exact .same harbiter

theorem Call.claim?_of_isNew {call : Call} (h : call.isNew) : call.claim? = none := by
  cases call with
  | start id point =>
      cases point with
      | arriving => rfl
      | _ => exact absurd h nofun
  | _ => rfl

namespace Act

def run? : Act β δ → Option Nat
  | worker number _ | logger number _ | noLogger number => some number
  | _ => none

def torn (number : Nat) : Act β δ → List WorkerPoint
  | worker number' point => if number = number' then point.tearing else []
  | _ => []

theorem eq_of_mem_torn {number : Nat} {act : Act β δ} {point : WorkerPoint}
    (h : point ∈ act.torn number) : act = .worker number point := by
  cases act with
  | worker number' point' =>
      rw [torn] at h
      split at h
      · rename_i hnumber
        obtain rfl := List.mem_singleton.mp (List.mem_filter.mp h).1
        rw [hnumber]
      · exact absurd h List.not_mem_nil
  | _ => exact absurd h List.not_mem_nil

def spawns : Act β δ → Bool
  | caller _ (.start _ (.spawning _)) => true
  | _ => false

end Act

namespace Bench

/-- Who claims the ADC for streaming: the connections of the runs that are not finished and of the
starts that got the ADC and have not handed it to a run. -/
def holders (b : Bench β δ) : List ConnectionId :=
  b.runs.filterMap Run.claim? ++ b.calls.filterMap Call.claim?

/-- All that one act can do to runs and claims. -/
inductive Moves (act : Act β δ) (b b' : Bench β δ) : Prop
  /-- A run moves, by one of its threads or as it is told to end. -/
  | run {number : Nat} {run run' : Run} {torn : List WorkerPoint} :
      b.runs[number]? = some run → b'.runs = b.runs.set number run' →
      run.Moves run' torn b.instrument.arbiter b'.instrument.arbiter →
      (∀ n, act.torn n = if n = number then torn else []) →
      (∀ n, act.run? = some n → n = number ∧ run.isFinished = false) → act.spawns = false →
      b'.calls.filterMap Call.claim? = b.calls.filterMap Call.claim? → Moves act b b'
  /-- A call moves and leaves the runs alone. -/
  | call {number : Nat} {call call' : Call} :
      b.calls[number]? = some call → b'.calls = b.calls.set number call' → b'.runs = b.runs →
      ClaimStep b.instrument.arbiter b'.instrument.arbiter call.claim? call'.claim? →
      (∀ n, act.torn n = []) → act.run? = none → act.spawns = false → Moves act b b'
  /-- A start hands its claim to a new run. -/
  | spawn {number : Nat} {id : ConnectionId} {sink : SinkId} {ring : Ring} :
      act = .caller number (.start id (.spawning sink)) →
      b.calls[number]? = some (.start id (.spawning sink)) →
      b'.calls = b.calls.set number (.start id (.returned none)) →
      b'.runs = b.runs ++ [.fresh id sink ring] → b'.instrument.arbiter = b.instrument.arbiter →
      Moves act b b'
  /-- Neither runs nor claims move. -/
  | other : b'.runs = b.runs → b'.calls.filterMap Call.claim? = b.calls.filterMap Call.claim? →
      b'.instrument.arbiter.streamingOwner = b.instrument.arbiter.streamingOwner →
      (∀ n, act.torn n = []) → act.run? = none → act.spawns = false →
      (act.isScan = false → b'.instrument.arbiter = b.instrument.arbiter) → Moves act b b'

variable {setup : Setup β δ} {b b' : Bench β δ}

theorem mem_holders_of_run {run : Run} (hrun : run ∈ b.runs)
    (hunfinished : run.isFinished = false) :
    run.connection ∈ b.holders := by
  have hclaim : run.claim? = some run.connection := by rw [Run.claim?, hunfinished]; rfl
  exact List.mem_append_left _ (List.mem_filterMap.mpr ⟨run, hrun, hclaim⟩)

theorem mem_holders_of_call {number : Nat} {call : Call} {id : ConnectionId}
    (hcall : b.calls[number]? = some call) (hclaim : call.claim? = some id) : id ∈ b.holders :=
  List.mem_append_right _ (List.mem_filterMap.mpr ⟨call, List.mem_of_getElem? hcall, hclaim⟩)

theorem getElem?_of_caller {number : Nat} {call : Call}
    (h : b.step setup (.caller number call) = some b') : b.calls[number]? = some call := by
  rw [step] at h
  split at h
  · assumption
  · cases h

/-- A thread leaves what it does to the instrument, but never another run as the last one. -/
theorem onRun_cases {number : Nat} {f : Run → Instrument β δ → Option (Instrument β δ)}
    (h : b.onRun number f = some b') :
    ∃ run y, b.runs[number]? = some run ∧ f run b.instrument = some y ∧ b'.calls = b.calls ∧
      b'.instrument = { y with session := { y.session with run := b'.instrument.session.run } } ∧
      ∀ run', y.session.run = some run' → b'.runs = b.runs.set number run' := by
  rw [onRun] at h
  split at h
  · rename_i run hrun
    obtain ⟨y, hy, rfl⟩ := Option.map_eq_some_iff.mp h
    obtain ⟨hlt, -⟩ := List.getElem?_eq_some_iff.mp hrun
    refine ⟨run, y, by rw [runs, List.getElem?_append_left hlt, hrun], hy, rfl, rfl, ?_⟩
    intro run' hrun'
    rw [runs, runs, List.set_append_left _ _ hlt, hrun']
    rfl
  · split at h
    · rename_i hnumber
      obtain ⟨y, hy, rfl⟩ := Option.map_eq_some_iff.mp h
      obtain ⟨run, hrun, hy⟩ := Option.bind_eq_some_iff.mp hy
      subst hnumber
      refine ⟨run, y, by rw [runs, hrun, List.getElem?_append_right (Nat.le_refl _)]; simp, hy, rfl,
        rfl, ?_⟩
      intro run' hrun'
      rw [runs, runs, hrun, hrun', List.set_append_right _ _ (Nat.le_refl _)]
      simp
    · exact absurd h nofun

theorem onDma_eq {α : Type} {access : Access δ α} {result : Except BoardError α}
    (h : b.onDma access = (result, b')) :
    b'.calls = b.calls ∧ b'.runs = b.runs ∧ b'.instrument.arbiter = b.instrument.arbiter := by
  cases h
  exact ⟨rfl, rfl, rfl⟩

theorem startPoint_cases {id : ConnectionId} {point point' : StartPoint}
    (h : point.step setup id b = some (point', b')) :
    b'.calls = b.calls ∧
      (b'.runs = b.runs ∧
        ClaimStep b.instrument.arbiter b'.instrument.arbiter (Call.start id point).claim?
          (Call.start id point').claim? ∧ (∀ sink, point ≠ .spawning sink) ∨
      ∃ sink ring, point = .spawning sink ∧ point' = .returned none ∧
        b'.runs = b.runs ++ [.fresh id sink ring] ∧
        b'.instrument.arbiter = b.instrument.arbiter) := by
  cases point with
  | arriving =>
      simp only [StartPoint.step] at h
      split at h
      · exact absurd h nofun
      · cases h
        exact ⟨rfl, .inl ⟨rfl, .same rfl, nofun⟩⟩
  | claiming =>
      simp only [StartPoint.step] at h
      split at h
      · cases h
        exact ⟨rfl, .inl ⟨rfl, .same rfl, nofun⟩⟩
      · rename_i held hclaim
        obtain ⟨hfree, hheld⟩ := Arbiter.eq_of_claimStream hclaim
        cases h
        exact ⟨rfl, .inl ⟨rfl, .gain hfree hheld, nofun⟩⟩
  | taking =>
      simp only [StartPoint.step] at h
      split at h <;> cases h <;> exact ⟨rfl, .inl ⟨rfl, .same rfl, nofun⟩⟩
  | joining sink =>
      simp only [StartPoint.step] at h
      split at h
      · exact absurd h nofun
      · cases h
        exact ⟨rfl, .inl ⟨rfl, .same rfl, nofun⟩⟩
  | configuring sink | igniting sink =>
      simp only [StartPoint.step] at h
      split at h <;> rename_i hdma <;> obtain ⟨hcalls, hruns, harbiter⟩ := onDma_eq hdma <;>
        cases h <;> exact ⟨hcalls, .inl ⟨hruns, .same harbiter, nofun⟩⟩
  | spawning sink =>
      cases h
      exact ⟨rfl, .inr ⟨sink, _, rfl, rfl, rfl, rfl⟩⟩
  | halting cause =>
      cases h
      exact ⟨rfl, .inl ⟨rfl, .same rfl, nofun⟩⟩
  | restoring sink cause =>
      cases h
      exact ⟨rfl, .inl ⟨rfl, .same rfl, nofun⟩⟩
  | yielding cause =>
      cases h
      exact ⟨rfl, .inl ⟨rfl, .give rfl, nofun⟩⟩
  | returned failure => exact absurd h nofun

/-- The board and its engine are left as they are, but for a wait of the engine that is ended. -/
structure Undriven (setup : Setup β δ) (x y : Instrument β δ) : Prop where
  board : y.board = x.board
  dma : y.dma = x.dma ∨ y.dma = setup.dma.cancel x.dma

theorem Undriven.refl (x : Instrument β δ) : Undriven setup x x := ⟨rfl, .inl rfl⟩

/-- A start that has no claim does nothing to the board. -/
theorem undriven_of_startPoint {id : ConnectionId} {point : StartPoint}
    {next : StartPoint × Bench β δ} (h : point.step setup id b = some next)
    (hholds : point.holds = false) : Undriven setup b.instrument next.2.instrument := by
  cases point with
  | arriving =>
      simp only [StartPoint.step] at h
      split at h
      · exact absurd h nofun
      · cases h
        exact .refl _
  | claiming =>
      simp only [StartPoint.step] at h
      split at h <;> cases h <;> exact ⟨rfl, .inl rfl⟩
  | returned failure => exact absurd h nofun
  | _ => exact absurd hholds nofun

/-- A step leaves claims alone, at most tells a run to end and at most ends a wait. -/
structure Spares (setup : Setup β δ) (b b' : Bench β δ) : Prop where
  calls : b'.calls = b.calls
  arbiter : b'.instrument.arbiter = b.instrument.arbiter
  runs : b'.runs = b.runs ∨
    ∃ (number : Nat) (run : Run),
      b.runs[number]? = some run ∧ b'.runs = b.runs.set number run.terminate
  undriven : Undriven setup b.instrument b'.instrument

theorem Spares.refl (b : Bench β δ) : Spares setup b b := ⟨rfl, rfl, .inl rfl, .refl _⟩

theorem spares_of_stopPoint {point : StopPoint} {next : StopPoint × Bench β δ}
    (h : point.step setup b = some next) : Spares setup b next.2 := by
  cases point with
  | arriving =>
      simp only [StopPoint.step] at h
      split at h
      · exact absurd h nofun
      · cases h
        exact .refl b
  | looking =>
      cases h
      exact .refl b
  | flagging active =>
      simp only [StopPoint.step] at h
      split at h
      · cases h
        exact .refl b
      · rename_i run hrun
        cases h
        -- The flags of the session are those of the last run.
        refine ⟨rfl, rfl, .inr ⟨b.earlier.length, run, ?_, ?_⟩, rfl, .inl rfl⟩
        · rw [runs, hrun, List.getElem?_append_right (Nat.le_refl _)]
          simp
        · rw [runs, runs, hrun, List.set_append_right _ _ (Nat.le_refl _)]
          simp [on, Instrument.setRun]
  | cancelling active =>
      cases h
      exact ⟨rfl, rfl, .inl rfl, rfl, .inr rfl⟩
  | returned active => exact absurd h nofun

theorem spares_of_detachPoint {id : ConnectionId} {point : DetachPoint}
    {next : DetachPoint × Bench β δ} (h : point.step setup id b = some next) :
    Spares setup b next.2 := by
  cases point with
  | removing =>
      simp only [DetachPoint.step] at h
      split at h
      · exact absurd h nofun
      · split at h
        · cases h
          exact .refl b
        · cases h
          exact ⟨rfl, rfl, .inl rfl, rfl, .inl rfl⟩
  | closing sink =>
      cases h
      exact ⟨rfl, rfl, .inl rfl, rfl, .inl rfl⟩
  | checking =>
      simp only [DetachPoint.step] at h
      split at h <;> cases h <;> exact .refl b
  | stopping point =>
      obtain ⟨next, hnext, rfl⟩ := Option.map_eq_some_iff.mp h
      exact spares_of_stopPoint hnext
  | returned => exact absurd h nofun

theorem spares_of_closePoint {point : ClosePoint} {next : ClosePoint × Bench β δ}
    (h : point.step setup b = some next) : Spares setup b next.2 := by
  cases point with
  | stopping point =>
      cases point with
      | returned active =>
          cases h
          exact .refl b
      | arriving | looking | flagging active | cancelling active =>
          simp only [ClosePoint.step] at h
          obtain ⟨next, hnext, rfl⟩ := Option.map_eq_some_iff.mp h
          exact spares_of_stopPoint hnext
  | draining =>
      simp only [ClosePoint.step] at h
      split at h
      · exact absurd h nofun
      · cases h
        exact ⟨rfl, rfl, .inl rfl, rfl, .inl rfl⟩
  | closing sinks =>
      cases sinks <;> cases h <;> exact ⟨rfl, rfl, .inl rfl, rfl, .inl rfl⟩
  | returned => exact absurd h nofun

theorem spares_of_joinPoint {point : JoinPoint} {next : JoinPoint × Bench β δ}
    (h : point.step b = some next) : Spares setup b next.2 := by
  cases point with
  | taking =>
      simp only [JoinPoint.step] at h
      split at h
      · exact absurd h nofun
      · split at h <;> cases h <;> exact ⟨rfl, rfl, .inl rfl, rfl, .inl rfl⟩
  | waiting run =>
      simp only [JoinPoint.step] at h
      split at h
      · cases h
        exact .refl b
      · exact absurd h nofun
  | returned => exact absurd h nofun

theorem call_cases {call : Call} {next : Call × Bench β δ} (h : call.step setup b = some next) :
    Spares setup b next.2 ∧ call.claim? = none ∧ next.1.claim? = none ∧
      (∀ id point, call ≠ .start id point) ∨
    ∃ id point point', call = .start id point ∧ next.1 = .start id point' ∧
      point.step setup id b = some (point', next.2) := by
  cases call with
  | start id point =>
      obtain ⟨next, hnext, rfl⟩ := Option.map_eq_some_iff.mp h
      exact .inr ⟨id, point, next.1, rfl, rfl, hnext⟩
  | stop point =>
      obtain ⟨next, hnext, rfl⟩ := Option.map_eq_some_iff.mp h
      exact .inl ⟨spares_of_stopPoint hnext, rfl, rfl, nofun⟩
  | detach id point =>
      obtain ⟨next, hnext, rfl⟩ := Option.map_eq_some_iff.mp h
      exact .inl ⟨spares_of_detachPoint hnext, rfl, rfl, nofun⟩
  | close point =>
      obtain ⟨next, hnext, rfl⟩ := Option.map_eq_some_iff.mp h
      exact .inl ⟨spares_of_closePoint hnext, rfl, rfl, nofun⟩
  | join point =>
      obtain ⟨next, hnext, rfl⟩ := Option.map_eq_some_iff.mp h
      exact .inl ⟨spares_of_joinPoint hnext, rfl, rfl, nofun⟩

/-- Replacing a call by one with the same claim leaves the claims alone. -/
theorem filterMap_claim?_set {calls : List Call} {number : Nat} {call call' : Call}
    (hcall : calls[number]? = some call) (hclaim : call'.claim? = call.claim?) :
    (calls.set number call').filterMap Call.claim? = calls.filterMap Call.claim? := by
  obtain ⟨before, after, rfl, hset⟩ := exists_set_eq hcall
  rw [hset, List.filterMap_append, List.filterMap_append, List.filterMap_cons, hclaim,
    List.filterMap_cons]

theorem moves_of_caller {number : Nat} {call : Call}
    (h : b.step setup (.caller number call) = some b') : Moves (.caller number call) b b' := by
  simp only [step] at h
  split at h
  · rename_i hcall
    obtain ⟨⟨call', x⟩, hstep, rfl⟩ := Option.map_eq_some_iff.mp h
    rcases call_cases hstep with
      ⟨⟨hcalls, harbiter, hruns, -⟩, hclaim, hclaim', hstart⟩ |
        ⟨id, point, point', rfl, rfl, hpoint⟩
    · dsimp only at hcalls hclaim'
      have hspawns : (Act.caller number call : Act β δ).spawns = false := by
        cases call with
        | start id point => exact absurd rfl (hstart id point)
        | _ => rfl
      rcases hruns with hruns | ⟨m, run, hrun, hruns⟩
      · refine .call hcall (congrArg (·.set number call') hcalls) hruns ?_ (fun _ => rfl) rfl
          hspawns
        rw [hclaim, hclaim']
        exact .same harbiter
      · refine .run hrun hruns (Run.moves_terminate harbiter) (fun n => by split <;> rfl) nofun
          hspawns ?_
        dsimp only
        rw [hcalls]
        exact filterMap_claim?_set hcall (hclaim'.trans hclaim.symm)
    · obtain ⟨hcalls, ⟨hruns, hclaims, hpoint⟩ | ⟨sink, ring, rfl, rfl, hruns, harbiter⟩⟩ :=
        startPoint_cases hpoint
      · refine .call hcall (by rw [← hcalls]) hruns hclaims (fun _ => rfl) rfl ?_
        cases point with
        | spawning sink => exact absurd rfl (hpoint sink)
        | _ => rfl
      · exact .spawn rfl hcall (by rw [← hcalls]) hruns harbiter
  · exact absurd h nofun

theorem moves_of_onRun {act : Act β δ} {number : Nat} {torn : List WorkerPoint}
    {f : Run → Instrument β δ → Option (Instrument β δ)} (h : b.onRun number f = some b')
    (hf : ∀ run ∈ b.runs, ∀ y, f run b.instrument = some y →
      ∃ run', y.session.run = some run' ∧ run.isFinished = false ∧
        run.Moves run' torn b.instrument.arbiter y.arbiter)
    (htorn : ∀ n, act.torn n = if n = number then torn else []) (hrun : act.run? = some number)
    (hspawns : act.spawns = false) : Moves act b b' := by
  obtain ⟨run, y, hget, hy, hcalls, hinstrument, hruns⟩ := onRun_cases h
  have harbiter : b'.instrument.arbiter = y.arbiter := by rw [hinstrument]
  obtain ⟨run', hrun', hunfinished, hmoves⟩ := hf run (List.mem_of_getElem? hget) y hy
  refine .run hget (hruns run' hrun') (harbiter ▸ hmoves) htorn (fun n hn => ?_) hspawns
    (by rw [hcalls])
  exact ⟨Option.some.inj (hn.symm.trans hrun), hunfinished⟩

/-- Every act is a move. The threads have to keep to the order of the teardown. -/
theorem moves_of_step {act : Act β δ} (hordered : ∀ run ∈ b.runs, run.Ordered)
    (h : b.step setup act = some b') : Moves act b b' := by
  cases act with
  | call call =>
      simp only [step] at h
      split at h
      · rename_i hnew
        cases h
        refine .other rfl ?_ rfl (fun _ => rfl) rfl rfl fun _ => rfl
        rw [List.filterMap_append, List.filterMap_cons_none (Call.claim?_of_isNew hnew),
          List.filterMap_nil, List.append_nil]
      · exact absurd h nofun
  | caller number call => exact moves_of_caller h
  | noWorker number id sink cause =>
      simp only [step] at h
      split at h
      · rename_i hcall
        cases h
        exact .call hcall rfl rfl (.same rfl) (fun _ => rfl) rfl rfl
      · exact absurd h nofun
  | noLogger number =>
      simp only [step] at h
      refine moves_of_onRun h (fun run _ y hy => ?_) (fun n => (ite_self _).symm) rfl rfl
      split at hy
      · rename_i hworker
        cases hy
        have hbefore : run.worker.tornDown = [] := by rw [hworker]; rfl
        exact ⟨_, rfl, Run.isFinished_eq_false_of_tornDown hbefore, .before rfl hbefore rfl⟩
      · exact absurd hy nofun
  | worker number point =>
      simp only [step] at h
      refine moves_of_onRun h (fun run _ y hy => ?_) (fun n => rfl) rfl rfl
      split at hy
      · rename_i hworker
        exact hworker ▸ Run.moves_of_workerStep hy
      · exact absurd hy nofun
  | logger number point =>
      simp only [step] at h
      refine moves_of_onRun h (fun run hmem y hy => ?_) (fun n => (ite_self _).symm) rfl rfl
      split at hy
      · exact Run.moves_of_loggerStep (hordered run hmem) hy
      · exact absurd hy nofun
  | register id sink =>
      simp only [step] at h
      split at h
      · exact absurd h nofun
      · cases h
        exact .other rfl rfl rfl (fun _ => rfl) rfl rfl fun _ => rfl
  | beginScan =>
      simp only [step] at h
      split at h
      · exact absurd h nofun
      · rename_i held hheld
        obtain ⟨hfree, rfl⟩ := Arbiter.eq_of_beginScan hheld
        cases h
        exact .other rfl rfl (by simp [on, Arbiter.streamingOwner, hfree]) (fun _ => rfl) rfl rfl
          nofun
  | endScan =>
      simp only [step] at h
      split at h
      · rename_i howner
        cases h
        refine .other rfl rfl ?_ (fun _ => rfl) rfl rfl nofun
        simp [on, Arbiter.endScan, howner, Arbiter.streamingOwner, Arbiter.idle]
      · exact absurd h nofun
  | hardware board dma =>
      cases h
      exact .other rfl rfl rfl (fun _ => rfl) rfl rfl fun _ => rfl
  | peer sink accepts =>
      cases h
      exact .other rfl rfl rfl (fun _ => rfl) rfl rfl fun _ => rfl

end Bench

end DaqServer
