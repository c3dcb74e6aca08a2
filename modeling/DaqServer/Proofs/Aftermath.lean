import DaqServer.Daemon.Concurrent
import DaqServer.Proofs.Arbitration
import DaqServer.Proofs.Stream.Custody

/-!
# When all is over at an instrument

A shared instrument is `Tended` while its engine is left to itself and to the sessions; every step
keeps that. Main statements: where no start and no scan is under way and the last worker has ended,
the ADC is free, the engine is stopped, and nobody but the hardware touches the board any more.
-/

namespace DaqServer

variable {β δ : Type}

/-! ### The bench of a shared instrument -/

namespace Bench

/-- Runs, engine, calls and the handle of the last worker are as they were. -/
structure Beside (b b' : Bench β δ) : Prop extends Still b b' where
  joinable : b'.joinable = b.joinable
  calls : b'.calls = b.calls

variable {b b' : Bench β δ}

theorem Guarded.beside (h : Guarded b) (hb : b.Beside b') : Guarded b' :=
  ⟨hb.earlier ▸ h.ended, hb.calls ▸ h.alone⟩

theorem Over.beside (h : Over b) (hb : b.Beside b') : Over b' :=
  fun run hrun => h run (hb.run ▸ hrun)

theorem Awaited.beside (h : Awaited b) (hb : b.Beside b') : Awaited b' := by
  cases h with
  | ended hover => exact .ended (hover.beside hb)
  | joinable hjoinable => exact .joinable (hb.joinable.trans hjoinable)
  | waited hcall => exact .waited (by rwa [hb.calls, hb.earlier])

theorem Driven.beside {b b' : Bench β SimulatedDma} (h : Driven b) (hb : b.Beside b') :
    Driven b' := by
  rw [Driven, hb.dma, hb.run, hb.calls]
  exact h

/-- Where the last worker has ended and no start is pending, nobody has a claim for streaming. -/
theorem holders_eq_nil (hguard : Guarded b) (hover : b.Over)
    (hstarts : ∀ number, ¬ b.Pending .start number) : b.holders = [] := by
  refine List.append_eq_nil_iff.mpr ⟨List.filterMap_eq_nil_iff.mpr fun run hrun => ?_,
    List.filterMap_eq_nil_iff.mpr fun call hcall => ?_⟩
  · have hfinished : run.isFinished = true := by
      rcases List.mem_append.mp hrun with hearlier | hlast
      · exact hguard.ended run hearlier
      · exact hover run (Option.mem_toList.mp hlast)
    rw [Run.claim?, if_pos hfinished]
  · obtain ⟨number, hcall⟩ := List.mem_iff_getElem?.mp hcall
    cases call with
    | start id point =>
        refine if_neg fun hholds => hstarts number ⟨_, hcall, rfl, ?_⟩
        cases point with
        | returned failure => cases hholds
        | _ => rfl
    | _ => rfl

end Bench

/-! ### The shared instrument -/

namespace SharedInstrument

section Steps

variable {setup : Setup β δ} {shared shared' : SharedInstrument β δ} {act : SharedAct β δ}
  {number : Nat}

/-- A step in a shared instrument is an act at the bench, or it leaves runs, engine and calls there
as they were. -/
theorem bench_of_step (hstep : shared.step setup act = some shared') :
    (∃ act', act = .bench act' ∧ shared.bench.step setup act' = some shared'.bench ∧
      shared'.scans = shared.scans) ∨
    (∀ act', act ≠ .bench act') ∧ shared.bench.Beside shared'.bench := by
  cases act with
  | bench act =>
      simp only [step] at hstep
      split at hstep
      · cases hstep
      · obtain ⟨b', hb', rfl⟩ := Option.map_eq_some_iff.mp hstep
        exact .inl ⟨act, rfl, hb', rfl⟩
  | arrive watch =>
      cases hstep
      exact .inr ⟨by simp, .refl _, rfl, rfl⟩
  | scan mover step =>
      refine .inr ⟨by simp, ?_⟩
      obtain ⟨⟨watch, point⟩, point', -, hmoves, -⟩ := scan_cases hstep
      generalize shared'.bench = b' at hmoves
      cases hmoves <;> exact ⟨⟨rfl, rfl, rfl⟩, rfl, rfl⟩

/-- Starts, and calls that wait for a worker, are left to those for whom they are reserved. -/
theorem pending_of_step (hstep : shared.step setup act = some shared')
    (hact : act.isReserved = false)
    {kind : CallKind} (hkind : kind = .start ∨ kind = .join)
    (h : shared'.bench.Pending kind number) : shared.bench.Pending kind number := by
  rcases bench_of_step hstep with ⟨act', rfl, hbench, -⟩ | ⟨-, hbeside⟩
  · rcases Bench.pending_of_step hbench h with hbefore | ⟨call, rfl, rfl⟩
    · exact hbefore
    · cases call with
      | start | join => cases hact
      | stop | detach | close => rcases hkind with ⟨⟨⟩⟩ | ⟨⟨⟩⟩
  · rwa [Bench.Pending, hbeside.calls] at h

def Scanning (shared : SharedInstrument β δ) (number : Nat) : Prop :=
  ∃ scan, shared.scans[number]? = some scan ∧ scan.point.stage ≤ 1

theorem scanning_of_step (hstep : shared.step setup act = some shared')
    (hact : act.isReserved = false)
    (h : shared'.Scanning number) : shared.Scanning number := by
  obtain ⟨scan, hscan, hstage⟩ := h
  cases act with
  | bench act =>
      rcases bench_of_step hstep with ⟨-, -, -, hscans⟩ | ⟨hne, -⟩
      · exact ⟨scan, hscans ▸ hscan, hstage⟩
      · exact absurd rfl (hne act)
  | arrive watch => cases hact
  | scan mover step =>
      obtain ⟨moving, point', hmoving, hmoves, hscans⟩ := scan_cases hstep
      rw [hscans] at hscan
      rcases eq_or_ne mover number with rfl | hne
      · exact ⟨moving, hmoving, hmoves.stage.1⟩
      · rw [List.getElem?_set_ne hne] at hscan
        exact ⟨scan, hscan, hstage⟩

/-- No start and no scan is under way. -/
structure Unasked (shared : SharedInstrument β δ) : Prop where
  starts : ∀ number, ¬ shared.bench.Pending .start number
  scans : ∀ number, ¬ shared.Scanning number

/-- Board and shutdown request have nothing to do with who has the ADC. -/
theorem Guarded.touch (h : shared.Guarded) (board : β) (shutdown : ShutdownSignal) :
    Guarded { shared with
      bench := shared.bench.on fun x => { x with board := board, shutdown := shutdown } } := by
  obtain ⟨acts, hsound⟩ := h.sound
  exact ⟨⟨acts, hsound.holders_eq, hsound.ordered, hsound.torn, hsound.spawned⟩, h.measuring⟩

end Steps

/-! ### Nobody at work -/

variable {setup : Setup β SimulatedDma} {shared shared' : SharedInstrument β SimulatedDma}
  {act : SharedAct β SimulatedDma}

/-- What stays true of a shared instrument while its engine is left to itself and to the sessions.
-/
structure Tended (shared : SharedInstrument β SimulatedDma) : Prop extends Guarded shared where
  alone : shared.bench.Guarded
  awaited : shared.bench.Awaited
  driven : shared.bench.Driven

theorem tended_fresh (board : β) {dma : SimulatedDma} (hidle : dma.running = false) :
    (fresh board dma).Tended where
  toGuarded := guarded_fresh board dma
  alone := Bench.guarded_fresh board dma
  awaited := Bench.awaited_fresh board dma
  driven := Bench.driven_fresh board hidle

theorem Tended.step (h : shared.Tended) (hdma : setup.dma = SimulatedDma.engine)
    (hnatural : ∀ act', act = .bench act' → act'.Natural shared.bench.instrument.dma)
    (hstep : shared.step setup act = some shared') : shared'.Tended := by
  obtain ⟨acts, hsound⟩ := h.sound
  rcases bench_of_step hstep with ⟨act', rfl, hbench, -⟩ | ⟨-, hbeside⟩
  · exact ⟨h.toGuarded.step hstep, h.alone.step hsound hbench, h.awaited.step h.alone hsound hbench,
      h.driven.step hdma h.alone hsound (hnatural act' rfl) hbench⟩
  · exact ⟨h.toGuarded.step hstep, h.alone.beside hbeside, h.awaited.beside hbeside,
      h.driven.beside hbeside⟩

theorem Tended.touch (h : shared.Tended) (board : β) (shutdown : ShutdownSignal) :
    Tended { shared with
      bench := shared.bench.on fun x => { x with board := board, shutdown := shutdown } } := by
  have hbeside : shared.bench.Beside
      (shared.bench.on fun x => { x with board := board, shutdown := shutdown }) :=
    ⟨⟨rfl, rfl, rfl⟩, rfl, rfl⟩
  exact ⟨h.toGuarded.touch board shutdown, h.alone.beside hbeside, h.awaited.beside hbeside,
    h.driven.beside hbeside⟩

/-- While nothing is asked for, a last worker that has ended is the last one, and its handle is not
made again. -/
theorem Tended.keeps (h : shared.Tended) (hunasked : shared.Unasked)
    (hstep : shared.step setup act = some shared') :
    (shared.bench.Over → shared'.bench.Over) ∧
      (shared.bench.joinable = false → shared'.bench.joinable = false) := by
  rcases bench_of_step hstep with ⟨act', -, hbench, -⟩ | ⟨-, hbeside⟩
  · obtain ⟨acts, hsound⟩ := h.sound
    have hspawns := Bench.spawns_of_step hbench hunasked.starts
    exact ⟨(h.alone.keeps hsound hbench hspawns).2, Bench.joinable_of_step hbench hspawns⟩
  · exact ⟨fun hover => hover.beside hbeside, hbeside.joinable.trans⟩

theorem Tended.holders_eq_nil (h : shared.Tended) (hunasked : shared.Unasked)
    (hover : shared.bench.Over) :
    shared.bench.holders = [] :=
  Bench.holders_eq_nil h.alone hover hunasked.starts

/-- Where all is over, the ADC is free. -/
theorem Tended.arbiter_eq_idle (h : shared.Tended) (hunasked : shared.Unasked)
    (hover : shared.bench.Over) : shared.bench.instrument.arbiter = .idle := by
  obtain ⟨acts, hsound⟩ := h.sound
  have hstream := hsound.holders_eq
  rw [h.holders_eq_nil hunasked hover] at hstream
  have hscan : shared.scans.countP ScanCall.isMeasuring = 0 := by
    refine List.countP_eq_zero.mpr fun scan hscan hmeasuring => ?_
    obtain ⟨number, hnumber⟩ := List.mem_iff_getElem?.mp hscan
    refine hunasked.scans number ⟨scan, hnumber, ?_⟩
    obtain ⟨watch, point⟩ := scan
    cases point with
    | measuring answers => exact Nat.le_refl 1
    | claiming | returned => cases hmeasuring
  rw [h.measuring] at hscan
  generalize shared.bench.instrument.arbiter = a at hstream hscan
  obtain ⟨_ | _ | id⟩ := a
  · rfl
  · cases hscan
  · cases hstream

/-- Where all is over, the engine is stopped. -/
theorem Tended.running_eq_false (h : shared.Tended) (hunasked : shared.Unasked)
    (hover : shared.bench.Over) : shared.bench.instrument.dma.running = false := by
  refine Bool.eq_false_iff.mpr fun hrunning => ?_
  rcases h.driven hrunning with ⟨run, hrun, hstopping⟩ | ⟨number, id, point, hcall, hignited⟩
  · rw [beq_iff_eq.mp (hover run hrun)] at hstopping
    exact hstopping (by decide)
  · refine hunasked.starts number ⟨_, hcall, rfl, ?_⟩
    cases point with
    | returned failure => cases hignited
    | _ => rfl

/-- Where all is over, every run has ended with its logger. -/
theorem Tended.run_ended (h : shared.Tended) (hover : shared.bench.Over) {run : Run}
    (hrun : run ∈ shared.bench.runs) :
    run.isFinished = true ∧ ∀ point, run.logger = some point → point = .finished := by
  obtain ⟨acts, hsound⟩ := h.sound
  have hfinished : run.isFinished = true := by
    rcases List.mem_append.mp hrun with hearlier | hlast
    · exact h.alone.ended run hearlier
    · exact hover run (Option.mem_toList.mp hlast)
  refine ⟨hfinished, hsound.ordered run hrun ?_⟩
  rw [beq_iff_eq.mp hfinished]
  decide

/-- Where all is over, nobody touches the board but the hardware itself. -/
theorem Tended.board_of_step (h : shared.Tended) (hunasked : shared.Unasked)
    (hover : shared.bench.Over)
    (hact : act.isReserved = false) (hstep : shared.step setup act = some shared') :
    shared'.bench.instrument.board = shared.bench.instrument.board ∨
      ∃ dma, act = .bench (.hardware shared'.bench.instrument.board dma) := by
  obtain ⟨acts, hsound⟩ := h.sound
  cases act with
  | bench act =>
      rcases bench_of_step hstep with ⟨act', hact', hbench, -⟩ | ⟨hne, -⟩
      · obtain rfl := SharedAct.bench.inj hact'
        by_cases hhardware : ∃ board dma, act = .hardware board dma
        · obtain ⟨board, dma, rfl⟩ := hhardware
          rw [← Option.some.inj hbench]
          exact .inr ⟨dma, rfl⟩
        · obtain ⟨-, hundriven⟩ := hsound.undriven (h.holders_eq_nil hunasked hover) hbench
          exact .inl (hundriven fun board dma heq => hhardware ⟨board, dma, heq⟩).board
      · exact absurd rfl (hne act)
  | arrive watch => cases hact
  | scan number step =>
      obtain ⟨scan, point', hscan, hmoves, -⟩ := scan_cases hstep
      exact absurd ⟨scan, hscan, hmoves.stage.1⟩ (hunasked.scans number)

end SharedInstrument

end DaqServer
