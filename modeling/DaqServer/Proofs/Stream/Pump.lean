import DaqServer.Proofs.Stream.Session

/-!
# The pump loop over the simulated engine

A worker moves slots from the engine into the ring until somebody tells it to end. `Run.Pumps` says
that nobody has told it and that the engine can do what the worker will ask of it. Main statements:
no step of the worker ends the loop of such a run, nor does one of the logger whose peer takes
blocks; and no step of either takes a stop back.
-/

namespace DaqServer

open SimulatedDma (slotCount)

namespace WorkerPoint

/-- Whether the worker is before the end of its pump loop. -/
def pumping : WorkerPoint → Bool
  | returning | ending | joining | idling | stopping | closing | yielding | finished => false
  | _ => true

/-- The slots that the worker has in hand are slots of the engine, and filled. -/
def Fed (d : SimulatedDma) : WorkerPoint → Prop
  | offering slots | claiming slots | filling slots | publishing slots | releasing slots =>
      slots ≠ [] ∧ slots.length ≤ d.pending ∧ ∀ slot ∈ slots, slot < slotCount
  | _ => True

theorem Fed.mono {point : WorkerPoint} {d d' : SimulatedDma} (h : point.Fed d)
    (hpending : d.pending ≤ d'.pending) : point.Fed d' := by
  cases point with
  | offering slots | claiming slots | filling slots | publishing slots | releasing slots =>
      exact ⟨h.1, Nat.le_trans h.2.1 hpending, h.2.2⟩
  | _ => trivial

end WorkerPoint

theorem fed_ready {d : SimulatedDma} (h : d.pending ≠ 0) :
    (WorkerPoint.offering
      (DmaReady.slots ⟨d.released % slotCount, d.pending⟩ slotCount)).Fed d := by
  have hlength : (DmaReady.slots ⟨d.released % slotCount, d.pending⟩ slotCount).length =
      d.pending := by
    rw [DmaReady.slots, List.length_map, List.length_range]
  refine ⟨fun hnil => h ?_, Nat.le_of_eq hlength, fun slot hslot => ?_⟩
  · rw [← hlength, hnil, List.length_nil]
  · obtain ⟨i, -, rfl⟩ := List.mem_map.mp hslot
    exact Nat.mod_lt _ (by decide)

namespace Run

/-- A run goes on: nobody has told it to end, and its engine can do what it will be asked. -/
structure Pumps (bytes : Nat) (run : Run) (d : SimulatedDma) : Prop where
  pumping : run.worker.pumping = true
  terminate : run.flags.terminate = false
  cancelPending : d.cancelPending = false
  logger : run.logger ≠ some .cancelling
  fed : run.worker.Fed d
  slotBytes : run.ring.slotBytes = bytes
  sized : d.Sized bytes

variable {β : Type} {setup : Setup β SimulatedDma} {run : Run} {x y : Instrument β SimulatedDma}
  {bytes : Nat}

theorem Pumps.drifts {d d' : SimulatedDma} (h : run.Pumps bytes d) (hd : d.Drifts d') :
    run.Pumps bytes d' :=
  { h with
    cancelPending := hd.cancelPending.trans h.cancelPending
    fed := h.fed.mono hd.pending_le
    sized := h.sized.drifts hd }

theorem Pumps.workerTo {d : SimulatedDma} (h : run.Pumps bytes d) {point : WorkerPoint}
    (hpumping : point.pumping = true) (hfed : point.Fed d) :
    Pumps bytes { run with worker := point } d :=
  { h with pumping := hpumping, fed := hfed }

theorem Pumps.workerStep (hdma : setup.dma = SimulatedDma.engine) (h : run.Pumps bytes x.dma)
    (hstep : run.workerStep setup x = some y) :
    ∃ run', y.session.run = some run' ∧ run'.Pumps bytes y.dma := by
  obtain ⟨connection, sink, flags, ring, worker, logger⟩ := run
  obtain ⟨port, dma, scan, watch, stream⟩ := setup
  obtain rfl : dma = SimulatedDma.engine := hdma
  have hfed := h.fed
  have hterminate : flags.terminate = false := h.terminate
  have hring : ring.slotBytes = bytes := h.slotBytes
  cases worker with
  | launching =>
      obtain rfl := Option.some.inj hstep
      exact ⟨_, rfl, { h with pumping := rfl, fed := trivial, logger := by simp }⟩
  | checking =>
      simp only [Run.workerStep, hterminate] at hstep
      obtain rfl := Option.some.inj hstep
      exact ⟨_, rfl, h.workerTo rfl trivial⟩
  | querying =>
      obtain rfl := Option.some.inj hstep
      refine ⟨_, rfl, ?_⟩
      dsimp only [SimulatedDma.engine, SimulatedDma.ready]
      split
      · exact h.workerTo rfl trivial
      · exact h.workerTo rfl (fed_ready ‹_›)
  | waiting =>
      simp only [Run.workerStep, SimulatedDma.engine,
        SimulatedDma.wait_of_not_cancelPending h.cancelPending] at hstep
      split at hstep
      · cases hstep
      · rename_i result dma hwait
        obtain ⟨hcan, hfired⟩ := Option.ite_none_right_eq_some.mp hwait
        obtain ⟨rfl, rfl⟩ := Prod.mk.inj (Option.some.inj hfired)
        obtain rfl := Option.some.inj hstep
        exact ⟨_, rfl, (h.drifts (.produce hcan)).workerTo rfl trivial⟩
  | offering slots =>
      simp only [Run.workerStep, hterminate] at hstep
      obtain rfl := Option.some.inj hstep
      exact ⟨_, rfl, h.workerTo rfl hfed⟩
  | claiming slots =>
      simp only [Run.workerStep] at hstep
      split at hstep
      · obtain rfl := Option.some.inj hstep
        exact ⟨_, rfl, h.workerTo rfl hfed⟩
      · rename_i taken htaken
        obtain ⟨-, rfl⟩ := Ring.eq_of_takeEmpty htaken
        obtain rfl := Option.some.inj hstep
        exact ⟨_, rfl, { h with pumping := rfl, fed := hfed, slotBytes := hring }⟩
  | filling slots =>
      obtain ⟨hne, hlength, hslots⟩ := hfed
      obtain ⟨slot, rest, rfl⟩ := List.exists_cons_of_ne_nil hne
      obtain ⟨contents, hcopy⟩ := h.sized.copySlot (hslots slot List.mem_cons_self)
      simp only [Run.workerStep, SimulatedDma.engine, List.headD_cons, hring, hcopy] at hstep
      obtain rfl := Option.some.inj hstep
      exact ⟨_, rfl, { h with pumping := rfl, fed := ⟨hne, hlength, hslots⟩, slotBytes := hring }⟩
  | publishing slots =>
      obtain rfl := Option.some.inj hstep
      exact ⟨_, rfl, { h with pumping := rfl, fed := hfed, slotBytes := hring }⟩
  | releasing slots =>
      obtain ⟨hne, hlength, hslots⟩ := hfed
      obtain ⟨slot, rest, rfl⟩ := List.exists_cons_of_ne_nil hne
      have hpending : x.dma.pending ≠ 0 := by
        rw [List.length_cons] at hlength
        omega
      simp only [Run.workerStep, SimulatedDma.engine, SimulatedDma.release_one hpending,
        List.tail_cons] at hstep
      obtain rfl := Option.some.inj hstep
      have hsized := h.sized
      refine ⟨_, rfl, { h with
        pumping := by cases rest <;> rfl
        fed := ?_
        sized := ⟨hsized.transferBytes, hsized.whole, hsized.length_slots, hsized.length_slot⟩ }⟩
      cases rest with
      | nil => trivial
      | cons next rest =>
          refine ⟨List.cons_ne_nil _ _, ?_, fun slot hslot => hslots slot (.tail _ hslot)⟩
          rw [SimulatedDma.pending, List.length_cons] at hlength
          change (next :: rest).length ≤ x.dma.produced - (x.dma.released + 1)
          omega
  | returning | ending | joining | idling | stopping | closing | yielding | finished =>
      cases h.pumping

theorem Pumps.loggerStep (h : run.Pumps bytes x.dma) (hstep : run.loggerStep setup x = some y)
    (hlogger : run.logger ≠ some .failing) :
    ∃ run', y.session.run = some run' ∧ run'.Pumps bytes y.dma := by
  obtain ⟨connection, sink, flags, ring, worker, logger⟩ := run
  rcases logger with _ | point
  · cases hstep
  cases point with
  | checking =>
      obtain rfl := Option.some.inj hstep
      exact ⟨_, rfl, { h with logger := by dsimp only; split <;> simp }⟩
  | taking =>
      simp only [Run.loggerStep] at hstep
      split at hstep
      · obtain rfl := Option.some.inj hstep
        exact ⟨_, rfl, { h with logger := by simp }⟩
      · rename_i taken htaken
        obtain ⟨-, rfl⟩ := Ring.eq_of_takeFull htaken
        obtain rfl := Option.some.inj hstep
        exact ⟨_, rfl, { h with logger := by simp, slotBytes := h.slotBytes }⟩
  | sending block =>
      simp only [Run.loggerStep] at hstep
      split at hstep <;> obtain rfl := Option.some.inj hstep <;>
        exact ⟨_, rfl, { h with logger := by simp }⟩
  | copying =>
      obtain rfl := Option.some.inj hstep
      exact ⟨_, rfl, { h with logger := by simp }⟩
  | failing => exact absurd rfl hlogger
  | cancelling => exact absurd rfl h.logger
  | releasing =>
      obtain rfl := Option.some.inj hstep
      exact ⟨_, rfl, { h with logger := by simp, slotBytes := h.slotBytes }⟩
  | counting =>
      obtain rfl := Option.some.inj hstep
      exact ⟨_, rfl, { h with logger := by simp, terminate := h.terminate }⟩
  | finished => cases hstep

/-- Where the worker stays in its pump loop, it leaves its flag and a pending cancel alone. -/
theorem workerStep_pumping (hdma : setup.dma = SimulatedDma.engine)
    (hstep : run.workerStep setup x = some y) {run' : Run} (hrun' : y.session.run = some run')
    (hpumping : run'.worker.pumping = true) :
    run.worker.pumping = true ∧ run'.flags = run.flags ∧
      y.dma.cancelPending = x.dma.cancelPending := by
  obtain ⟨connection, sink, flags, ring, worker, logger⟩ := run
  obtain ⟨port, dma, scan, watch, stream⟩ := setup
  obtain rfl : dma = SimulatedDma.engine := hdma
  cases worker with
  | launching | checking | querying | offering slots | publishing slots =>
      obtain rfl := Option.some.inj hstep
      obtain rfl := Option.some.inj hrun'
      exact ⟨rfl, rfl, rfl⟩
  | waiting =>
      simp only [Run.workerStep, SimulatedDma.engine] at hstep
      cases hcancel : x.dma.cancelPending with
      | true =>
          rw [SimulatedDma.wait_of_cancelPending hcancel] at hstep
          obtain rfl := Option.some.inj hstep
          obtain rfl := Option.some.inj hrun'
          cases hpumping
      | false =>
          rw [SimulatedDma.wait_of_not_cancelPending hcancel] at hstep
          split at hstep
          · cases hstep
          · rename_i result dma hwait
            obtain ⟨hcan, hfired⟩ := Option.ite_none_right_eq_some.mp hwait
            obtain ⟨rfl, rfl⟩ := Prod.mk.inj (Option.some.inj hfired)
            obtain rfl := Option.some.inj hstep
            obtain rfl := Option.some.inj hrun'
            exact ⟨rfl, rfl, hcancel⟩
  | claiming slots =>
      simp only [Run.workerStep] at hstep
      split at hstep <;> obtain rfl := Option.some.inj hstep <;>
        obtain rfl := Option.some.inj hrun' <;> exact ⟨rfl, rfl, rfl⟩
  | filling slots =>
      rcases hcopy : SimulatedDma.copySlot (slots.headD 0) ring.slotBytes x.dma with ⟨result, d⟩
      obtain rfl := SimulatedDma.eq_of_copySlot hcopy
      simp only [Run.workerStep, SimulatedDma.engine, hcopy] at hstep
      obtain rfl := Option.some.inj hstep
      obtain rfl := Option.some.inj hrun'
      cases result with
      | error e => cases hpumping
      | ok contents => exact ⟨rfl, rfl, rfl⟩
  | releasing slots =>
      have hrelease : (SimulatedDma.release 1 x.dma).2.cancelPending = x.dma.cancelPending := by
        rw [SimulatedDma.release]
        split <;> rfl
      obtain rfl := Option.some.inj hstep
      obtain rfl := Option.some.inj hrun'
      exact ⟨rfl, rfl, hrelease⟩
  | joining =>
      simp only [Run.workerStep] at hstep
      split at hstep
      · obtain rfl := Option.some.inj hstep
        obtain rfl := Option.some.inj hrun'
        cases hpumping
      · obtain rfl := Option.some.inj hstep
        obtain rfl := Option.some.inj hrun'
        cases hpumping
      · cases hstep
  | closing =>
      obtain rfl := Option.some.inj hstep
      dsimp only at hrun'
      split at hrun' <;> obtain rfl := Option.some.inj hrun' <;> cases hpumping
  | returning | ending | idling | stopping | yielding =>
      obtain rfl := Option.some.inj hstep
      obtain rfl := Option.some.inj hrun'
      cases hpumping
  | finished => cases hstep

/-- A worker that waits for an engine with a pending cancel goes on to its end. -/
theorem workerStep_of_cancelPending (hdma : setup.dma = SimulatedDma.engine)
    (hworker : run.worker = .waiting) (hcancel : x.dma.cancelPending = true) :
    ∃ y, run.workerStep setup x = some y ∧
      y.session.run = some { run with worker := .ending } := by
  refine ⟨{ x.setRun { run with worker := .ending } with
    dma := { x.dma with cancelPending := false } }, ?_, rfl⟩
  rw [workerStep, hworker, hdma]
  simp only [SimulatedDma.engine, SimulatedDma.wait_of_cancelPending hcancel]

theorem isFinished_of_pumping (h : run.worker.pumping = true) : run.isFinished = false := by
  rw [isFinished]
  cases hworker : run.worker with
  | finished =>
      rw [hworker] at h
      cases h
  | _ => rfl

/-- The logger leaves the worker where it is and takes no stop back. -/
theorem loggerStep_told (hdma : setup.dma = SimulatedDma.engine)
    (hstep : run.loggerStep setup x = some y) {run' : Run} (hrun' : y.session.run = some run') :
    run'.worker = run.worker ∧ (run.flags.terminate = true → run'.flags.terminate = true) ∧
      (x.dma.cancelPending = true → y.dma.cancelPending = true) := by
  obtain ⟨connection, sink, flags, ring, worker, logger⟩ := run
  obtain ⟨port, dma, scan, watch, stream⟩ := setup
  obtain rfl : dma = SimulatedDma.engine := hdma
  rcases logger with _ | point
  · cases hstep
  cases point with
  | taking | sending block =>
      simp only [Run.loggerStep] at hstep
      split at hstep <;> obtain rfl := Option.some.inj hstep <;>
        obtain rfl := Option.some.inj hrun' <;> exact ⟨rfl, id, id⟩
  | checking | copying | releasing | counting =>
      obtain rfl := Option.some.inj hstep
      obtain rfl := Option.some.inj hrun'
      exact ⟨rfl, id, id⟩
  | failing =>
      obtain rfl := Option.some.inj hstep
      obtain rfl := Option.some.inj hrun'
      exact ⟨rfl, fun _ => rfl, id⟩
  | cancelling =>
      obtain rfl := Option.some.inj hstep
      obtain rfl := Option.some.inj hrun'
      exact ⟨rfl, id, fun _ => rfl⟩
  | finished => cases hstep

end Run

end DaqServer
