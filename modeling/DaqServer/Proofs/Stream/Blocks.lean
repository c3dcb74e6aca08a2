import DaqServer.Stream.Run
import DaqServer.Stream.Threads
import DaqServer.Proofs.Board.SimulatedDma
import DaqServer.Proofs.Stream.Ring

/-!
# The blocks of a run

A block goes from a slot of the engine into a slot of the ring and from there to the sink. Between
two steps of a thread a block may be in two of these places, so every point of the worker and of the
logger has a condition of its own on the counts of published, released and sent blocks. `Delivers`
puts them together, and what a thread does at one of its points keeps it.
-/

namespace DaqServer

open SimulatedDma (block blocks)

def WorkerPoint.writing : WorkerPoint → Nat
  | .filling _ | .returning | .publishing _ => 1
  | _ => 0

/-- How the engine and the ring stand while the worker is at a point and has published so many
blocks. Only between publishing a block and handing its slot back are there two copies of it. -/
def WorkerPoint.Follows (w published : Nat) (ring : Ring) (d : SimulatedDma) : WorkerPoint → Prop
  | .launching | .checking | .querying | .waiting | .returning => d.released = published
  | .offering slots | .claiming slots | .filling slots => d.released = published ∧ d.Due slots
  | .publishing slots => d.released = published ∧ d.Due slots ∧
      ring.slots[ring.writeIndex]? = some (block w published)
  | .releasing slots => d.released + 1 = published ∧ d.Due slots
  | .ending | .joining | .idling | .stopping | .closing | .yielding | .finished => True

/-- How the counts of blocks stand while the logger is at a point: those released in the ring, those
sent, and those counted as sent. A logger that has finished may have kept a permit. -/
def LoggerPoint.Follows (w released sent reading counted : Nat) : LoggerPoint → Prop
  | .checking | .taking => reading = 0 ∧ sent = released ∧ counted = sent
  | .copying | .failing | .cancelling => reading = 1 ∧ sent = released ∧ counted = sent
  | .sending contents => reading = 1 ∧ sent = released ∧ counted = sent ∧ contents = block w sent
  | .releasing => reading = 1 ∧ sent = released + 1 ∧ counted + 1 = sent
  | .counting => reading = 0 ∧ sent = released ∧ counted + 1 = sent
  | .finished => sent = released ∧ counted = sent

theorem LoggerPoint.Follows.bounds {point : LoggerPoint} {w released sent reading counted : Nat}
    (h : point.Follows w released sent reading counted) :
    released ≤ sent ∧ sent ≤ released + reading := by
  cases point with
  | checking | taking | copying | failing | cancelling | sending | counting =>
      exact ⟨h.2.1.ge, h.2.1.le.trans (Nat.le_add_right _ _)⟩
  | releasing => exact ⟨h.2.1 ▸ Nat.le_succ _, by rw [h.1, h.2.1]⟩
  | finished => exact ⟨h.1.ge, h.1.le.trans (Nat.le_add_right _ _)⟩

/-- The engine may fill slots, and the logger may take and return permits. -/
theorem WorkerPoint.Follows.mono {point : WorkerPoint} {w published : Nat} {ring ring' : Ring}
    {d d' : SimulatedDma} (h : point.Follows w published ring d)
    (hreleased : d'.released = d.released) (hproduced : d.produced ≤ d'.produced)
    (hslots : ring'.slots = ring.slots) (hindex : ring'.writeIndex = ring.writeIndex) :
    point.Follows w published ring' d' := by
  cases point with
  | launching | checking | querying | waiting | returning => exact hreleased.trans h
  | offering slots | claiming slots | filling slots =>
      exact ⟨hreleased.trans h.1, h.2.mono hreleased hproduced⟩
  | publishing slots =>
      refine ⟨hreleased.trans h.1, h.2.1.mono hreleased hproduced, ?_⟩
      rw [hslots, hindex]
      exact h.2.2
  | releasing slots =>
      exact ⟨(congrArg (· + 1) hreleased).trans h.1, h.2.mono hreleased hproduced⟩
  | ending | joining | idling | stopping | closing | yielding | finished => trivial

namespace Run

/-- A run of `w` samples a transfer over an engine: the blocks published in the ring so far, those
released there, those sent, and the permits of the ring in the hand of the logger. -/
structure Delivers (run : Run) (w : Nat) (d : SimulatedDma)
    (published released sent reading : Nat) : Prop where
  numbers : d.Numbers w
  holds : run.ring.Holds (blocks w published) released run.worker.writing reading
  published_le : published ≤ d.produced
  worker : run.worker.Follows w published run.ring d
  unlaunched : run.worker = .launching → run.logger = none
  logger : (run.logger.getD .checking).Follows w released sent reading run.flags.blocksSent

namespace Delivers

variable {run : Run} {w : Nat} {d d' : SimulatedDma} {published released sent reading : Nat}

/-! ### Steps of the engine and of callers -/

theorem engine (h : run.Delivers w d published released sent reading) (hnumbers : d'.Numbers w)
    (hreleased : d'.released = d.released) (hproduced : d.produced ≤ d'.produced) :
    run.Delivers w d' published released sent reading :=
  { h with
    numbers := hnumbers
    published_le := Nat.le_trans h.published_le hproduced
    worker := h.worker.mono hreleased hproduced rfl rfl }

theorem cancel (h : run.Delivers w d published released sent reading) :
    run.Delivers w d.cancel published released sent reading :=
  h.engine h.numbers.cancel rfl le_rfl

theorem withFlags (h : run.Delivers w d published released sent reading) {flags : RunFlags}
    (hcounted : flags.blocksSent = run.flags.blocksSent) :
    { run with flags := flags }.Delivers w d published released sent reading :=
  { h with logger := by rw [hcounted]; exact h.logger }

/-! ### Steps of the worker -/

theorem workerTo (h : run.Delivers w d published released sent reading) {point : WorkerPoint}
    (hwriting : point.writing = run.worker.writing)
    (hfollows : point.Follows w published run.ring d) (hpoint : point ≠ .launching) :
    { run with worker := point }.Delivers w d published released sent reading where
  numbers := h.numbers
  holds := by rw [hwriting]; exact h.holds
  published_le := h.published_le
  worker := hfollows
  unlaunched heq := absurd heq hpoint
  logger := h.logger

theorem launch (h : run.Delivers w d published released sent reading)
    (hworker : run.worker = .launching) :
    { run with worker := .checking, logger := some .checking }.Delivers w d published released sent
      reading where
  numbers := h.numbers
  holds := by
    have hholds := h.holds
    rw [hworker] at hholds
    exact hholds
  published_le := h.published_le
  worker := by
    have hfollows := h.worker
    rw [hworker] at hfollows
    exact hfollows
  unlaunched := nofun
  logger := by
    have hlogger := h.logger
    rw [h.unlaunched hworker] at hlogger
    exact hlogger

theorem claim (h : run.Delivers w d published released sent reading) {slots : List Nat}
    (hworker : run.worker = .claiming slots) {ring : Ring}
    (hring : run.ring.takeEmpty = some ring) :
    { run with ring := ring, worker := .filling slots }.Delivers w d published released sent
      reading := by
  have hholds := h.holds
  have hfollows := h.worker
  rw [hworker] at hholds hfollows
  exact {
    numbers := h.numbers
    holds := hholds.takeEmpty hring
    published_le := h.published_le
    worker := hfollows
    unlaunched := nofun
    logger := h.logger }

theorem fill (h : run.Delivers w d published released sent reading) {slots : List Nat}
    (hworker : run.worker = .filling slots) :
    { run with
      ring := run.ring.fill (block w published)
      worker := .publishing slots }.Delivers w d published released sent reading := by
  have hholds := h.holds
  have hfollows := h.worker
  rw [hworker] at hholds hfollows
  exact {
    numbers := h.numbers
    holds := hholds.fill (block w published)
    published_le := h.published_le
    worker := ⟨hfollows.1, hfollows.2, hholds.getElem?_fill (block w published)⟩
    unlaunched := nofun
    logger := h.logger }

theorem giveBack (h : run.Delivers w d published released sent reading)
    (hworker : run.worker = .returning) :
    { run with ring := run.ring.giveBack, worker := .ending }.Delivers w d published released sent
      reading := by
  have hholds := h.holds
  rw [hworker] at hholds
  exact {
    numbers := h.numbers
    holds := hholds.giveBack
    published_le := h.published_le
    worker := trivial
    unlaunched := nofun
    logger := h.logger }

theorem publish (h : run.Delivers w d published released sent reading) {slots : List Nat}
    (hworker : run.worker = .publishing slots) :
    { run with ring := run.ring.publish, worker := .releasing slots }.Delivers w d (published + 1)
      released sent reading := by
  have hholds := h.holds
  have hfollows := h.worker
  rw [hworker] at hholds hfollows
  obtain ⟨hreleased, hdue, hslot⟩ := hfollows
  refine ⟨h.numbers, ?_, ?_, ⟨congrArg (· + 1) hreleased, hdue⟩, nofun, h.logger⟩
  · rw [SimulatedDma.blocks_succ]
    exact hholds.publish hslot
  · obtain ⟨n, hn, -⟩ := hdue
    omega

theorem release (h : run.Delivers w d published released sent reading) {slots : List Nat}
    (hworker : run.worker = .releasing slots) :
    ∃ d', SimulatedDma.release 1 d = (.ok (), d') ∧
      { run with worker := .next slots.tail }.Delivers w d' published released sent reading := by
  have hholds := h.holds
  have hfollows := h.worker
  rw [hworker] at hholds hfollows
  obtain ⟨hpublished, hdue⟩ := hfollows
  obtain ⟨d', hrelease, hnumbers, hreleased, hproduced, htail⟩ := h.numbers.release hdue
  rw [← hreleased] at hpublished
  refine ⟨d', hrelease, hnumbers, ?_, hproduced ▸ h.published_le, ?_, ?_, h.logger⟩
  · cases slots.tail <;> exact hholds
  · rcases htail with hnil | hdue'
    · rw [hnil]
      exact hpublished
    · cases htail : slots.tail with
      | nil => exact hpublished
      | cons slot rest => exact ⟨hpublished, htail ▸ hdue'⟩
  · cases slots.tail <;> exact nofun

theorem stop (h : run.Delivers w d published released sent reading)
    (hworker : run.worker = .stopping) :
    { run with worker := .closing }.Delivers w (SimulatedDma.stop d).2 published released sent
      reading := by
  have hholds := h.holds
  rw [hworker] at hholds
  exact {
    numbers := h.numbers.stop
    holds := hholds
    published_le := h.published_le
    worker := trivial
    unlaunched := nofun
    logger := h.logger }

/-! ### Steps of the logger -/

theorem loggerTo (h : run.Delivers w d published released sent reading) {point : LoggerPoint}
    (hlaunched : run.logger ≠ none) {sent' : Nat}
    (hfollows : point.Follows w released sent' reading run.flags.blocksSent) :
    { run with logger := some point }.Delivers w d published released sent' reading where
  numbers := h.numbers
  holds := h.holds
  published_le := h.published_le
  worker := h.worker
  unlaunched heq := absurd (h.unlaunched heq) hlaunched
  logger := hfollows

theorem take (h : run.Delivers w d published released sent reading)
    (hlogger : run.logger = some .taking) {ring : Ring} (hring : run.ring.takeFull = some ring) :
    { run with ring := ring, logger := some .copying }.Delivers w d published released sent 1 := by
  have hholds := h.holds
  have hfollows := h.logger
  rw [hlogger] at hfollows
  obtain ⟨rfl, hcounts⟩ := hfollows
  have htaken := hholds.takeFull hring
  obtain ⟨-, rfl⟩ := Ring.eq_of_takeFull hring
  refine ⟨h.numbers, htaken, h.published_le, h.worker.mono rfl le_rfl rfl rfl, ?_, rfl, hcounts⟩
  intro hworker
  exact absurd (h.unlaunched hworker) (hlogger ▸ nofun)

theorem copy (h : run.Delivers w d published released sent reading)
    (hlogger : run.logger = some .copying) :
    { run with logger := some (.sending run.ring.readSlot) }.Delivers w d published released sent
      reading := by
  have hholds := h.holds
  have hfollows := h.logger
  rw [hlogger] at hfollows
  obtain ⟨rfl, rfl, hcounted⟩ := hfollows
  have hfull := hholds.full_add
  have hread := hholds.readSlot
  rw [SimulatedDma.length_blocks] at hfull
  rw [SimulatedDma.getElem?_blocks w (by omega)] at hread
  exact h.loggerTo (hlogger ▸ nofun) ⟨rfl, rfl, hcounted, (Option.some.inj hread).symm⟩

theorem returnSlot (h : run.Delivers w d published released sent reading)
    (hlogger : run.logger = some .releasing) :
    { run with ring := run.ring.release, logger := some .counting }.Delivers w d published
      (released + 1) sent 0 := by
  have hholds := h.holds
  have hfollows := h.logger
  rw [hlogger] at hfollows
  obtain ⟨rfl, hsent, hcounted⟩ := hfollows
  refine ⟨h.numbers, hholds.release, h.published_le, h.worker.mono rfl le_rfl rfl rfl, ?_,
    rfl, hsent, hcounted⟩
  intro hworker
  exact absurd (h.unlaunched hworker) (hlogger ▸ nofun)

theorem count (h : run.Delivers w d published released sent reading)
    (hlogger : run.logger = some .counting) :
    { run with
      flags := { run.flags with blocksSent := run.flags.blocksSent + 1 }
      logger := some .checking }.Delivers w d published released sent reading := by
  have hfollows := h.logger
  rw [hlogger] at hfollows
  refine ⟨h.numbers, h.holds, h.published_le, h.worker, ?_, hfollows⟩
  intro hworker
  exact absurd (h.unlaunched hworker) (hlogger ▸ nofun)

end Delivers

end Run

end DaqServer
