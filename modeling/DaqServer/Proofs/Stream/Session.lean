import DaqServer.Board.Simulated
import DaqServer.Stream.Control
import DaqServer.Proofs.Stream.Blocks

/-!
# What a streaming session delivers

`Streams` says of an instrument that its last run delivers blocks to a sink; a start of a session
begins with it, and `Step` lists what may happen then. Main statement: in whatever order the
threads, the engine, the peer and the callers take their steps, the sink has got the first blocks of
the run, each once and in order.
-/

namespace DaqServer

open SimulatedDma (block blocks)

def StreamSettings.blockSamples (s : StreamSettings) : Nat := s.blockBytes / 4

theorem StreamSettings.blockSamples_eq (s : StreamSettings) :
    s.blockSamples = s.transferSamples.toNat := by
  rw [blockSamples, blockBytes, Nat.mul_div_cancel_left _ (by decide)]

theorem Sink.written_of_send {s s' : Sink} {contents : Bytes} (h : s.send contents = some s') :
    s'.written = s.written ++ [contents] := by
  rw [send] at h
  split at h
  · exact Option.some.inj h ▸ rfl
  · exact absurd h nofun
  · exact Option.some.inj h ▸ rfl

namespace Instrument

variable {β : Type} {x y : Instrument β SimulatedDma} {id sink : SinkId}

def written (x : Instrument β SimulatedDma) (id : SinkId) : List Bytes :=
  ((x.session.sinks[id]?).map Sink.written).getD []

theorem written_modifySink {f : Sink → Sink} (hf : ∀ s, (f s).written = s.written) :
    (x.modifySink id f).written sink = x.written sink := by
  rw [written, modifySink, List.getElem?_modify]
  cases hsink : x.session.sinks[sink]? with
  | none => simp [written, hsink]
  | some s => by_cases hid : id = sink <;> simp [written, hsink, hid, hf]

theorem written_send {s s' : Sink} {contents : Bytes} (hs : x.session.sinks[id]? = some s)
    (hsend : s.send contents = some s') :
    (x.modifySink id fun _ => s').written id = x.written id ++ [contents] := by
  rw [written, modifySink, List.getElem?_modify, hs, written, hs]
  simp [Sink.written_of_send hsend]

/-- The last run of an instrument delivers blocks of `w` samples to a sink, which it got with some
blocks already written. -/
def Streams (x : Instrument β SimulatedDma) (w : Nat) (sink : SinkId) (before : List Bytes) :
    Prop :=
  ∃ (run : Run) (published released sent reading : Nat),
    x.session.run = some run ∧ run.sink = sink ∧
    run.Delivers w x.dma published released sent reading ∧
    x.written sink = before ++ blocks w sent

variable {setup : Setup β SimulatedDma} {w : Nat} {before : List Bytes}

/-- A step of the worker goes on with the delivery and writes nothing. -/
theorem Streams.workerStep (hdma : setup.dma = SimulatedDma.engine)
    (h : x.Streams w sink before) (hstep : x.workerStep setup = some y) :
    y.Streams w sink before := by
  obtain ⟨⟨connection, sink, flags, ring, worker, logger⟩, published, released, sent, reading, hrun,
    rfl, hdelivers, hwritten⟩ := h
  obtain ⟨port, dma, scan, watch, stream⟩ := setup
  obtain rfl : dma = SimulatedDma.engine := hdma
  rw [Instrument.workerStep, hrun, Option.bind_some] at hstep
  have hfollows := hdelivers.worker
  cases worker with
  | launching =>
      obtain rfl := Option.some.inj hstep
      exact ⟨_, _, _, _, _, rfl, rfl, hdelivers.launch rfl, hwritten⟩
  | checking =>
      obtain rfl := Option.some.inj hstep
      refine ⟨_, published, released, sent, reading, rfl, rfl, ?_, hwritten⟩
      split
      · exact hdelivers.workerTo rfl trivial nofun
      · exact hdelivers.workerTo rfl hfollows nofun
  | querying =>
      obtain rfl := Option.some.inj hstep
      refine ⟨_, published, released, sent, reading, rfl, rfl, ?_, hwritten⟩
      dsimp only [SimulatedDma.engine, SimulatedDma.ready]
      split
      · exact hdelivers.workerTo rfl hfollows nofun
      · exact hdelivers.workerTo rfl ⟨hfollows, SimulatedDma.due_ready ‹_›⟩ nofun
  | waiting =>
      simp only [Run.workerStep, SimulatedDma.engine] at hstep
      split at hstep
      · exact absurd hstep nofun
      · rename_i result dma hwait
        obtain rfl := Option.some.inj hstep
        obtain ⟨hnumbers, hreleased, hproduced⟩ := hdelivers.numbers.wait hwait
        have hwaited := hdelivers.engine hnumbers hreleased hproduced
        refine ⟨_, published, released, sent, reading, rfl, rfl, ?_, hwritten⟩
        split
        · exact hwaited.workerTo rfl (hreleased.trans hfollows) nofun
        · exact hwaited.workerTo rfl trivial nofun
  | offering slots =>
      obtain rfl := Option.some.inj hstep
      refine ⟨_, published, released, sent, reading, rfl, rfl, ?_, hwritten⟩
      split
      · exact hdelivers.workerTo rfl trivial nofun
      · exact hdelivers.workerTo rfl hfollows nofun
  | claiming slots =>
      simp only [Run.workerStep] at hstep
      split at hstep
      · obtain rfl := Option.some.inj hstep
        exact ⟨_, _, _, _, _, rfl, rfl, hdelivers.workerTo rfl hfollows nofun, hwritten⟩
      · rename_i taken htaken
        obtain rfl := Option.some.inj hstep
        exact ⟨_, _, _, _, _, rfl, rfl, hdelivers.claim rfl htaken, hwritten⟩
  | filling slots =>
      rcases hcopy : SimulatedDma.copySlot (slots.headD 0) ring.slotBytes x.dma with ⟨result, dma⟩
      obtain rfl := SimulatedDma.eq_of_copySlot hcopy
      simp only [Run.workerStep, SimulatedDma.engine, hcopy] at hstep
      obtain rfl := Option.some.inj hstep
      cases result with
      | error e =>
          exact ⟨_, _, _, _, _, rfl, rfl, hdelivers.workerTo rfl hfollows.1 nofun, hwritten⟩
      | ok contents =>
          obtain rfl := hdelivers.numbers.copySlot hfollows.2 hcopy
          rw [hfollows.1]
          exact ⟨_, _, _, _, _, rfl, rfl, hdelivers.fill rfl, hwritten⟩
  | returning =>
      obtain rfl := Option.some.inj hstep
      exact ⟨_, _, _, _, _, rfl, rfl, hdelivers.giveBack rfl, hwritten⟩
  | publishing slots =>
      obtain rfl := Option.some.inj hstep
      exact ⟨_, _, _, _, _, rfl, rfl, hdelivers.publish rfl, hwritten⟩
  | releasing slots =>
      obtain ⟨d, hrelease, hreleased⟩ := hdelivers.release rfl
      simp only [Run.workerStep, SimulatedDma.engine, hrelease] at hstep
      obtain rfl := Option.some.inj hstep
      exact ⟨_, _, _, _, _, rfl, rfl, hreleased, hwritten⟩
  | ending =>
      obtain rfl := Option.some.inj hstep
      have hended : Run.Delivers ⟨connection, sink, flags, ring, .joining, logger⟩ w x.dma published
          released sent reading := hdelivers.workerTo rfl trivial nofun
      exact ⟨_, _, _, _, _, rfl, rfl, hended.withFlags rfl, hwritten⟩
  | joining =>
      simp only [Run.workerStep] at hstep
      split at hstep
      · obtain rfl := Option.some.inj hstep
        exact ⟨_, _, _, _, _, rfl, rfl, hdelivers.workerTo rfl trivial nofun, hwritten⟩
      · obtain rfl := Option.some.inj hstep
        exact ⟨_, _, _, _, _, rfl, rfl, hdelivers.workerTo rfl trivial nofun, hwritten⟩
      · exact absurd hstep nofun
  | idling =>
      obtain rfl := Option.some.inj hstep
      exact ⟨_, _, _, _, _, rfl, rfl, hdelivers.workerTo rfl trivial nofun, hwritten⟩
  | stopping =>
      obtain rfl := Option.some.inj hstep
      exact ⟨_, _, _, _, _, rfl, rfl, hdelivers.stop rfl, hwritten⟩
  | closing =>
      obtain rfl := Option.some.inj hstep
      have hclosed : Run.Delivers ⟨connection, sink, flags, ring, .yielding, logger⟩ w x.dma
          published released sent reading := hdelivers.workerTo rfl trivial nofun
      split
      · exact ⟨_, _, _, _, _, rfl, rfl, hclosed,
          (written_modifySink (f := Sink.close) fun _ => rfl).trans hwritten⟩
      · exact ⟨_, _, _, _, _, rfl, rfl, hclosed, hwritten⟩
  | yielding =>
      obtain rfl := Option.some.inj hstep
      exact ⟨_, _, _, _, _, rfl, rfl, hdelivers.workerTo rfl trivial nofun, hwritten⟩
  | finished => exact absurd hstep nofun

/-- A step of the logger goes on with the delivery; it may write the next block. -/
theorem Streams.loggerStep (hdma : setup.dma = SimulatedDma.engine)
    (h : x.Streams w sink before) (hstep : x.loggerStep setup = some y) :
    y.Streams w sink before := by
  obtain ⟨⟨connection, sink, flags, ring, worker, logger⟩, published, released, sent, reading, hrun,
    rfl, hdelivers, hwritten⟩ := h
  obtain ⟨port, dma, scan, watch, stream⟩ := setup
  obtain rfl : dma = SimulatedDma.engine := hdma
  rw [Instrument.loggerStep, hrun, Option.bind_some] at hstep
  have hfollows := hdelivers.logger
  rcases logger with _ | point
  · exact absurd hstep nofun
  cases point with
  | checking =>
      obtain rfl := Option.some.inj hstep
      refine ⟨_, published, released, sent, reading, rfl, rfl, ?_, hwritten⟩
      split
      · exact hdelivers.loggerTo nofun hfollows.2
      · exact hdelivers.loggerTo nofun hfollows
  | taking =>
      simp only [Run.loggerStep] at hstep
      split at hstep
      · obtain rfl := Option.some.inj hstep
        exact ⟨_, _, _, _, _, rfl, rfl, hdelivers.loggerTo nofun hfollows, hwritten⟩
      · rename_i taken htaken
        obtain rfl := Option.some.inj hstep
        exact ⟨_, _, _, _, _, rfl, rfl, hdelivers.take rfl htaken, hwritten⟩
  | copying =>
      obtain rfl := Option.some.inj hstep
      exact ⟨_, _, _, _, _, rfl, rfl, hdelivers.copy rfl, hwritten⟩
  | sending contents =>
      obtain ⟨hreading, hreleased, hcounted, rfl⟩ := hfollows
      simp only [Run.loggerStep] at hstep
      split at hstep
      · obtain rfl := Option.some.inj hstep
        exact ⟨_, _, _, _, _, rfl, rfl,
          hdelivers.loggerTo nofun ⟨hreading, hreleased, hcounted⟩, hwritten⟩
      · rename_i s' hsend
        obtain rfl := Option.some.inj hstep
        obtain ⟨s, hs, hsend⟩ := Option.bind_eq_some_iff.mp hsend
        refine ⟨_, published, released, sent + 1, reading, rfl, rfl,
          hdelivers.loggerTo nofun ⟨hreading, congrArg (· + 1) hreleased,
            congrArg (· + 1) hcounted⟩, (written_send hs hsend).trans ?_⟩
        rw [SimulatedDma.blocks_succ, ← List.append_assoc, ← hwritten]
  | failing =>
      obtain rfl := Option.some.inj hstep
      have hfailed : Run.Delivers ⟨connection, sink, flags, ring, worker, some .cancelling⟩ w x.dma
          published released sent reading := hdelivers.loggerTo nofun hfollows
      exact ⟨_, _, _, _, _, rfl, rfl, hfailed.withFlags rfl, hwritten⟩
  | cancelling =>
      obtain rfl := Option.some.inj hstep
      have hended : Run.Delivers ⟨connection, sink, flags, ring, worker, some .finished⟩ w x.dma
          published released sent reading := hdelivers.loggerTo nofun hfollows.2
      exact ⟨_, _, _, _, _, rfl, rfl, hended.cancel, hwritten⟩
  | releasing =>
      obtain rfl := Option.some.inj hstep
      exact ⟨_, _, _, _, _, rfl, rfl, hdelivers.returnSlot rfl, hwritten⟩
  | counting =>
      obtain rfl := Option.some.inj hstep
      exact ⟨_, _, _, _, _, rfl, rfl, hdelivers.count rfl, hwritten⟩
  | finished => exact absurd hstep nofun

/-- What may happen while a session is on: a step of a thread or of the engine, a request to stop,
and any change of the peer of a sink. -/
inductive Step (setup : Setup β SimulatedDma) :
    Instrument β SimulatedDma → Instrument β SimulatedDma → Prop
  | worker {x y : Instrument β SimulatedDma} (h : x.workerStep setup = some y) : Step setup x y
  | logger {x y : Instrument β SimulatedDma} (h : x.loggerStep setup = some y) : Step setup x y
  | produce {x : Instrument β SimulatedDma} (h : x.dma.canProduce = true) :
      Step setup x { x with dma := x.dma.produce }
  | cancel {x : Instrument β SimulatedDma} : Step setup x { x with dma := x.dma.cancel }
  | limit {x : Instrument β SimulatedDma} (slots : Option Nat) :
      Step setup x { x with dma := { x.dma with slotLimit := slots } }
  | stop {x : Instrument β SimulatedDma} : Step setup x (x.stopStream setup).2
  | peer {x : Instrument β SimulatedDma} (id : SinkId) (accepts : Option Nat) :
      Step setup x (x.modifySink id fun s => { s with accepts := accepts })

/-- The engine may do what keeps its numbers and hands no slot back. -/
theorem Streams.engine (h : x.Streams w sink before) {d : SimulatedDma}
    (hd : x.dma.Numbers w →
      d.Numbers w ∧ d.released = x.dma.released ∧ x.dma.produced ≤ d.produced) :
    { x with dma := d }.Streams w sink before := by
  obtain ⟨run, published, released, sent, reading, hrun, hsink, hdelivers, hwritten⟩ := h
  obtain ⟨hnumbers, hreleased, hproduced⟩ := hd hdelivers.numbers
  exact ⟨run, _, _, _, _, hrun, hsink, hdelivers.engine hnumbers hreleased hproduced, hwritten⟩

theorem Streams.step (hdma : setup.dma = SimulatedDma.engine) (h : x.Streams w sink before)
    (hstep : Step setup x y) : y.Streams w sink before := by
  cases hstep with
  | worker hworker => exact h.workerStep hdma hworker
  | logger hlogger => exact h.loggerStep hdma hlogger
  | produce hcan => exact h.engine fun hn => ⟨hn.produce hcan, rfl, Nat.le_succ _⟩
  | cancel => exact h.engine fun hn => ⟨hn.cancel, rfl, le_rfl⟩
  | limit slots => exact h.engine fun hn => ⟨hn.limit slots, rfl, le_rfl⟩
  | stop =>
      obtain ⟨run, published, released, sent, reading, hrun, hsink, hdelivers, hwritten⟩ := h
      have hended : run.terminate.Delivers w x.dma published released sent reading :=
        hdelivers.withFlags rfl
      rw [stopStream, requestStop, hrun, hdma]
      exact ⟨_, _, _, _, _, rfl, hsink, hended.cancel, hwritten⟩
  | peer id accepts =>
      obtain ⟨run, published, released, sent, reading, hrun, hsink, hdelivers, hwritten⟩ := h
      refine ⟨run, _, _, _, _, hrun, hsink, hdelivers, ?_⟩
      rw [← hwritten]
      exact written_modifySink fun _ => rfl

theorem Streams.steps (hdma : setup.dma = SimulatedDma.engine) (h : x.Streams w sink before)
    (hsteps : Relation.ReflTransGen (Step setup) x y) : y.Streams w sink before := by
  induction hsteps with
  | refl => exact h
  | tail _ hstep ih => exact ih.step hdma hstep

theorem startDma_eq (d : SimulatedDma) :
    startDma setup d = match setup.dma.configure setup.stream.blockBytes d with
      | (.error e, d) => (.error e, d)
      | (.ok (), d) => setup.dma.start d := by
  rw [startDma]
  rcases hconfigure : setup.dma.configure setup.stream.blockBytes d with ⟨result, d'⟩
  simp only [bind, ExceptT.bind, ExceptT.mk, StateT.bind, hconfigure, ExceptT.bindCont]
  cases result <;> rfl

theorem numbers_of_startDma (hdma : setup.dma = SimulatedDma.engine) {d d' : SimulatedDma}
    (hstart : startDma setup d = (.ok (), d')) :
    d'.Numbers setup.stream.blockSamples ∧ d'.released = 0 := by
  rw [startDma_eq, hdma] at hstart
  split at hstart
  · exact absurd (Prod.mk.inj hstart).1 nofun
  · rename_i hconfigure
    exact (SimulatedDma.sized_of_configure hconfigure).numbers_of_start hstart

/-- A session that was started has delivered nothing yet. -/
theorem streams_of_startStream (hdma : setup.dma = SimulatedDma.engine)
    (hslots : setup.stream.ringSlots ≠ 0) {connection : ConnectionId}
    (hstart : x.startStream setup connection = (.ok (), y)) :
    ∃ sink, x.endpoint? connection = some sink ∧
      y.Streams setup.stream.blockSamples sink (x.written sink) := by
  rw [startStream] at hstart
  split at hstart
  · exact absurd (Prod.mk.inj hstart).1 nofun
  split at hstart
  · exact absurd (Prod.mk.inj hstart).1 nofun
  rename_i sink hsink
  dsimp only at hstart
  split at hstart
  · exact absurd (Prod.mk.inj hstart).1 nofun
  rename_i dma hdmaStart
  obtain ⟨-, rfl⟩ := Prod.mk.inj hstart
  obtain ⟨hnumbers, hreleased⟩ := numbers_of_startDma hdma hdmaStart
  have hpos : 0 < setup.stream.ringSlots.toNat := by
    rw [Nat.pos_iff_ne_zero]
    exact fun h => hslots (UInt64.toNat_inj.mp h)
  refine ⟨sink, hsink, _, 0, 0, 0, 0, rfl, rfl, ?_, (List.append_nil _).symm⟩
  exact {
    numbers := hnumbers
    holds := Ring.holds_make hpos _
    published_le := Nat.zero_le _
    worker := hreleased
    unlaunched := fun _ => rfl
    logger := ⟨rfl, rfl, rfl⟩ }

/-- The turns that the threads take are steps. -/
theorem steps_turn (setup : Setup β SimulatedDma) (x : Instrument β SimulatedDma) :
    Relation.ReflTransGen (Step setup) x (x.turn setup) := by
  have hworker : Relation.ReflTransGen (Step setup) x ((x.workerStep setup).getD x) := by
    cases h : x.workerStep setup with
    | none => exact .refl
    | some y => exact .single (.worker h)
  refine hworker.trans ?_
  rw [turn]
  cases h : ((x.workerStep setup).getD x).loggerStep setup with
  | none => exact .refl
  | some y => exact .single (.logger h)

theorem steps_advance (setup : Setup β SimulatedDma) (goal : Instrument β SimulatedDma → Bool)
    (turns : Nat) (x : Instrument β SimulatedDma) :
    Relation.ReflTransGen (Step setup) x (x.advance setup goal turns) := by
  induction turns generalizing x with
  | zero => exact .refl
  | succ turns ih =>
      rw [advance]
      split
      · exact .refl
      · exact (steps_turn setup x).trans (ih (x.turn setup))

/-- Whatever happens after a session was started, its sink has got the first blocks of the run, each
once and in order, and none that the engine did not produce; the logger has counted them when it
begins its next round. No slot is overwritten too early: the engine still has every block that was
not handed back to it, and the ring every block that was published and not sent. -/
theorem delivers_prefix {setup : Setup β SimulatedDma} (hdma : setup.dma = SimulatedDma.engine)
    (hslots : setup.stream.ringSlots ≠ 0) {x y z : Instrument β SimulatedDma}
    {connection : ConnectionId} (hstart : x.startStream setup connection = (.ok (), y))
    (hsteps : Relation.ReflTransGen (Step setup) y z) :
    ∃ sink run n published, x.endpoint? connection = some sink ∧
      z.session.run = some run ∧ run.sink = sink ∧
      z.written sink = x.written sink ++ blocks setup.stream.blockSamples n ∧
      (run.logger = some .checking → run.flags.blocksSent = n) ∧
      n ≤ published ∧ published ≤ z.dma.produced ∧
      z.dma.produced ≤ z.dma.released + SimulatedDma.slotCount ∧
      (∀ k, z.dma.released ≤ k → k < z.dma.produced →
        z.dma.slots[k % SimulatedDma.slotCount]? = some (block setup.stream.blockSamples k)) ∧
      (∀ k, n ≤ k → k < published →
        run.ring.slots[k % run.ring.capacity]? = some (block setup.stream.blockSamples k)) ∧
      setup.stream.blockSamples = setup.stream.transferSamples.toNat := by
  obtain ⟨sink, hsink, hstarted⟩ := streams_of_startStream hdma hslots hstart
  obtain ⟨run, published, released, sent, reading, hrun, hrunSink, hdelivers, hwritten⟩ :=
    hstarted.steps hdma hsteps
  have hnumbers := hdelivers.numbers
  have hholds := hdelivers.holds
  have hfull := hholds.full_add
  have hfollows := hdelivers.logger
  obtain ⟨hreleased, hsent⟩ := hfollows.bounds
  rw [SimulatedDma.length_blocks] at hfull
  refine ⟨sink, run, sent, published, hsink, hrun, hrunSink, hwritten, ?_, ?_,
    hdelivers.published_le, hnumbers.produced_le, hnumbers.slots_eq, ?_,
    setup.stream.blockSamples_eq⟩
  · intro hlogger
    rw [hlogger] at hfollows
    exact hfollows.2.2
  · omega
  · intro k hk hpublished
    have hlength : k < (blocks setup.stream.blockSamples published).length := by
      rwa [SimulatedDma.length_blocks]
    rw [hholds.slots_eq k (Nat.le_trans hreleased hk) hlength]
    exact SimulatedDma.getElem?_blocks _ hpublished

def smallSetup : Setup SimulatedBoard SimulatedDma where
  port := SimulatedBoard.port .steady
  dma := SimulatedDma.engine
  scan := ⟨0, .ofMillis 1, .ofMillis 1, .ofMillis 1, .ofMillis 1⟩
  watch := .steady 1 0 Nat.one_pos
  stream := ⟨2, 1, .ofMillis 100⟩

def connected : Instrument SimulatedBoard SimulatedDma :=
  ((idle .powerOn .powerOn).registerEndpoint ⟨1⟩ (.fresh (some 2))).2

/-- The instrument after its session, in which the third block is refused. -/
def afterRefusal : Instrument SimulatedBoard SimulatedDma :=
  (connected.startStream smallSetup ⟨1⟩).2.advance smallSetup (fun _ => false) 60

theorem two_blocks_before_refusal :
    afterRefusal.written 0 = [[0, 0, 0, 0], [1, 0, 0, 0]] ∧
    afterRefusal.session.run.any Run.isFinished = true ∧
    ∃ n, afterRefusal.written 0 = blocks 1 n := by
  have hstart : connected.startStream smallSetup ⟨1⟩ =
      (.ok (), (connected.startStream smallSetup ⟨1⟩).2) := rfl
  refine ⟨by decide +kernel, by decide +kernel, ?_⟩
  obtain ⟨sink, run, n, published, hsink, hrun, hrunSink, hwritten, -⟩ :=
    delivers_prefix rfl (by decide) hstart (steps_advance smallSetup (fun _ => false) 60 _)
  obtain rfl : sink = 0 := (Option.some.inj hsink).symm
  exact ⟨n, hwritten⟩

end Instrument

end DaqServer
