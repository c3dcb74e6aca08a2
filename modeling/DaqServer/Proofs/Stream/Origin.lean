import DaqServer.Proofs.Stream.Session

/-!
# Where blocks come from

Whatever the engine is and whoever else drives it, the blocks that a run sends are contents that the
engine gave for one of its slots. A `source` takes in every block that the engine gives at some
moment. `Carries` says that everything a run holds comes from it, `Supplied` leaves the counts out;
main statement: the steps of both threads keep it.
-/

namespace DaqServer

variable {β δ : Type}

/-- The engine, as it stands, gives these contents for some slot. -/
def DmaEngine.Gives (engine : DmaEngine δ) (d : δ) (block : Bytes) : Prop :=
  ∃ slot destination d', engine.copySlot slot destination d = (.ok block, d')

/-- What the logger has in hand at a point: permits of the ring, and a block. -/
def LoggerPoint.Takes (source : Bytes → Prop) (reading : Nat) : LoggerPoint → Prop
  | .checking | .taking | .counting => reading = 0
  | .copying | .failing | .cancelling | .releasing => reading = 1
  | .sending block => reading = 1 ∧ source block
  | .finished => True

/-- A point at which the worker has neither a logger to start nor a block to publish. -/
def WorkerPoint.isPlain : WorkerPoint → Bool
  | launching | publishing _ => false
  | _ => true

/-- A point at which a logger may be that never gets a block. -/
def LoggerPoint.isDry : LoggerPoint → Bool
  | checking | taking | finished => true
  | _ => false

namespace Run

/-- All blocks that a run has published, and those in the hands of its threads, come from the
source. -/
structure Carries (source : Bytes → Prop) (run : Run) (pushed : List Bytes) (freed reading : Nat) :
    Prop where
  holds : run.ring.Holds pushed freed run.worker.writing reading
  given : ∀ block ∈ pushed, source block
  filled : ∀ slots, run.worker = .publishing slots →
    ∃ block, run.ring.slots[run.ring.writeIndex]? = some block ∧ source block
  unlaunched : run.worker = .launching → run.logger = none
  logger : (run.logger.getD .checking).Takes source reading

/-- A run over a ring without slots: no block ever gets anywhere. -/
structure Dry (run : Run) : Prop where
  empty : run.ring.empty = 0
  full : run.ring.full = 0
  writing : run.worker.writing = 0
  logger : (run.logger.getD .checking).isDry = true

/-- All that a run holds comes from the source. -/
def Supplied (source : Bytes → Prop) (run : Run) : Prop :=
  (∃ pushed freed reading, run.Carries source pushed freed reading) ∨ run.Dry

variable {source : Bytes → Prop} {run run' : Run} {pushed : List Bytes} {freed reading : Nat}

theorem Carries.workerTo (h : run.Carries source pushed freed reading) {point : WorkerPoint}
    {flags : RunFlags} (hwriting : point.writing = run.worker.writing)
    (hplain : point.isPlain = true) :
    { run with worker := point, flags := flags }.Carries source pushed freed reading where
  holds := by
    rw [hwriting]
    exact h.holds
  given := h.given
  filled slots heq := by
    obtain rfl : point = .publishing slots := heq
    cases hplain
  unlaunched heq := by
    obtain rfl : point = .launching := heq
    cases hplain
  logger := h.logger

theorem Dry.workerTo (h : run.Dry) {point : WorkerPoint} {flags : RunFlags}
    (hwriting : point.writing = run.worker.writing) :
    { run with worker := point, flags := flags }.Dry :=
  ⟨h.empty, h.full, hwriting.trans h.writing, h.logger⟩

theorem Supplied.workerTo (h : run.Supplied source) {point : WorkerPoint} {flags : RunFlags}
    (hwriting : point.writing = run.worker.writing) (hplain : point.isPlain = true) :
    Supplied source { run with worker := point, flags := flags } := by
  rcases h with ⟨pushed, freed, reading, h⟩ | h
  · exact .inl ⟨_, _, _, h.workerTo hwriting hplain⟩
  · exact .inr (h.workerTo hwriting)

theorem Supplied.withFlags (h : run.Supplied source) (flags : RunFlags) :
    Supplied source { run with flags := flags } := by
  rcases h with ⟨pushed, freed, reading, h⟩ | h
  · exact .inl ⟨_, _, _, h.holds, h.given, h.filled, h.unlaunched, h.logger⟩
  · exact .inr ⟨h.empty, h.full, h.writing, h.logger⟩

theorem supplied_fresh (connection : ConnectionId) (sink : SinkId) (slots slotBytes : Nat) :
    (fresh connection sink (Ring.make slots slotBytes)).Supplied source := by
  rcases Nat.eq_zero_or_pos slots with rfl | hslots
  · exact .inr ⟨rfl, rfl, rfl, rfl⟩
  · exact .inl ⟨[], 0, 0, Ring.holds_make hslots slotBytes, nofun, nofun, fun _ => rfl, rfl⟩

/-! ### Steps of the worker that touch the ring -/

theorem Supplied.launch (h : run.Supplied source) (hworker : run.worker = .launching) :
    Supplied source { run with worker := .checking, logger := some .checking } := by
  rcases h with ⟨pushed, freed, reading, h⟩ | h
  · have hholds := h.holds
    have hlogger := h.logger
    rw [hworker] at hholds
    rw [h.unlaunched hworker] at hlogger
    exact .inl ⟨_, _, _, hholds, h.given, nofun, nofun, hlogger⟩
  · exact .inr ⟨h.empty, h.full, rfl, rfl⟩

theorem Supplied.claim (h : run.Supplied source) {slots : List Nat}
    (hworker : run.worker = .claiming slots) {ring : Ring}
    (hring : run.ring.takeEmpty = some ring) :
    Supplied source { run with ring := ring, worker := .filling slots } := by
  rcases h with ⟨pushed, freed, reading, h⟩ | h
  · have hholds := h.holds
    rw [hworker] at hholds
    exact .inl ⟨_, _, _, hholds.takeEmpty hring, h.given, nofun, nofun, h.logger⟩
  · exact absurd h.empty (Ring.eq_of_takeEmpty hring).1

theorem Supplied.fill (h : run.Supplied source) {slots : List Nat}
    (hworker : run.worker = .filling slots) {block : Bytes} (hblock : source block) :
    Supplied source { run with ring := run.ring.fill block, worker := .publishing slots } := by
  rcases h with ⟨pushed, freed, reading, h⟩ | h
  · have hholds := h.holds
    rw [hworker] at hholds
    exact .inl ⟨_, _, _, hholds.fill block, h.given,
      fun _ _ => ⟨block, hholds.getElem?_fill block, hblock⟩, nofun, h.logger⟩
  · have hwriting := h.writing
    rw [hworker] at hwriting
    exact absurd hwriting Nat.one_ne_zero

theorem Supplied.giveBack (h : run.Supplied source) (hworker : run.worker = .returning) :
    Supplied source { run with ring := run.ring.giveBack, worker := .ending } := by
  rcases h with ⟨pushed, freed, reading, h⟩ | h
  · have hholds := h.holds
    rw [hworker] at hholds
    exact .inl ⟨_, _, _, hholds.giveBack, h.given, nofun, nofun, h.logger⟩
  · have hwriting := h.writing
    rw [hworker] at hwriting
    exact absurd hwriting Nat.one_ne_zero

theorem Supplied.publish (h : run.Supplied source) {slots : List Nat}
    (hworker : run.worker = .publishing slots) :
    Supplied source { run with ring := run.ring.publish, worker := .releasing slots } := by
  rcases h with ⟨pushed, freed, reading, h⟩ | h
  · have hholds := h.holds
    obtain ⟨block, hslot, hblock⟩ := h.filled slots hworker
    rw [hworker] at hholds
    refine .inl ⟨_, _, _, hholds.publish hslot, ?_, nofun, nofun, h.logger⟩
    intro other hother
    rcases List.mem_append.mp hother with hold | hnew
    · exact h.given other hold
    · exact List.mem_singleton.mp hnew ▸ hblock
  · have hwriting := h.writing
    rw [hworker] at hwriting
    exact absurd hwriting Nat.one_ne_zero

/-! ### Steps of the logger -/

theorem Carries.loggerTo (h : run.Carries source pushed freed reading) {point : LoggerPoint}
    {flags : RunFlags} (hlogger : run.logger ≠ none) (hpoint : point.Takes source reading) :
    { run with logger := some point, flags := flags }.Carries source pushed freed reading :=
  ⟨h.holds, h.given, h.filled, fun heq => absurd (h.unlaunched heq) hlogger, hpoint⟩

theorem Supplied.loggerTo (h : run.Supplied source) {point point' : LoggerPoint} {flags : RunFlags}
    (hlogger : run.logger = some point)
    (hpoint : ∀ reading, point.Takes source reading → point'.Takes source reading)
    (hdry : point.isDry = false ∨ point'.isDry = true) :
    Supplied source { run with logger := some point', flags := flags } := by
  rcases h with ⟨pushed, freed, reading, h⟩ | h
  · have htakes := h.logger
    rw [hlogger] at htakes
    exact .inl ⟨_, _, _, h.loggerTo (hlogger ▸ nofun) (hpoint reading htakes)⟩
  · have hlast := h.logger
    rw [hlogger] at hlast
    exact .inr ⟨h.empty, h.full, h.writing, hdry.resolve_left (Bool.ne_false_iff.mpr hlast)⟩

theorem Supplied.take (h : run.Supplied source) (hlogger : run.logger = some .taking) {ring : Ring}
    (hring : run.ring.takeFull = some ring) :
    Supplied source { run with ring := ring, logger := some .copying } := by
  rcases h with ⟨pushed, freed, reading, h⟩ | h
  · have htakes := h.logger
    rw [hlogger] at htakes
    obtain rfl : reading = 0 := htakes
    obtain ⟨-, rfl⟩ := Ring.eq_of_takeFull hring
    exact .inl ⟨_, _, 1, h.holds.takeFull hring, h.given, h.filled,
      fun heq => absurd (h.unlaunched heq) (hlogger ▸ nofun), rfl⟩
  · exact absurd h.full (Ring.eq_of_takeFull hring).1

theorem Supplied.copy (h : run.Supplied source) (hlogger : run.logger = some .copying) :
    Supplied source { run with logger := some (.sending run.ring.readSlot) } := by
  rcases h with ⟨pushed, freed, reading, h⟩ | h
  · have htakes := h.logger
    rw [hlogger] at htakes
    obtain rfl : reading = 1 := htakes
    have hblock := h.given _ (List.mem_of_getElem? h.holds.readSlot)
    exact .inl ⟨_, _, _, h.loggerTo (hlogger ▸ nofun) ⟨rfl, hblock⟩⟩
  · have hlast := h.logger
    rw [hlogger] at hlast
    cases hlast

theorem Supplied.returnSlot (h : run.Supplied source) (hlogger : run.logger = some .releasing) :
    Supplied source { run with ring := run.ring.release, logger := some .counting } := by
  rcases h with ⟨pushed, freed, reading, h⟩ | h
  · have htakes := h.logger
    rw [hlogger] at htakes
    obtain rfl : reading = 1 := htakes
    exact .inl ⟨_, _, 0, h.holds.release, h.given, h.filled,
      fun heq => absurd (h.unlaunched heq) (hlogger ▸ nofun), rfl⟩
  · have hlast := h.logger
    rw [hlogger] at hlast
    cases hlast

/-- What a logger is about to send comes from the source. -/
theorem Supplied.gives (h : run.Supplied source) {block : Bytes}
    (hlogger : run.logger = some (.sending block)) : source block := by
  rcases h with ⟨pushed, freed, reading, h⟩ | h
  · have htakes := h.logger
    rw [hlogger] at htakes
    exact htakes.2
  · have hlast := h.logger
    rw [hlogger] at hlast
    cases hlast

end Run

namespace Instrument

def sent (x : Instrument β δ) : List (List Bytes) := x.session.sinks.map Sink.written

theorem sent_modifySink (f : Sink → Sink) (hf : ∀ s, (f s).written = s.written) (id : SinkId)
    (x : Instrument β δ) : (x.modifySink id f).sent = x.sent := by
  apply List.ext_getElem?
  intro sink
  rw [sent, sent, List.getElem?_map, List.getElem?_map, modifySink, List.getElem?_modify]
  cases x.session.sinks[sink]? with
  | none => rfl
  | some s =>
      by_cases hid : id = sink
      · simp [hid, hf]
      · simp [hid]

theorem sent_write (bytes : Bytes) (id : SinkId) (x : Instrument β δ) :
    (x.modifySink id fun s => s.write bytes).sent = x.sent.modify id (· ++ [bytes]) := by
  apply List.ext_getElem?
  intro sink
  rw [sent, sent, List.getElem?_modify, List.getElem?_map, List.getElem?_map, modifySink,
    List.getElem?_modify]
  by_cases hid : id = sink <;> cases x.session.sinks[sink]? <;> simp [hid, Sink.write]

theorem sent_send {s s' : Sink} {block : Bytes} {id : SinkId} {x : Instrument β δ}
    (hs : x.session.sinks[id]? = some s) (hsend : s.send block = some s') :
    (x.modifySink id fun _ => s').sent = x.sent.modify id (· ++ [block]) := by
  apply List.ext_getElem?
  intro sink
  rw [sent, sent, List.getElem?_modify, List.getElem?_map, List.getElem?_map, modifySink,
    List.getElem?_modify]
  by_cases hid : id = sink
  · subst hid
    simp [hs, Sink.written_of_send hsend]
  · simp [hid]

end Instrument

namespace Run

/-- A run goes on for the same connection, and what it holds comes from the source as before. -/
structure Keeps (source : Bytes → Prop) (run run' : Run) : Prop where
  connection : run'.connection = run.connection
  sink : run'.sink = run.sink
  supplied : run.Supplied source → run'.Supplied source

theorem Keeps.refl (source : Bytes → Prop) (run : Run) : run.Keeps source run := ⟨rfl, rfl, id⟩

theorem keeps_withFlags (source : Bytes → Prop) (run : Run) (flags : RunFlags) :
    run.Keeps source { run with flags := flags } :=
  ⟨rfl, rfl, fun hs => hs.withFlags flags⟩

variable {setup : Setup β δ} {source : Bytes → Prop} {run : Run} {x y : Instrument β δ}

/-- The worker writes nothing. -/
theorem keeps_of_workerStep (hsource : ∀ block, setup.dma.Gives x.dma block → source block)
    (h : run.workerStep setup x = some y) :
    ∃ run', y.session.run = some run' ∧ run.Keeps source run' ∧
      y.session.endpoints = x.session.endpoints ∧ y.sent = x.sent := by
  obtain ⟨connection, sink, flags, ring, worker, logger⟩ := run
  cases worker with
  | launching =>
      obtain rfl := Option.some.inj h
      exact ⟨_, rfl, ⟨rfl, rfl, fun hs => hs.launch rfl⟩, rfl, rfl⟩
  | checking | offering slots =>
      obtain rfl := Option.some.inj h
      refine ⟨_, rfl, ⟨rfl, rfl, fun hs => ?_⟩, rfl, rfl⟩
      split <;> exact hs.workerTo rfl rfl
  | querying =>
      obtain rfl := Option.some.inj h
      refine ⟨_, rfl, ⟨rfl, rfl, fun hs => ?_⟩, rfl, rfl⟩
      dsimp only
      split
      · exact hs.workerTo rfl rfl
      · split <;> exact hs.workerTo rfl rfl
  | waiting =>
      simp only [workerStep] at h
      split at h
      · cases h
      · obtain rfl := Option.some.inj h
        refine ⟨_, rfl, ⟨rfl, rfl, fun hs => ?_⟩, rfl, rfl⟩
        split <;> exact hs.workerTo rfl rfl
  | claiming slots =>
      simp only [workerStep] at h
      split at h
      · obtain rfl := Option.some.inj h
        exact ⟨_, rfl, ⟨rfl, rfl, fun hs => hs.workerTo rfl rfl⟩, rfl, rfl⟩
      · rename_i taken htaken
        obtain rfl := Option.some.inj h
        exact ⟨_, rfl, ⟨rfl, rfl, fun hs => hs.claim rfl htaken⟩, rfl, rfl⟩
  | filling slots =>
      rcases hcopy : setup.dma.copySlot (slots.headD 0) ring.slotBytes x.dma with ⟨_ | block, dma⟩
      all_goals
        simp only [workerStep, hcopy] at h
        obtain rfl := Option.some.inj h
      · exact ⟨_, rfl, ⟨rfl, rfl, fun hs => hs.workerTo rfl rfl⟩, rfl, rfl⟩
      · exact ⟨_, rfl, ⟨rfl, rfl, fun hs => hs.fill rfl (hsource _ ⟨_, _, _, hcopy⟩)⟩, rfl, rfl⟩
  | returning =>
      obtain rfl := Option.some.inj h
      exact ⟨_, rfl, ⟨rfl, rfl, fun hs => hs.giveBack rfl⟩, rfl, rfl⟩
  | publishing slots =>
      obtain rfl := Option.some.inj h
      exact ⟨_, rfl, ⟨rfl, rfl, fun hs => hs.publish rfl⟩, rfl, rfl⟩
  | releasing slots =>
      obtain rfl := Option.some.inj h
      refine ⟨_, rfl, ⟨rfl, rfl, fun hs => ?_⟩, rfl, rfl⟩
      dsimp only
      split
      · exact hs.workerTo rfl rfl
      · cases slots.tail <;> exact hs.workerTo rfl rfl
  | joining =>
      simp only [workerStep] at h
      split at h
      · obtain rfl := Option.some.inj h
        exact ⟨_, rfl, ⟨rfl, rfl, fun hs => hs.workerTo rfl rfl⟩, rfl, rfl⟩
      · obtain rfl := Option.some.inj h
        exact ⟨_, rfl, ⟨rfl, rfl, fun hs => hs.workerTo rfl rfl⟩, rfl, rfl⟩
      · cases h
  | ending | idling | stopping | yielding =>
      obtain rfl := Option.some.inj h
      exact ⟨_, rfl, ⟨rfl, rfl, fun hs => hs.workerTo rfl rfl⟩, rfl, rfl⟩
  | closing =>
      obtain rfl := Option.some.inj h
      refine ⟨{ connection, sink, flags, ring, worker := .yielding, logger }, ?_,
        ⟨rfl, rfl, fun hs => hs.workerTo rfl rfl⟩, ?_, ?_⟩
      · split <;> rfl
      · dsimp only
        split <;> rfl
      · dsimp only
        split
        · exact Instrument.sent_modifySink Sink.close (fun _ => rfl) _ _
        · rfl
  | finished => cases h

/-- The logger writes the block in its hands, or nothing. -/
theorem keeps_of_loggerStep (source : Bytes → Prop) (h : run.loggerStep setup x = some y) :
    ∃ run', y.session.run = some run' ∧ run.Keeps source run' ∧
      y.session.endpoints = x.session.endpoints ∧
      (y.sent = x.sent ∨ ∃ block, run.logger = some (.sending block) ∧
        y.sent = x.sent.modify run.sink (· ++ [block])) := by
  obtain ⟨connection, sink, flags, ring, worker, logger⟩ := run
  rcases logger with _ | point
  · cases h
  cases point with
  | checking =>
      obtain rfl := Option.some.inj h
      refine ⟨_, rfl, ⟨rfl, rfl, fun hs => ?_⟩, rfl, .inl rfl⟩
      split
      · exact hs.loggerTo rfl (fun _ _ => trivial) (.inr rfl)
      · exact hs.loggerTo rfl (fun _ => id) (.inr rfl)
  | taking =>
      simp only [loggerStep] at h
      split at h
      · obtain rfl := Option.some.inj h
        exact ⟨_, rfl, ⟨rfl, rfl, fun hs => hs.loggerTo rfl (fun _ => id) (.inr rfl)⟩, rfl,
          .inl rfl⟩
      · rename_i taken htaken
        obtain rfl := Option.some.inj h
        exact ⟨_, rfl, ⟨rfl, rfl, fun hs => hs.take rfl htaken⟩, rfl, .inl rfl⟩
  | copying =>
      obtain rfl := Option.some.inj h
      exact ⟨_, rfl, ⟨rfl, rfl, fun hs => hs.copy rfl⟩, rfl, .inl rfl⟩
  | sending block =>
      simp only [loggerStep] at h
      split at h
      · obtain rfl := Option.some.inj h
        exact ⟨_, rfl, ⟨rfl, rfl, fun hs => hs.loggerTo rfl (fun _ ht => ht.1) (.inl rfl)⟩, rfl,
          .inl rfl⟩
      · rename_i s' hsend
        obtain rfl := Option.some.inj h
        obtain ⟨s, hs, hsend⟩ := Option.bind_eq_some_iff.mp hsend
        exact ⟨_, rfl, ⟨rfl, rfl, fun hs => hs.loggerTo rfl (fun _ ht => ht.1) (.inl rfl)⟩, rfl,
          .inr ⟨block, rfl, Instrument.sent_send hs hsend⟩⟩
  | failing =>
      obtain rfl := Option.some.inj h
      exact ⟨_, rfl, ⟨rfl, rfl, fun hs => hs.loggerTo rfl (fun _ => id) (.inl rfl)⟩, rfl, .inl rfl⟩
  | cancelling =>
      obtain rfl := Option.some.inj h
      exact ⟨_, rfl, ⟨rfl, rfl, fun hs => hs.loggerTo rfl (fun _ _ => trivial) (.inl rfl)⟩, rfl,
        .inl rfl⟩
  | releasing =>
      obtain rfl := Option.some.inj h
      exact ⟨_, rfl, ⟨rfl, rfl, fun hs => hs.returnSlot rfl⟩, rfl, .inl rfl⟩
  | counting =>
      obtain rfl := Option.some.inj h
      exact ⟨_, rfl, ⟨rfl, rfl, fun hs => hs.loggerTo rfl (fun _ => id) (.inl rfl)⟩, rfl, .inl rfl⟩
  | finished => cases h

end Run

end DaqServer
