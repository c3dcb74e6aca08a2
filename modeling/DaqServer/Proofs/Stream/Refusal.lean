import DaqServer.Board.SimulatedDma
import DaqServer.Proofs.Board.Access
import DaqServer.Proofs.Stream.Bench
import DaqServer.Proofs.Stream.Session

/-!
# Starts that fail

A start takes the sink of its connection and claims the ADC before it knows whether the engine can
be set going, so each way to fail has its own things to give back. Main statement: whatever a start
fails for, the instrument is as before the call but for the order in which the waiting connections
are kept, and nobody can tell afterwards that there were such starts.
-/

namespace DaqServer

variable {β δ : Type}

/-- The engines that boards have: the simulated one, or none. -/
inductive DmaEngine.IsBuiltIn : {δ : Type} → DmaEngine δ → Prop
  | simulated : IsBuiltIn SimulatedDma.engine
  | absent (δ : Type) : IsBuiltIn (DmaEngine.absent : DmaEngine δ)

namespace Instrument

variable {setup : Setup β δ} {x y : Instrument β δ} {id : ConnectionId}

/-- An engine that cannot be set going is left as it was. -/
theorem eq_of_startDma_error (hengine : setup.dma.IsBuiltIn) {d d' : δ} {e : BoardError}
    (h : startDma setup d = (.error e, d')) : d' = d := by
  obtain ⟨port, engine, scan, watch, stream⟩ := setup
  cases hengine with
  | absent => exact (congrArg Prod.snd h).symm
  | simulated =>
      rw [startDma] at h
      dsimp only [SimulatedDma.engine] at h
      rcases hconfigure : SimulatedDma.configure stream.blockBytes d with ⟨e' | ⟨⟩, d₁⟩
      · rw [bind_of_error hconfigure] at h
        rw [← SimulatedDma.eq_of_configure_error hconfigure]
        exact (congrArg Prod.snd h).symm
      · -- A size is set, and that is all that a start asks for.
        rw [bind_of_ok hconfigure, SimulatedDma.start,
          if_neg (SimulatedDma.transferBytes_of_configure hconfigure)] at h
        cases (Prod.mk.inj h).1

/-! ### Waiting connections -/

theorem lookup_filter_ne (endpoints : List (ConnectionId × SinkId)) {other : ConnectionId}
    (h : other ≠ id) :
    (endpoints.filter fun e => e.1 != id).lookup other = endpoints.lookup other := by
  induction endpoints with
  | nil => rfl
  | cons endpoint endpoints ih =>
      obtain ⟨key, sink⟩ := endpoint
      by_cases hkey : key = id
      · have hother : (other == key) = false := beq_false_of_ne (hkey ▸ h)
        rw [List.filter_cons_of_neg (by simp [hkey]), ih, List.lookup_cons, hother]
      · rw [List.filter_cons_of_pos (by simp [hkey]), List.lookup_cons, List.lookup_cons, ih]

theorem endpoint?_removeEndpoint_of_ne (x : Instrument β δ) {other : ConnectionId}
    (h : other ≠ id) : (x.removeEndpoint id).endpoint? other = x.endpoint? other :=
  lookup_filter_ne x.session.endpoints h

theorem endpoint?_insertEndpoint (x : Instrument β δ) (id : ConnectionId) (sink : SinkId)
    (other : ConnectionId) :
    (x.insertEndpoint id sink).endpoint? other =
      if other = id then some sink else x.endpoint? other := by
  change List.lookup other ((id, sink) :: (x.removeEndpoint id).session.endpoints) = _
  rw [List.lookup_cons]
  by_cases h : other = id
  · rw [if_pos h, beq_iff_eq.mpr h]
  · rw [if_neg h, beq_false_of_ne h]
    exact endpoint?_removeEndpoint_of_ne x h

/-- The same instrument: the same connections wait with the same sinks, and all but the order in
which they are kept is equal. -/
structure Agrees (x y : Instrument β δ) : Prop where
  endpoints : ∀ id, y.endpoint? id = x.endpoint? id
  rest : y = { x with session := { x.session with endpoints := y.session.endpoints } }

theorem Agrees.refl (x : Instrument β δ) : x.Agrees x := ⟨fun _ => rfl, rfl⟩

theorem Agrees.trans {z : Instrument β δ} (h : x.Agrees y) (h' : y.Agrees z) : x.Agrees z where
  endpoints id := (h'.endpoints id).trans (h.endpoints id)
  rest := by
    rw [h'.rest, h.rest]

/-- A sink that was taken and put back is where it was. -/
theorem agrees_reinsert {sink : SinkId} (hsink : x.endpoint? id = some sink) :
    x.Agrees ((x.removeEndpoint id).insertEndpoint id sink) where
  endpoints other := by
    rw [endpoint?_insertEndpoint]
    split
    · rename_i heq
      rw [heq, hsink]
    · rename_i hne
      exact endpoint?_removeEndpoint_of_ne x hne
  rest := rfl

/-! ### Starts -/

/-- What becomes of the same start at instruments that agree is the same. -/
theorem Agrees.startStream_fst (h : x.Agrees y) (setup : Setup β δ) (id : ConnectionId) :
    (y.startStream setup id).1 = (x.startStream setup id).1 := by
  have harbiter : y.arbiter = x.arbiter := by rw [h.rest]
  have hdma : y.dma = x.dma := by rw [h.rest]
  rw [startStream, startStream, harbiter, hdma, h.endpoints id]
  rcases x.arbiter.claimStream id with e | held
  · rfl
  · cases x.endpoint? id with
    | none => rfl
    | some sink => rcases startDma setup x.dma with ⟨e | ⟨⟩, d⟩ <;> rfl

/-- A start that fails gives back all but what its attempt has made of the engine. -/
theorem agrees_of_startStream_error {e : AcquisitionError}
    (h : (x.startStream setup id).1 = .error e) :
    x.Agrees { (x.startStream setup id).2 with dma := x.dma } ∧
      ((x.startStream setup id).2.dma = x.dma ∨
        ∃ e', startDma setup x.dma = (.error e', (x.startStream setup id).2.dma)) := by
  rw [startStream] at h ⊢
  rcases hclaim : x.arbiter.claimStream id with e' | held
  · exact ⟨.refl x, .inl rfl⟩
  · obtain ⟨hfree, rfl⟩ := Arbiter.eq_of_claimStream hclaim
    have hidle : Arbiter.idle = x.arbiter := congrArg Arbiter.mk hfree.symm
    rw [hclaim] at h
    rcases hsink : x.endpoint? id with _ | sink
    · simp only [Arbiter.releaseStream_stream, hidle, true_or, and_true]
      exact .refl x
    · rw [hsink] at h
      rcases hdma : startDma setup x.dma with ⟨e' | ⟨⟩, d⟩
      · simp only [Arbiter.releaseStream_stream, hidle]
        exact ⟨agrees_reinsert hsink, .inr ⟨e', rfl⟩⟩
      · rw [hdma] at h
        cases h

/-- Start a session for each of some connections, one start after the other: what becomes of each,
and the instrument in the end. -/
def startEach (setup : Setup β δ) :
    List ConnectionId → Instrument β δ → List (Except AcquisitionError Unit) × Instrument β δ
  | [], x => ([], x)
  | id :: ids, x =>
      let (result, x) := x.startStream setup id
      let (results, x) := startEach setup ids x
      (result :: results, x)

/-- A start that fails leaves the instrument as it was, when the engine is one that boards have. -/
theorem agrees_of_error (hengine : setup.dma.IsBuiltIn) {e : AcquisitionError}
    (h : (x.startStream setup id).1 = .error e) : x.Agrees (x.startStream setup id).2 := by
  obtain ⟨hagrees, hdma⟩ := agrees_of_startStream_error h
  have hsame : (x.startStream setup id).2.dma = x.dma := by
    rcases hdma with hdma | ⟨e', hdma⟩
    · exact hdma
    · exact eq_of_startDma_error hengine hdma
  rwa [← hsame] at hagrees

/-- Starts that fail where they are the first also fail one after the other, each for its own
reason. -/
theorem startEach_of_errors (hengine : setup.dma.IsBuiltIn) {ids : List ConnectionId}
    (hagrees : x.Agrees y) (hfail : ∀ id ∈ ids, ∃ e, (x.startStream setup id).1 = .error e) :
    (y.startEach setup ids).1 = ids.map (fun id => (x.startStream setup id).1) ∧
      x.Agrees (y.startEach setup ids).2 := by
  induction ids generalizing y with
  | nil => exact ⟨rfl, hagrees⟩
  | cons id ids ih =>
      have hfirst := hagrees.startStream_fst setup id
      obtain ⟨e, herror⟩ := hfail id List.mem_cons_self
      have hnext := hagrees.trans (agrees_of_error hengine (hfirst.trans herror))
      obtain ⟨hresults, hlast⟩ :=
        ih hnext fun other hmem => hfail other (List.mem_cons_of_mem _ hmem)
      rw [startEach, List.map_cons, ← hfirst, ← hresults]
      exact ⟨rfl, hlast⟩

/-- A connection that waits gets its session where the ADC is free and the engine can be set
going. -/
theorem startStream_of_ready {sink : SinkId} {d : δ} (hsink : x.endpoint? id = some sink)
    (hfree : x.arbiter = .idle) (hdma : startDma setup x.dma = (.ok (), d)) :
    (x.startStream setup id).1 = .ok () ∧
      (x.startStream setup id).2.session.run = some (.fresh id sink
        (.make setup.stream.ringSlots.toNat setup.stream.blockBytes)) := by
  have hclaim : Arbiter.idle.claimStream id = .ok ⟨some (.stream id)⟩ := rfl
  rw [startStream, hfree, hclaim, hsink]
  simp only [hdma, setRun, true_and]

/-- A start that fails changes nothing. Whatever the engine, and for whatever reason the start
failed, the same connections wait with the same sinks, and nothing else is different but what the
attempt has made of the engine. If the engine is the simulated one or there is none, the attempt has
made nothing of it. Then any number of starts that fail, for one connection or for several, fail one
after the other each as it would have alone, and leave the instrument as it was; and when later the
ADC is free and the engine can be set going, a connection that waited before still has its sink and
gets its session. -/
theorem failed_starts_change_nothing (setup : Setup β δ) (x : Instrument β δ) :
    (∀ id e, (x.startStream setup id).1 = .error e →
      x.Agrees { (x.startStream setup id).2 with dma := x.dma }) ∧
    (setup.dma.IsBuiltIn → ∀ ids, (∀ id ∈ ids, ∃ e, (x.startStream setup id).1 = .error e) →
      (x.startEach setup ids).1 = ids.map (fun id => (x.startStream setup id).1) ∧
      x.Agrees (x.startEach setup ids).2 ∧
      ∀ id sink dma dma', x.endpoint? id = some sink → startDma setup dma = (.ok (), dma') →
        let later : Instrument β δ :=
          { (x.startEach setup ids).2 with arbiter := .idle, dma := dma }
        (later.startStream setup id).1 = .ok () ∧
          (later.startStream setup id).2.session.run = some (.fresh id sink
            (.make setup.stream.ringSlots.toNat setup.stream.blockBytes))) := by
  refine ⟨fun id e h => (agrees_of_startStream_error h).1, fun hengine ids hfail => ?_⟩
  obtain ⟨hresults, hagrees⟩ := startEach_of_errors hengine (.refl x) hfail
  refine ⟨hresults, hagrees, fun id sink dma dma' hsink hdma => ?_⟩
  have hwaits : (x.startEach setup ids).2.endpoint? id = some sink :=
    (hagrees.endpoints id).trans hsink
  exact startStream_of_ready hwaits rfl hdma

/-- Where the engine runs without a session, neither a connection that waits nor one that does not
gets a session, however often they ask; the first one gets it once the engine is stopped. -/
theorem failed_starts_then_session :
    let running : SimulatedDma := { SimulatedDma.powerOn with running := true }
    let x : Instrument SimulatedBoard SimulatedDma := { connected with dma := running }
    let results : List (Except AcquisitionError Unit) :=
      [.error (.board (.dma .stillRunning)), .error (.notConnected ⟨2⟩),
        .error (.board (.dma .stillRunning))]
    (∀ id ∈ [⟨1⟩, ⟨2⟩, ⟨1⟩], ∃ e, (x.startStream smallSetup id).1 = .error e) ∧
      (x.startEach smallSetup [⟨1⟩, ⟨2⟩, ⟨1⟩]).1 = results ∧
      (Instrument.startStream smallSetup ⟨1⟩ { (x.startEach smallSetup [⟨1⟩, ⟨2⟩, ⟨1⟩]).2 with
        arbiter := .idle, dma := SimulatedDma.powerOn }).1 = .ok () := by
  intro running x results
  have hfail : ∀ id ∈ [⟨1⟩, ⟨2⟩, ⟨1⟩], ∃ e, (x.startStream smallSetup id).1 = .error e := by
    simp only [List.forall_mem_cons]
    exact ⟨⟨_, rfl⟩, ⟨_, rfl⟩, ⟨_, rfl⟩, nofun⟩
  obtain ⟨-, hrow⟩ := failed_starts_change_nothing smallSetup x
  obtain ⟨hresults, -, hlater⟩ := hrow .simulated _ hfail
  exact ⟨hfail, hresults, (hlater ⟨1⟩ 0 .powerOn _ rfl rfl).1⟩

end Instrument

end DaqServer
