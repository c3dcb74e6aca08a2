import DaqServer.Proofs.Aftermath
import DaqServer.Proofs.Board.Simulated
import DaqServer.Proofs.Daemon.ActionServer

/-!
# Who is at work in a daemon

`ConcurrentDaemon.Moves` lists what a step does in a daemon. `ConcurrentDaemon.Sound` says who is at
work there at any moment: starts and scans are those that the consumer waits for, and whoever shuts
the daemon down has come to what the last worker and the board are at that point. Main statement:
every step keeps it.
-/

namespace DaqServer

variable {β δ : Type}

/-! ### Items that are carried out at once -/

/-- A computation on an instrument changes no more than the board and the shutdown request. -/
def ItemAction.Touches {α : Type} (act : ItemAction β δ α) : Prop :=
  ∀ x, ∃ board shutdown, (act x).2 = { x with board := board, shutdown := shutdown }

theorem ItemAction.touches_board {α : Type} (access : Access β α) :
    Touches (board (δ := δ) access) :=
  fun x => ⟨(access x.board).2, x.shutdown, rfl⟩

theorem ItemAction.touches_of_snd {α : Type} {act : ItemAction β δ α} (h : ∀ x, (act x).2 = x) :
    Touches act :=
  fun x => ⟨x.board, x.shutdown, h x⟩

namespace Item

variable {item : Item}

theorem touches_run (setup : Setup β δ) (connection : ConnectionId) (r : Request)
    (hstart : ∀ target, r ≠ .streamStart target) (hstop : r ≠ .streamStop)
    (hscan : ∀ view, r ≠ .scan view) :
    (r.run setup connection).Touches := by
  cases r with
  | streamStart target => exact absurd rfl (hstart target)
  | streamStop => exact absurd rfl hstop
  | scan view => exact absurd rfl (hscan view)
  | invalid | diagnostic | streamStatus | connectionId =>
      exact ItemAction.touches_of_snd fun _ => rfl
  | reboot => exact fun x => ⟨x.board, x.shutdown.request, rfl⟩
  | _ => exact ItemAction.touches_board _

/-- An item for which nobody has to wait changes no more than the board and the shutdown request. -/
theorem touches_execute (setup : Setup β δ) (connection : ConnectionId)
    (hcall : item.call? = none) (hscans : item.scans = false) (x : Instrument β δ) :
    ∃ board shutdown,
      (item.execute setup connection x).2 = { x with board := board, shutdown := shutdown } := by
  obtain ⟨code, payload, request, status⟩ := item
  cases status with
  | pending =>
      obtain ⟨board, shutdown, hrun⟩ := touches_run setup connection request
        (by rintro target rfl; cases hcall) (by rintro rfl; cases hcall)
        (by rintro view rfl; cases hscans) x
      refine ⟨board, shutdown, ?_⟩
      rw [← hrun]
      simp only [execute]
      split <;> rename_i heq <;> rw [heq]
  | done | failed => exact ⟨x.board, x.shutdown, rfl⟩

theorem isNew_of_call? {call : Call} (h : item.call? = some call) :
    call.isNew = true ∧ call.kind ≠ .join := by
  rw [call?.eq_def] at h
  split at h
  · cases h
    simp [Call.isNew, Call.kind]
  · cases h
    simp [Call.isNew, Call.kind]
  · cases h

theorem hasReturned_of_ofCall? {call : Call} {outcome : Except ItemError Unit × Item}
    (h : item.ofCall? call = some outcome) : call.hasReturned = true := by
  rw [ofCall?.eq_def] at h
  split at h
  · rfl
  · rfl
  · cases h

theorem stage_of_ofScan? {point : ScanPoint} {outcome : Except ItemError Unit × Item}
    (h : item.ofScan? point = some outcome) : point.stage = 2 := by
  rw [ofScan?.eq_def] at h
  split at h
  · rfl
  · cases h

end Item

theorem Action.isClose_ofFrame (recipient : Recipient) (result : Except FramingError Message) :
    (ofFrame recipient result).isClose = false := by
  cases result <;> rfl

/-! ### New calls -/

namespace SharedInstrument

variable {setup : Setup β δ} {shared : SharedInstrument β δ} {call : Call}

def withCall (call : Call) (shared : SharedInstrument β δ) : SharedInstrument β δ :=
  { shared with bench := { shared.bench with calls := shared.bench.calls ++ [call] } }

theorem step_call (h : call.isNew = true) (setup : Setup β δ) (shared : SharedInstrument β δ) :
    shared.step setup (.bench (.call call)) = some (shared.withCall call) := by
  rw [step, if_neg (by simp [Act.isScan]), Bench.step, if_pos h]
  rfl

theorem getElem?_withCall (call : Call) (shared : SharedInstrument β δ) :
    (shared.withCall call).bench.calls[shared.bench.calls.length]? = some call :=
  List.getElem?_concat_length

theorem pending_withCall {kind : CallKind} {number : Nat}
    (h : (shared.withCall call).bench.Pending kind number) :
    shared.bench.Pending kind number ∨ number = shared.bench.calls.length ∧ call.kind = kind := by
  obtain ⟨call', hcall', rfl, hreturned⟩ := h
  simp only [withCall, List.getElem?_append] at hcall'
  split at hcall'
  · exact .inl ⟨call', hcall', rfl, hreturned⟩
  · rw [List.getElem?_singleton] at hcall'
    split at hcall'
    · obtain rfl := Option.some.inj hcall'
      exact .inr ⟨by omega, rfl⟩
    · cases hcall'

theorem Tended.withCall {setup : Setup β SimulatedDma} {shared : SharedInstrument β SimulatedDma}
    (h : shared.Tended) (hdma : setup.dma = SimulatedDma.engine) (hnew : call.isNew = true) :
    (shared.withCall call).Tended :=
  h.step hdma (by rintro _ ⟨⟩; trivial) (step_call hnew setup shared)

end SharedInstrument

def ConsumerPoint.item? : ConsumerPoint → Option Item
  | executing _ _ _ rest => rest.head?
  | _ => none

theorem ConsumerPoint.eq_of_item? {point : ConsumerPoint} {item : Item}
    (h : point.item? = some item) :
    ∃ recipient request done rest, point = .executing recipient request done (item :: rest) := by
  cases point with
  | executing recipient request done rest =>
      obtain ⟨rest, rfl⟩ := List.head?_eq_some_iff.mp h
      exact ⟨recipient, request, done, rest, rfl⟩
  | _ => cases h

namespace ConcurrentDaemon

section Moves

variable {setup : Setup β δ} {act : DaemonAct β δ} {h h' : ConcurrentDaemon β δ}

/-- What the consumer has at hand is done at once. -/
def IsPrompt (h : ConcurrentDaemon β δ) : Prop :=
  ∀ item, h.consumer.item? = some item →
    h.wait = none ∧ item.call? = none ∧ item.scans = false

/-- A daemon where the queue was asked to accept an entry. -/
def enter (action : Action) (h : ConcurrentDaemon β δ) : ConcurrentDaemon β δ :=
  { h with
    queue := (h.queue.push action).2
    entered := h.entered ++ if (h.queue.push action).1 then [action] else [] }

/-- What the one does who shuts a daemon down. -/
inductive Closes (setup : Setup β δ) (h : ConcurrentDaemon β δ) :
    CloserPoint → ConcurrentDaemon β δ → Prop
  | requests : Closes setup h .requesting { h with
      shared := (h.on fun x => { x with shutdown := x.shutdown.request }).shared.withCall
        (.close (.stopping .arriving))
      closer := some (.stopping h.shared.bench.calls.length) }
  | stopped {number : Nat} : h.shared.bench.calls[number]? = some (.close .returned) →
      Closes setup h (.stopping number) { h with closer := some .sealing }
  | seals : Closes setup h .sealing { h.enter .close with closer := some .awaiting }
  | stopsAgain : h.consumer = .gone → Closes setup h .awaiting { h with
      shared := h.shared.withCall (.close (.stopping .arriving))
      closer := some (.stoppingAgain h.shared.bench.calls.length) }
  | joins {number : Nat} : h.shared.bench.calls[number]? = some (.close .returned) →
      Closes setup h (.stoppingAgain number) { h with
        shared := h.shared.withCall (.join .taking)
        closer := some (.joining h.shared.bench.calls.length) }
  | joined {number : Nat} : h.shared.bench.calls[number]? = some (.join .returned) →
      Closes setup h (.joining number) { h with closer := some .idling }
  | idles : Closes setup h .idling { h.on fun x =>
      (x.onBoard (setup.port.write Register.trigger Trigger.disabled)).2 with
        closer := some .returned }

/-- What one step does in a daemon. -/
inductive Moves (setup : Setup β δ) (act : DaemonAct β δ) (h : ConcurrentDaemon β δ) :
    ConcurrentDaemon β δ → Prop
  | shared {act' : SharedAct β δ} {shared : SharedInstrument β δ} :
      act = .shared act' → act'.isReserved = false →
      h.shared.step setup act' = some shared → Moves setup act h { h with shared := shared }
  /-- A reader moves on, or somebody shuts the daemon down once more. -/
  | reads (readers : ConnectionId → ControlReader) : Moves setup act h { h with readers := readers }
  | enters {action : Action} (readers : ConnectionId → ControlReader) : action.isClose = false →
      Moves setup act h { h.enter action with readers := readers }
  /-- The consumer does something at once. -/
  | works {d : ActionServer β δ} : h.IsPrompt → h.server.consume setup = some d →
      Moves setup act h (h.withServer d)
  /-- The consumer begins to wait for a call. -/
  | calls {recipient : Recipient} {request : Message} {done rest : List Item} {item : Item}
      {call : Call} : h.consumer = .executing recipient request done (item :: rest) →
      h.wait = none → item.call? = some call →
      Moves setup act h { h with
        shared := h.shared.withCall call, wait := some (.call h.shared.bench.calls.length) }
  /-- The consumer begins to wait for a scan. -/
  | scans {recipient : Recipient} {request : Message} {done rest : List Item} {item : Item}
      {watch : Stopwatch} {shared : SharedInstrument β δ} :
      h.consumer = .executing recipient request done (item :: rest) → h.wait = none →
      item.scans = true → h.shared.step setup (.arrive watch) = some shared →
      Moves setup act h { h with shared := shared, wait := some (.scan h.shared.scans.length) }
  /-- The consumer need not wait any more. -/
  | settles {recipient : Recipient} {request : Message} {done rest : List Item} {item : Item}
      {wait : ItemWait} {outcome : Except ItemError Unit × Item} :
      h.consumer = .executing recipient request done (item :: rest) → h.wait = some wait →
      item.outcome? h.shared wait = some outcome →
      Moves setup act h { h with
        wait := none, consumer := .next recipient request done rest outcome }
  | asked : h.closer = none → Moves setup act h { h with closer := some .requesting }
  | closes {point : CloserPoint} {h' : ConcurrentDaemon β δ} : h.closer = some point →
      Closes setup h point h' → Moves setup act h h'

theorem withServer_push (action : Action) (h : ConcurrentDaemon β δ) :
    h.withServer (h.server.push action).2 = h.enter action := by
  rw [ActionServer.push, enter]
  rcases hpush : h.queue.push action with ⟨_ | _, queue⟩ <;> simp only [server, hpush]
  · rw [if_neg Bool.false_ne_true, List.append_nil]
    rfl
  · rfl

theorem make_eq {call : Call} (hnew : call.isNew = true) (setup : Setup β δ)
    (h : ConcurrentDaemon β δ) :
    h.make setup call =
      some (h.shared.bench.calls.length, { h with shared := h.shared.withCall call }) := by
  rw [make, SharedInstrument.step_call hnew]
  rfl

theorem close_eq_some_iff {point : CloserPoint} :
    h.close setup point = some h' ↔ Closes setup h point h' := by
  refine ⟨fun hclose => ?_, fun hcloses => ?_⟩
  · cases point with
    | requesting =>
        rw [close, make_eq rfl] at hclose
        cases hclose
        exact .requests
    | stopping number | joining number =>
        simp only [close, hasReturned, decide_eq_true_eq] at hclose
        split at hclose <;> cases hclose
        constructor
        assumption
    | sealing =>
        rw [close, withServer_push] at hclose
        cases hclose
        exact .seals
    | awaiting =>
        simp only [close] at hclose
        split at hclose
        · rw [make_eq rfl] at hclose
          cases hclose
          exact .stopsAgain ‹_›
        · cases hclose
    | stoppingAgain number =>
        simp only [close, hasReturned, decide_eq_true_eq] at hclose
        split at hclose
        · rw [make_eq rfl] at hclose
          cases hclose
          exact .joins ‹_›
        · cases hclose
    | idling =>
        cases hclose
        exact .idles
    | returned => cases hclose
  · cases hcloses with
    | requests =>
        rw [close, make_eq rfl]
        rfl
    | stopped hcall | joined hcall =>
        simp only [close, hasReturned, hcall, decide_true, if_true]
    | seals => rw [close, withServer_push]
    | stopsAgain hgone =>
        simp only [close, hgone]
        rw [make_eq rfl, Option.map_some, hgone]
    | joins hcall =>
        simp only [close, hasReturned, hcall, decide_true, if_true]
        rw [make_eq rfl, Option.map_some]
    | idles => rfl

theorem moves_of_consume {watch : Stopwatch} (hstep : h.consume setup watch = some h') :
    Moves setup act h h' := by
  rw [consume.eq_def] at hstep
  split at hstep
  · rename_i recipient request done item rest hconsumer
    split at hstep
    · rename_i wait hwait
      obtain ⟨outcome, houtcome, rfl⟩ := Option.map_eq_some_iff.mp hstep
      exact .settles hconsumer hwait houtcome
    · rename_i hwait
      split at hstep
      · rename_i call hcall
        rw [make_eq (Item.isNew_of_call? hcall).1] at hstep
        cases hstep
        exact .calls hconsumer hwait hcall
      · rename_i hcall
        split at hstep
        · obtain ⟨shared, hshared, rfl⟩ := Option.map_eq_some_iff.mp hstep
          exact .scans hconsumer hwait ‹_› hshared
        · rename_i hscans
          obtain ⟨d, hd, rfl⟩ := Option.map_eq_some_iff.mp hstep
          refine .works (fun item' hitem => ?_) hd
          rw [hconsumer] at hitem
          obtain rfl := Option.some.inj hitem
          exact ⟨hwait, hcall, Bool.eq_false_iff.mpr hscans⟩
  · rename_i hconsumer
    obtain ⟨d, hd, rfl⟩ := Option.map_eq_some_iff.mp hstep
    refine .works (fun item hitem => ?_) hd
    rw [ConsumerPoint.item?.eq_def] at hitem
    split at hitem
    · rename_i recipient request done rest hexecuting
      obtain ⟨rest, rfl⟩ := List.head?_eq_some_iff.mp hitem
      exact (hconsumer _ _ _ _ _ hexecuting).elim
    · cases hitem

theorem moves_of_step (hstep : h.step setup act = some h') : Moves setup act h h' := by
  cases act with
  | shared act =>
      simp only [step] at hstep
      split at hstep
      · cases hstep
      · obtain ⟨shared, hshared, rfl⟩ := Option.map_eq_some_iff.mp hstep
        exact .shared rfl (Bool.eq_false_iff.mpr ‹_›) hshared
  | reader id step =>
      obtain ⟨d, hd, rfl⟩ := Option.map_eq_some_iff.mp hstep
      rcases ActionServer.readerStep_cases hd with ⟨reader, rfl⟩ | ⟨reachable, result, reader, rfl⟩
      · exact .reads _
      · have hmoves : Moves setup (.reader id step) h _ := .enters
          ((h.server.push (.ofFrame ⟨id, reachable⟩ result)).2.setReader id reader).readers
          (Action.isClose_ofFrame ⟨id, reachable⟩ result)
        rw [← withServer_push] at hmoves
        exact hmoves
  | push action =>
      simp only [step] at hstep
      split at hstep
      · cases hstep
      · cases hstep
        rw [withServer_push]
        exact .enters h.readers (Bool.eq_false_iff.mpr ‹_›)
  | consume watch => exact moves_of_consume hstep
  | shutdown =>
      cases hstep
      cases hcloser : h.closer with
      | none => exact .asked hcloser
      | some point => exact .reads h.readers
  | close =>
      obtain ⟨point, hcloser, hclose⟩ := Option.bind_eq_some_iff.mp hstep
      exact .closes hcloser (close_eq_some_iff.mp hclose)

/-- What the consumer does at once, it does to the board and to the shutdown request. -/
theorem touches_of_consume {d : ActionServer β δ} (hprompt : h.IsPrompt)
    (hstep : h.server.consume setup = some d) : h.consumer ≠ .gone ∧
      ∃ board shutdown, d.instrument =
        { h.shared.bench.instrument with board := board, shutdown := shutdown } := by
  have hsame : ∃ board shutdown, h.shared.bench.instrument =
      { h.shared.bench.instrument with board := board, shutdown := shutdown } := ⟨_, _, rfl⟩
  obtain ⟨shared, queue, consumer, wait, readers, entered, calls, closer⟩ := h
  cases consumer with
  | waiting =>
      refine ⟨by simp, ?_⟩
      simp only [ActionServer.consume, server] at hstep
      split at hstep <;> cases hstep
      exact hsame
  | executing recipient request done rest =>
      refine ⟨by simp, ?_⟩
      cases rest with
      | nil =>
          cases hstep
          exact hsame
      | cons item rest =>
          obtain ⟨-, hcall, hscans⟩ := hprompt item rfl
          obtain ⟨board, shutdown, htouches⟩ :=
            Item.touches_execute setup recipient.connection hcall hscans shared.bench.instrument
          refine ⟨board, shutdown, ?_⟩
          rw [← htouches]
          simp only [ActionServer.consume, server] at hstep
          split at hstep <;> rename_i hexecute <;> cases hstep <;> rw [hexecute]
  | sending dispatch | closing connection | leaving =>
      cases hstep
      exact ⟨by simp, hsame⟩
  | gone => cases hstep

end Moves

end ConcurrentDaemon

/-! ### Who is at work -/

/-- Nothing is done to the hardware from outside: the engine is left to itself and to the sessions,
and the board keeps its trigger. -/
def SharedAct.Natural (x : Instrument SimulatedBoard SimulatedDma) :
    SharedAct SimulatedBoard SimulatedDma → Prop
  | bench (.hardware board dma) =>
      x.dma.Drifts dma ∧ board.peek Register.trigger = x.board.peek Register.trigger
  | _ => True

theorem SharedAct.Natural.bench {x : Instrument SimulatedBoard SimulatedDma}
    {act : Act SimulatedBoard SimulatedDma} (h : (SharedAct.bench act).Natural x) :
    act.Natural x.dma := by
  cases act with
  | hardware board dma => exact h.1
  | _ => trivial

/-- Nothing is done to the hardware from outside. -/
def DaemonAct.Natural (x : Instrument SimulatedBoard SimulatedDma) :
    DaemonAct SimulatedBoard SimulatedDma → Prop
  | shared act => act.Natural x
  | _ => True

namespace ConcurrentDaemon

variable {setup : Setup SimulatedBoard SimulatedDma}
  {act : DaemonAct SimulatedBoard SimulatedDma}
  {h h' : ConcurrentDaemon SimulatedBoard SimulatedDma}

/-- In all acts nothing is done to the hardware from outside. -/
def Natural (setup : Setup SimulatedBoard SimulatedDma) :
    List (DaemonAct SimulatedBoard SimulatedDma) →
    ConcurrentDaemon SimulatedBoard SimulatedDma → Prop
  | [], _ => True
  | act :: acts, h =>
      act.Natural h.shared.bench.instrument ∧ ∀ h' ∈ h.step setup act, Natural setup acts h'

/-- What is so when the one who shuts the daemon down has come to a point. -/
def Reached (h : ConcurrentDaemon SimulatedBoard SimulatedDma) : CloserPoint → Prop
  | .requesting | .stopping _ | .sealing | .awaiting => True
  | .stoppingAgain _ => h.consumer = .gone
  | .joining call => h.consumer = .gone ∧
      (h.shared.bench.calls[call]? = some (.join .taking) ∨ h.shared.bench.joinable = false)
  | .idling => h.consumer = .gone ∧ h.shared.bench.Over
  | .returned => h.consumer = .gone ∧ h.shared.bench.Over ∧
      h.shared.bench.instrument.board.peek Register.trigger = Trigger.disabled

/-- Who is at work in a daemon: starts and scans are those that the consumer waits for, and only who
shuts the daemon down waits for a worker. -/
structure Sound (h : ConcurrentDaemon SimulatedBoard SimulatedDma) : Prop where
  tended : h.shared.Tended
  starts : ∀ number, h.shared.bench.Pending .start number → h.wait = some (.call number)
  scans : ∀ number, h.shared.Scanning number → h.wait = some (.scan number)
  busy : ∀ wait, h.wait = some wait → ∃ item, h.consumer.item? = some item
  joins : ∀ number, h.shared.bench.Pending .join number → h.closer = some (.joining number)
  reached : ∀ point, h.closer = some point → h.Reached point

theorem sound_fresh (limit : Nat) (board : SimulatedBoard) {dma : SimulatedDma}
    (hidle : dma.running = false) : (fresh limit board dma).Sound where
  tended := SharedInstrument.tended_fresh board hidle
  starts _ := fun ⟨_, hcall, _⟩ => by cases hcall
  scans _ := fun ⟨_, hscan, _⟩ => by cases hscan
  busy _ hwait := by cases hwait
  joins _ := fun ⟨_, hcall, _⟩ => by cases hcall
  reached _ hcloser := by cases hcloser

/-- As long as the consumer is there, nothing is said of what comes after it. -/
theorem Reached.of_consumer {point : CloserPoint} (hreached : h.Reached point)
    (hconsumer : h.consumer ≠ .gone) (h' : ConcurrentDaemon SimulatedBoard SimulatedDma) :
    h'.Reached point := by
  cases point with
  | requesting | stopping | sealing | awaiting => trivial
  | stoppingAgain => exact absurd hreached hconsumer
  | joining | idling | returned => exact absurd hreached.1 hconsumer

theorem Sound.unasked (hsound : h.Sound) (hwait : h.wait = none) : h.shared.Unasked where
  starts number hpending := by
    rw [hsound.starts number hpending] at hwait
    cases hwait
  scans number hscanning := by
    rw [hsound.scans number hscanning] at hwait
    cases hwait

theorem Sound.wait_eq_none (hsound : h.Sound) (hgone : h.consumer = .gone) :
    h.wait = none := by
  refine Option.eq_none_iff_forall_ne_some.mpr fun wait hwait => ?_
  obtain ⟨item, hitem⟩ := hsound.busy wait hwait
  rw [hgone] at hitem
  cases hitem

/-- What the one who shuts the daemon down has come to, stays so while others act. -/
theorem Sound.reached_of_shared (hsound : h.Sound) {act : SharedAct SimulatedBoard SimulatedDma}
    {shared : SharedInstrument SimulatedBoard SimulatedDma} (hact : act.isReserved = false)
    (hnatural : act.Natural h.shared.bench.instrument)
    (hstep : h.shared.step setup act = some shared)
    {point : CloserPoint} (hreached : h.Reached point) :
    Reached { h with shared := shared } point := by
  by_cases hgone : h.consumer = .gone
  · have hunasked := hsound.unasked (hsound.wait_eq_none hgone)
    obtain ⟨hkeepsOver, hkeepsHandle⟩ := hsound.tended.keeps hunasked hstep
    cases point with
    | requesting | stopping | sealing | awaiting => trivial
    | stoppingAgain => exact hgone
    | joining number =>
        refine ⟨hgone, ?_⟩
        rcases hreached.2 with hcall | hjoinable
        · rcases SharedInstrument.bench_of_step hstep with ⟨act', -, hbench, -⟩ | ⟨-, hbeside⟩
          · by_cases hmoves : act'.caller? = some number
            · exact .inr (Bench.joinable_of_taking hbench hcall hmoves)
            · exact .inl (Bench.getElem?_calls_of_step hbench hcall hmoves)
          · exact .inl (hbeside.calls ▸ hcall)
        · exact .inr (hkeepsHandle hjoinable)
    | idling => exact ⟨hgone, hkeepsOver hreached.2⟩
    | returned =>
        obtain ⟨-, hover, htrigger⟩ := hreached
        refine ⟨hgone, hkeepsOver hover, ?_⟩
        rcases hsound.tended.board_of_step hunasked hover hact hstep with hboard | ⟨dma, rfl⟩
        · exact (congrArg (·.peek Register.trigger) hboard).trans htrigger
        · exact hnatural.2.trans htrigger
  · exact hreached.of_consumer hgone _

theorem Sound.shared (hsound : h.Sound) (hdma : setup.dma = SimulatedDma.engine)
    {act : SharedAct SimulatedBoard SimulatedDma}
    {shared : SharedInstrument SimulatedBoard SimulatedDma}
    (hact : act.isReserved = false) (hnatural : act.Natural h.shared.bench.instrument)
    (hstep : h.shared.step setup act = some shared) : Sound { h with shared := shared } where
  tended := hsound.tended.step hdma (fun _ heq => (heq ▸ hnatural).bench) hstep
  starts number hpending :=
    hsound.starts number (SharedInstrument.pending_of_step hstep hact (.inl rfl) hpending)
  scans number hscanning :=
    hsound.scans number (SharedInstrument.scanning_of_step hstep hact hscanning)
  busy := hsound.busy
  joins number hpending :=
    hsound.joins number (SharedInstrument.pending_of_step hstep hact (.inr rfl) hpending)
  reached point hcloser :=
    hsound.reached_of_shared hact hnatural hstep (hsound.reached point hcloser)

theorem Sound.works (hsound : h.Sound) {d : ActionServer SimulatedBoard SimulatedDma}
    (hprompt : h.IsPrompt) (hstep : h.server.consume setup = some d) : (h.withServer d).Sound := by
  obtain ⟨hconsumer, board, shutdown, htouches⟩ := touches_of_consume hprompt hstep
  have hshared : (h.withServer d).shared = { h.shared with
      bench := h.shared.bench.on fun x => { x with board := board, shutdown := shutdown } } := by
    rw [withServer, on, htouches]
    rfl
  have hwait : h.wait = none := by
    refine Option.eq_none_iff_forall_ne_some.mpr fun wait hwait => ?_
    obtain ⟨item, hitem⟩ := hsound.busy wait hwait
    rw [(hprompt item hitem).1] at hwait
    cases hwait
  refine ⟨hshared ▸ hsound.tended.touch board shutdown, hsound.starts, hsound.scans,
    fun wait hbusy => ?_, hsound.joins,
    fun point hcloser => (hsound.reached point hcloser).of_consumer hconsumer _⟩
  cases hwait.symm.trans hbusy

theorem Sound.calls (hsound : h.Sound) (hdma : setup.dma = SimulatedDma.engine) {item : Item}
    {call : Call} (hitem : h.consumer.item? = some item) (hwait : h.wait = none)
    (hcall : item.call? = some call) :
    Sound { h with
      shared := h.shared.withCall call, wait := some (.call h.shared.bench.calls.length) } := by
  obtain ⟨hnew, hjoin⟩ := Item.isNew_of_call? hcall
  have hunasked := hsound.unasked hwait
  refine ⟨hsound.tended.withCall hdma hnew, fun number hpending => ?_, fun number hscanning => ?_,
    fun _ _ => ⟨item, hitem⟩, fun number hpending => ?_, fun point hcloser => ?_⟩
  · rcases SharedInstrument.pending_withCall hpending with hbefore | ⟨rfl, -⟩
    · exact absurd hbefore (hunasked.starts number)
    · rfl
  · exact absurd hscanning (hunasked.scans number)
  · rcases SharedInstrument.pending_withCall hpending with hbefore | ⟨-, hkind⟩
    · exact hsound.joins number hbefore
    · exact absurd hkind hjoin
  · refine (hsound.reached point hcloser).of_consumer (fun hgone => ?_) _
    rw [hgone] at hitem
    cases hitem

theorem Sound.scan (hsound : h.Sound) (hdma : setup.dma = SimulatedDma.engine) {item : Item}
    {watch : Stopwatch} {shared : SharedInstrument SimulatedBoard SimulatedDma}
    (hitem : h.consumer.item? = some item) (hwait : h.wait = none)
    (hstep : h.shared.step setup (.arrive watch) = some shared) :
    Sound { h with shared := shared, wait := some (.scan h.shared.scans.length) } := by
  have hunasked := hsound.unasked hwait
  have htended := hsound.tended.step hdma (by simp) hstep
  cases hstep
  refine ⟨htended, fun number hpending => absurd hpending (hunasked.starts number),
    fun number hscanning => ?_, fun _ _ => ⟨item, hitem⟩, hsound.joins, fun point hcloser => ?_⟩
  · obtain ⟨scan, hscan, hstage⟩ := hscanning
    rw [List.getElem?_append] at hscan
    split at hscan
    · exact absurd ⟨scan, hscan, hstage⟩ (hunasked.scans number)
    · rw [List.getElem?_singleton] at hscan
      split at hscan
      · rw [show number = h.shared.scans.length by omega]
      · cases hscan
  · refine (hsound.reached point hcloser).of_consumer (fun hgone => ?_) _
    rw [hgone] at hitem
    cases hitem

/-- A call or a scan from which something came has returned. -/
theorem Sound.unasked_of_outcome (hsound : h.Sound) {item : Item} {wait : ItemWait}
    {outcome : Except ItemError Unit × Item} (hwait : h.wait = some wait)
    (houtcome : item.outcome? h.shared wait = some outcome) : h.shared.Unasked where
  starts number hpending := by
    obtain rfl := Option.some.inj (hwait.symm.trans (hsound.starts number hpending))
    obtain ⟨call, hcall, hof⟩ := Option.bind_eq_some_iff.mp houtcome
    obtain ⟨call', hcall', -, hreturned⟩ := hpending
    obtain rfl := Option.some.inj (hcall.symm.trans hcall')
    rw [Item.hasReturned_of_ofCall? hof] at hreturned
    cases hreturned
  scans number hscanning := by
    obtain rfl := Option.some.inj (hwait.symm.trans (hsound.scans number hscanning))
    obtain ⟨scan, hscan, hof⟩ := Option.bind_eq_some_iff.mp houtcome
    obtain ⟨scan', hscan', hstage⟩ := hscanning
    obtain rfl := Option.some.inj (hscan.symm.trans hscan')
    rw [Item.stage_of_ofScan? hof] at hstage
    exact absurd hstage (by decide)

theorem Sound.settles (hsound : h.Sound) {item : Item} {wait : ItemWait}
    {outcome : Except ItemError Unit × Item} (hitem : h.consumer.item? = some item)
    (hwait : h.wait = some wait) (houtcome : item.outcome? h.shared wait = some outcome)
    (consumer : ConsumerPoint) : Sound { h with wait := none, consumer := consumer } := by
  have hunasked := hsound.unasked_of_outcome hwait houtcome
  refine ⟨hsound.tended, fun number hpending => absurd hpending (hunasked.starts number),
    fun number hscanning => absurd hscanning (hunasked.scans number), fun _ hbusy => ?_,
    hsound.joins, fun point hcloser => ?_⟩
  · cases hbusy
  · refine (hsound.reached point hcloser).of_consumer (fun hgone => ?_) _
    rw [hgone] at hitem
    cases hitem

/-- Who shuts the daemon down goes on to a point without making a call. -/
theorem Sound.goes (hsound : h.Sound) {point next : CloserPoint} (hcloser : h.closer = some point)
    (hpoint : ∀ number, point = .joining number → ¬ h.shared.bench.Pending .join number)
    (hreached : h.Reached next) : Sound { h with closer := some next } where
  tended := hsound.tended
  starts := hsound.starts
  scans := hsound.scans
  busy := hsound.busy
  joins number hpending := by
    obtain rfl := Option.some.inj (hcloser.symm.trans (hsound.joins number hpending))
    exact absurd hpending (hpoint number rfl)
  reached point hcloser := by
    obtain rfl := Option.some.inj hcloser
    cases point <;> exact hreached

/-- When the call that waits for the last worker has returned, that worker has ended. -/
theorem Sound.over_of_joining (hsound : h.Sound) {number : Nat}
    (hcloser : h.closer = some (.joining number))
    (hreturned : h.shared.bench.calls[number]? = some (.join .returned)) : h.shared.bench.Over := by
  obtain ⟨-, htaking | hjoinable⟩ := hsound.reached _ hcloser
  · cases htaking.symm.trans hreturned
  · cases hsound.tended.awaited with
    | ended hover => exact hover
    | joinable hhandle => cases hjoinable.symm.trans hhandle
    | @waited other hcall =>
        have hother := hsound.joins other ⟨_, hcall, rfl, rfl⟩
        obtain rfl := CloserPoint.joining.inj (Option.some.inj (hcloser.symm.trans hother))
        cases hcall.symm.trans hreturned

theorem Sound.begins (hsound : h.Sound) (hdma : setup.dma = SimulatedDma.engine)
    {point next : CloserPoint} (hcloser : h.closer = some point)
    (hpoint : ∀ number, point ≠ .joining number) {call : Call} (hnew : call.isNew = true)
    (hstart : call.kind ≠ .start)
    (hjoin : call.kind = .join → next = .joining h.shared.bench.calls.length)
    (hreached : Reached { h with shared := h.shared.withCall call } next) :
    Sound { h with shared := h.shared.withCall call, closer := some next } where
  tended := hsound.tended.withCall hdma hnew
  starts number hpending := by
    rcases SharedInstrument.pending_withCall hpending with hbefore | ⟨-, hkind⟩
    · exact hsound.starts number hbefore
    · exact absurd hkind hstart
  scans := hsound.scans
  busy := hsound.busy
  joins number hpending := by
    rcases SharedInstrument.pending_withCall hpending with hbefore | ⟨rfl, hkind⟩
    · have hjoining := Option.some.inj (hcloser.symm.trans (hsound.joins number hbefore))
      exact absurd hjoining (hpoint number)
    · exact congrArg some (hjoin hkind)
  reached point hcloser := by
    obtain rfl := Option.some.inj hcloser
    cases next <;> exact hreached

/-- Board and shutdown request are nobody else's business until the daemon is shut down. -/
theorem Sound.touch (hsound : h.Sound) (board : SimulatedBoard) (shutdown : ShutdownSignal)
    (hboard : h.closer = some .returned →
      board.peek Register.trigger = h.shared.bench.instrument.board.peek Register.trigger) :
    (h.on fun x => { x with board := board, shutdown := shutdown }).Sound where
  tended := hsound.tended.touch board shutdown
  starts := hsound.starts
  scans := hsound.scans
  busy := hsound.busy
  joins := hsound.joins
  reached point hcloser := by
    have hreached := hsound.reached point hcloser
    cases point with
    | returned => exact ⟨hreached.1, hreached.2.1, (hboard hcloser).trans hreached.2.2⟩
    | _ => exact hreached

theorem Sound.closes (hsound : h.Sound) {clock : Clock}
    (hport : setup.port = SimulatedBoard.port clock) (hdma : setup.dma = SimulatedDma.engine)
    {point : CloserPoint} (hcloser : h.closer = some point) (hcloses : Closes setup h point h') :
    h'.Sound := by
  have hreached := hsound.reached point hcloser
  cases hcloses with
  | requests =>
      have hrequested := hsound.touch h.shared.bench.instrument.board
        h.shared.bench.instrument.shutdown.request fun _ => rfl
      exact hrequested.begins hdma hcloser (by simp) rfl (by simp [Call.kind])
        (by simp [Call.kind]) trivial
  | stopped => exact hsound.goes hcloser (by simp) trivial
  | seals =>
      have hentered : (h.enter .close).Sound :=
        ⟨hsound.tended, hsound.starts, hsound.scans, hsound.busy, hsound.joins, hsound.reached⟩
      exact hentered.goes hcloser (by simp) trivial
  | stopsAgain hgone =>
      exact hsound.begins hdma hcloser (by simp) rfl (by simp [Call.kind]) (by simp [Call.kind])
        hgone
  | joins =>
      exact hsound.begins hdma hcloser (by simp) rfl (by simp [Call.kind]) (fun _ => rfl)
        ⟨hreached, .inl (h.shared.getElem?_withCall _)⟩
  | joined hcall =>
      refine hsound.goes hcloser ?_ ⟨hreached.1, hsound.over_of_joining hcloser hcall⟩
      rintro _ ⟨⟩ ⟨call, hpending, -, hnot⟩
      obtain rfl := Option.some.inj (hcall.symm.trans hpending)
      cases hnot
  | idles =>
      obtain ⟨hgone, hover⟩ := hreached
      have htrigger : setup.port.write Register.trigger Trigger.disabled
          h.shared.bench.instrument.board =
            (.ok (), h.shared.bench.instrument.board.store Register.trigger Trigger.disabled) := by
        rw [hport]
        exact SimulatedBoard.write_trigger (by decide)
      have hwritten := hsound.touch
        (h.shared.bench.instrument.board.store Register.trigger Trigger.disabled)
        h.shared.bench.instrument.shutdown (by simp [hcloser])
      have hon : (h.on fun x =>
          (x.onBoard (setup.port.write Register.trigger Trigger.disabled)).2) =
          h.on fun x => { x with
            board := h.shared.bench.instrument.board.store Register.trigger Trigger.disabled
            shutdown := h.shared.bench.instrument.shutdown } := by
        simp only [on, Bench.on, Instrument.onBoard, htrigger]
      rw [hon]
      exact hwritten.goes hcloser (by simp)
        ⟨hgone, hover, SimulatedBoard.peek_store_self _ _⟩

theorem Sound.step (hsound : h.Sound) {clock : Clock}
    (hport : setup.port = SimulatedBoard.port clock) (hdma : setup.dma = SimulatedDma.engine)
    (hnatural : act.Natural h.shared.bench.instrument) (hstep : h.step setup act = some h') :
    h'.Sound := by
  cases moves_of_step hstep with
  | shared hact hreserved hshared =>
      subst hact
      exact hsound.shared hdma hreserved hnatural hshared
  | reads readers | enters readers =>
      exact ⟨hsound.tended, hsound.starts, hsound.scans, hsound.busy, hsound.joins, hsound.reached⟩
  | works hprompt hserver => exact hsound.works hprompt hserver
  | calls hconsumer hwait hcall =>
      exact hsound.calls hdma (by rw [hconsumer]; rfl) hwait hcall
  | scans hconsumer hwait _ hshared => exact hsound.scan hdma (by rw [hconsumer]; rfl) hwait hshared
  | settles hconsumer hwait houtcome =>
      exact hsound.settles (by rw [hconsumer]; rfl) hwait houtcome _
  | asked hcloser =>
      refine ⟨hsound.tended, hsound.starts, hsound.scans, hsound.busy, fun number hpending => ?_,
        fun point hpoint => ?_⟩
      · cases hcloser.symm.trans (hsound.joins number hpending)
      · obtain rfl := Option.some.inj hpoint
        trivial
  | closes hcloser hclose => exact hsound.closes hport hdma hcloser hclose

theorem Sound.run {acts : List (DaemonAct SimulatedBoard SimulatedDma)} (hsound : h.Sound)
    {clock : Clock} (hport : setup.port = SimulatedBoard.port clock)
    (hdma : setup.dma = SimulatedDma.engine) (hnatural : Natural setup acts h)
    (hrun : run setup acts h = some h') : h'.Sound := by
  induction acts generalizing h with
  | nil => exact Option.some.inj hrun ▸ hsound
  | cons act acts ih =>
      obtain ⟨next, hstep, hrest⟩ := Option.bind_eq_some_iff.mp hrun
      obtain ⟨hact, hnatural⟩ := hnatural
      exact ih (hsound.step hport hdma hact hstep) (hnatural next hstep) hrest

end ConcurrentDaemon

end DaqServer
