import DaqServer.Proofs.Stream.Exclusion
import DaqServer.Proofs.Stream.Origin
import DaqServer.Stream.Server

/-!
# Greetings of streaming connections

The sink of a streaming connection passes from the endpoints to a start and from the start to its
run. `Bench.Hands` says so of one act at a bench, and that nothing but the loggers of runs writes to
sinks there. Main statements: a connection that no start takes before it is greeted gets its
greeting first, and after it only blocks that the engine gave during the run; where a start takes
it, blocks can be first.
-/

namespace DaqServer

variable {β δ : Type}

/-- The connection and the sink that a start has in hand. -/
def Call.taken? : Call → Option (ConnectionId × SinkId)
  | start id (.joining sink) | start id (.configuring sink) | start id (.igniting sink)
  | start id (.spawning sink) | start id (.restoring sink _) => some (id, sink)
  | _ => none

theorem Call.claim?_of_taken? {call : Call} {e : ConnectionId × SinkId}
    (h : call.taken? = some e) : call.claim? = some e.1 := by
  cases call with
  | start id point =>
      cases point with
      | joining sink | configuring sink | igniting sink | spawning sink | restoring sink cause =>
          obtain rfl := Option.some.inj h
          rfl
      | _ => cases h
  | _ => cases h

/-- Whatever is said of the sink in hand, a call without one makes it true. -/
theorem Call.forall_of_not_taken {call : Call} (h : call.taken? = none)
    {p : ConnectionId × SinkId → Prop} (e : ConnectionId × SinkId) (he : call.taken? = some e) :
    p e := by
  cases h.symm.trans he

theorem Call.taken?_of_isNew {call : Call} (h : call.isNew) : call.taken? = none := by
  cases call with
  | start id point =>
      cases point with
      | arriving => rfl
      | _ => cases h
  | _ => rfl

namespace Bench

def taken (b : Bench β δ) : List (ConnectionId × SinkId) :=
  b.calls.filterMap Call.taken? ++ b.runs.map fun run => (run.connection, run.sink)

def waiting (b : Bench β δ) : List (ConnectionId × SinkId) := b.instrument.session.endpoints

def sent (b : Bench β δ) : List (List Bytes) := b.instrument.sent

/-- A bench keeps its sinks or passes them on: those that wait may be taken, those that were taken
may wait again. A run may send a block. -/
structure Hands (source : Bytes → Prop) (takes : Option ConnectionId) (b b' : Bench β δ) :
    Prop where
  waiting : ∀ e ∈ b'.waiting, e ∈ b.waiting ∨ e ∈ b.taken
  calls : ∀ call ∈ b'.calls, ∀ e, call.taken? = some e →
    e ∈ b.taken ∨ e ∈ b.waiting ∧ takes = some e.1
  runs : ∀ run' ∈ b'.runs, (∃ run ∈ b.runs, run.Keeps source run') ∨
    (run'.connection, run'.sink) ∈ b.taken ∧ run'.Supplied source
  sent : b'.sent = b.sent ∨ ∃ run ∈ b.runs, ∃ block, run.logger = some (.sending block) ∧
    b'.sent = b.sent.modify run.sink (· ++ [block])

/-- No connection more waits, and nothing is written. -/
structure Silent (b b' : Bench β δ) : Prop where
  waiting : b'.waiting ⊆ b.waiting
  sent : b'.sent = b.sent

variable {setup : Setup β δ} {source : Bytes → Prop} {b b' : Bench β δ} {id : ConnectionId}

theorem Silent.refl (b : Bench β δ) : Silent b b := ⟨List.Subset.refl _, rfl⟩

theorem mem_taken {e : ConnectionId × SinkId} :
    e ∈ b.taken ↔
      (∃ call ∈ b.calls, call.taken? = some e) ∨
        ∃ run ∈ b.runs, (run.connection, run.sink) = e := by
  rw [taken, List.mem_append, List.mem_filterMap, List.mem_map]

theorem mem_taken_of_call {call : Call} (hmem : call ∈ b.calls) {e : ConnectionId × SinkId}
    (h : call.taken? = some e) : e ∈ b.taken :=
  mem_taken.mpr (.inl ⟨call, hmem, h⟩)

theorem mem_taken_of_run {run : Run} (hmem : run ∈ b.runs) : (run.connection, run.sink) ∈ b.taken :=
  mem_taken.mpr (.inr ⟨run, hmem, rfl⟩)

theorem Hands.taken {takes : Option ConnectionId} (h : Hands source takes b b') :
    ∀ e ∈ b'.taken, e ∈ b.taken ∨ e ∈ b.waiting ∧ takes = some e.1 := by
  intro e he
  rcases mem_taken.mp he with ⟨call, hmem, hcall⟩ | ⟨run', hmem, rfl⟩
  · exact h.calls call hmem e hcall
  · rcases h.runs run' hmem with ⟨run, hrun, hkeeps⟩ | ⟨htaken, -⟩
    · rw [hkeeps.connection, hkeeps.sink]
      exact .inl (mem_taken_of_run hrun)
    · exact .inl htaken

theorem Hands.supplied {takes : Option ConnectionId} (h : Hands source takes b b')
    (hb : ∀ run ∈ b.runs, run.Supplied source) : ∀ run ∈ b'.runs, run.Supplied source := by
  intro run' hmem
  rcases h.runs run' hmem with ⟨run, hrun, hkeeps⟩ | ⟨-, hsupplied⟩
  · exact hkeeps.supplied (hb run hrun)
  · exact hsupplied

theorem Hands.length_sent {takes : Option ConnectionId} (h : Hands source takes b b') :
    b'.sent.length = b.sent.length := by
  rcases h.sent with hsent | ⟨run, -, block, -, hsent⟩
  · rw [hsent]
  · rw [hsent, List.length_modify]

theorem runs_keep (source : Bytes → Prop) (hruns : b'.runs = b.runs) :
    ∀ run' ∈ b'.runs, (∃ run ∈ b.runs, run.Keeps source run') ∨
      (run'.connection, run'.sink) ∈ b.taken ∧ run'.Supplied source :=
  fun run' hmem => .inl ⟨run', hruns ▸ hmem, .refl source run'⟩

theorem runs_set {number : Nat} {run run' : Run}
    (hrun : b.runs[number]? = some run) (hruns : b'.runs = b.runs.set number run')
    (hkeeps : run.Keeps source run') :
    ∀ run' ∈ b'.runs, (∃ run ∈ b.runs, run.Keeps source run') ∨
      (run'.connection, run'.sink) ∈ b.taken ∧ run'.Supplied source := by
  intro other hmem
  rw [hruns] at hmem
  rcases List.mem_or_eq_of_mem_set hmem with hmem | rfl
  · exact .inl ⟨other, hmem, .refl source other⟩
  · exact .inl ⟨run, List.mem_of_getElem? hrun, hkeeps⟩

theorem calls_set {calls : List Call} {number : Nat} {call' : Call} {e : ConnectionId × SinkId}
    {p : Prop} (hcalls : calls = b.calls) (hcall : call'.taken? = some e → e ∈ b.taken ∨ p) :
    ∀ call ∈ calls.set number call', call.taken? = some e → e ∈ b.taken ∨ p := by
  intro call hmem htaken
  rcases List.mem_or_eq_of_mem_set hmem with hmem | rfl
  · exact .inl (mem_taken_of_call (hcalls ▸ hmem) htaken)
  · exact hcall htaken

theorem Hands.of_silent {takes : Option ConnectionId} (h : Silent b b')
    (hcalls : b'.calls = b.calls) (hruns : b'.runs = b.runs) : Hands source takes b b' where
  waiting _ he := .inl (h.waiting he)
  calls _ hmem _ he := .inl (mem_taken_of_call (hcalls ▸ hmem) he)
  runs := runs_keep source hruns
  sent := .inl h.sent

theorem Hands.refl (takes : Option ConnectionId) (b : Bench β δ) : Hands source takes b b :=
  .of_silent (.refl b) rfl rfl

/-! ### Calls -/

theorem silent_modifySink (b : Bench β δ) (f : Sink → Sink) (hf : ∀ s, (f s).written = s.written)
    (sink : SinkId) : Silent b (b.on fun x => x.modifySink sink f) :=
  ⟨List.Subset.refl _, Instrument.sent_modifySink f hf sink b.instrument⟩

theorem silent_removeEndpoint (b : Bench β δ) (id : ConnectionId) :
    Silent b (b.on (Instrument.removeEndpoint id)) :=
  ⟨List.filter_sublist.subset, rfl⟩

theorem silent_of_stopPoint {point : StopPoint} {next : StopPoint × Bench β δ}
    (h : point.step setup b = some next) : Silent b next.2 := by
  cases point with
  | arriving =>
      simp only [StopPoint.step] at h
      split at h
      · cases h
      · cases h
        exact .refl b
  | flagging active =>
      simp only [StopPoint.step] at h
      split at h <;> cases h <;> exact ⟨List.Subset.refl _, rfl⟩
  | looking | cancelling active =>
      cases h
      exact ⟨List.Subset.refl _, rfl⟩
  | returned active => cases h

theorem silent_of_detachPoint {point : DetachPoint} {next : DetachPoint × Bench β δ}
    (h : point.step setup id b = some next) : Silent b next.2 := by
  cases point with
  | removing =>
      simp only [DetachPoint.step] at h
      split at h
      · cases h
      · split at h
        · cases h
          exact .refl b
        · cases h
          exact silent_removeEndpoint b id
  | closing sink =>
      cases h
      exact silent_modifySink b Sink.close (fun _ => rfl) sink
  | checking =>
      simp only [DetachPoint.step] at h
      split at h <;> cases h <;> exact .refl b
  | stopping point =>
      obtain ⟨next, hnext, rfl⟩ := Option.map_eq_some_iff.mp h
      exact silent_of_stopPoint hnext
  | returned => cases h

theorem silent_of_closePoint {point : ClosePoint} {next : ClosePoint × Bench β δ}
    (h : point.step setup b = some next) : Silent b next.2 := by
  cases point with
  | stopping point =>
      cases point with
      | returned active =>
          cases h
          exact .refl b
      | arriving | looking | flagging active | cancelling active =>
          simp only [ClosePoint.step] at h
          obtain ⟨next, hnext, rfl⟩ := Option.map_eq_some_iff.mp h
          exact silent_of_stopPoint hnext
  | draining =>
      simp only [ClosePoint.step] at h
      split at h
      · cases h
      · cases h
        exact ⟨List.nil_subset _, rfl⟩
  | closing sinks =>
      cases sinks with
      | nil =>
          cases h
          exact .refl b
      | cons sink sinks =>
          cases h
          exact silent_modifySink b Sink.close (fun _ => rfl) sink
  | returned => cases h

theorem silent_of_joinPoint {point : JoinPoint} {next : JoinPoint × Bench β δ}
    (h : point.step b = some next) : Silent b next.2 := by
  cases point with
  | taking =>
      simp only [JoinPoint.step] at h
      split at h
      · cases h
      · split at h <;> cases h <;> exact ⟨List.Subset.refl _, rfl⟩
  | waiting run =>
      simp only [JoinPoint.step] at h
      split at h <;> cases h
      exact .refl b
  | returned => cases h

theorem silent_of_call {call : Call} {next : Call × Bench β δ} (h : call.step setup b = some next)
    (hstart : ∀ id point, call ≠ .start id point) : Silent b next.2 := by
  cases call with
  | start id point => exact absurd rfl (hstart id point)
  | stop point =>
      obtain ⟨next, hnext, rfl⟩ := Option.map_eq_some_iff.mp h
      exact silent_of_stopPoint hnext
  | detach id point =>
      obtain ⟨next, hnext, rfl⟩ := Option.map_eq_some_iff.mp h
      exact silent_of_detachPoint hnext
  | close point =>
      obtain ⟨next, hnext, rfl⟩ := Option.map_eq_some_iff.mp h
      exact silent_of_closePoint hnext
  | join point =>
      obtain ⟨next, hnext, rfl⟩ := Option.map_eq_some_iff.mp h
      exact silent_of_joinPoint hnext

theorem session_onDma {α : Type} {access : Access δ α} {result : Except BoardError α}
    (h : b.onDma access = (result, b')) :
    b'.sent = b.sent ∧ b'.waiting = b.waiting ∧ b'.runs = b.runs := by
  cases h
  exact ⟨rfl, rfl, rfl⟩

/-- A start takes a sink that waits, keeps the one it has, puts it back, or hands it to a run. -/
theorem startPoint_hands {point point' : StartPoint}
    (h : point.step setup id b = some (point', b')) :
    b'.sent = b.sent ∧
      (∀ e ∈ b'.waiting, e ∈ b.waiting ∨ (Call.start id point).taken? = some e) ∧
      (∀ e, (Call.start id point').taken? = some e → (Call.start id point).taken? = some e ∨
        e ∈ b.waiting ∧ point = .taking ∧ e.1 = id) ∧
      (b'.runs = b.runs ∨ ∃ sink slots slotBytes, (Call.start id point).taken? = some (id, sink) ∧
        b'.runs = b.runs ++ [.fresh id sink (Ring.make slots slotBytes)]) := by
  cases point with
  | arriving =>
      simp only [StartPoint.step] at h
      split at h
      · cases h
      · cases h
        exact ⟨rfl, fun _ => .inl, Call.forall_of_not_taken rfl, .inl rfl⟩
  | claiming =>
      simp only [StartPoint.step] at h
      split at h <;> cases h <;> exact ⟨rfl, fun _ => .inl, Call.forall_of_not_taken rfl, .inl rfl⟩
  | taking =>
      simp only [StartPoint.step] at h
      split at h
      · cases h
        exact ⟨rfl, fun _ => .inl, Call.forall_of_not_taken rfl, .inl rfl⟩
      · rename_i sink hsink
        cases h
        refine ⟨rfl, fun e he => .inl ((silent_removeEndpoint b id).waiting he), ?_, .inl rfl⟩
        rintro _ ⟨⟩
        obtain ⟨before, after, hsplit, -⟩ := List.lookup_eq_some_iff.mp hsink
        refine .inr ⟨?_, rfl, rfl⟩
        rw [waiting, hsplit]
        exact List.mem_append_right _ List.mem_cons_self
  | joining sink =>
      simp only [StartPoint.step] at h
      split at h
      · cases h
      · cases h
        exact ⟨rfl, fun _ => .inl, fun _ => .inl, .inl rfl⟩
  | configuring sink | igniting sink =>
      simp only [StartPoint.step] at h
      split at h <;> rename_i hdma <;> obtain ⟨hsent, hwaiting, hruns⟩ := session_onDma hdma <;>
        cases h <;> exact ⟨hsent, fun _ he => .inl (hwaiting ▸ he), fun _ => .inl, .inl hruns⟩
  | spawning sink =>
      cases h
      exact ⟨rfl, fun _ => .inl, Call.forall_of_not_taken rfl, .inr ⟨sink, _, _, rfl, rfl⟩⟩
  | halting cause =>
      cases h
      exact ⟨rfl, fun _ => .inl, Call.forall_of_not_taken rfl, .inl rfl⟩
  | restoring sink cause =>
      cases h
      refine ⟨rfl, fun e he => ?_, Call.forall_of_not_taken rfl, .inl rfl⟩
      rcases List.mem_cons.mp he with rfl | he
      · exact .inr rfl
      · exact .inl ((silent_removeEndpoint b id).waiting he)
  | yielding cause =>
      cases h
      exact ⟨rfl, fun _ => .inl, Call.forall_of_not_taken rfl, .inl rfl⟩
  | returned failure => cases h

theorem hands_of_startPoint {number : Nat} {point point' : StartPoint} {x : Bench β δ}
    (hcall : b.calls[number]? = some (.start id point))
    (h : point.step setup id b = some (point', x)) :
    Hands source (Act.caller number (.start id point) : Act β δ).takes? b
      { x with calls := x.calls.set number (.start id point') } := by
  have hmem : Call.start id point ∈ b.calls := List.mem_of_getElem? hcall
  obtain ⟨hcalls, -⟩ := startPoint_cases h
  obtain ⟨hsent, hwaiting, htaken, hruns⟩ := startPoint_hands h
  constructor
  case waiting => exact fun e he => (hwaiting e he).imp_right (mem_taken_of_call hmem)
  case calls =>
      intro other hother e
      refine calls_set hcalls (fun he => ?_) other hother
      rcases htaken e he with hkept | ⟨hwaits, rfl, rfl⟩
      · exact .inl (mem_taken_of_call hmem hkept)
      · exact .inr ⟨hwaits, rfl⟩
  case runs =>
      rcases hruns with hruns | ⟨sink, slots, slotBytes, hsink, hruns⟩
      · exact runs_keep source hruns
      · intro run' hrun'
        change run' ∈ x.runs at hrun'
        rw [hruns, List.mem_append, List.mem_singleton] at hrun'
        rcases hrun' with hrun' | rfl
        · exact .inl ⟨run', hrun', .refl source run'⟩
        · exact .inr ⟨mem_taken_of_call hmem hsink, Run.supplied_fresh id sink slots slotBytes⟩
  case sent => exact .inl hsent

theorem hands_of_caller {number : Nat} {call : Call}
    (h : b.step setup (.caller number call) = some b') :
    Hands source (Act.caller number call : Act β δ).takes? b b' := by
  simp only [step] at h
  split at h
  · rename_i hcall
    obtain ⟨⟨call', x⟩, hstep, rfl⟩ := Option.map_eq_some_iff.mp h
    rcases call_cases hstep with
      ⟨⟨hcalls, -, hruns, -⟩, -, hclaim', hstart⟩ | ⟨id, point, point', rfl, rfl, hpoint⟩
    · obtain ⟨hwaiting, hsent⟩ := silent_of_call hstep hstart
      refine ⟨fun e he => .inl (hwaiting he), fun other hother e => ?_, ?_, .inl hsent⟩
      · refine calls_set hcalls (fun htaken => ?_) other hother
        cases hclaim'.symm.trans (Call.claim?_of_taken? htaken)
      · rcases hruns with hruns | ⟨m, run, hrun, hruns⟩
        · exact runs_keep source hruns
        · exact runs_set hrun hruns (Run.keeps_withFlags source run _)
    · exact hands_of_startPoint hcall hpoint
  · cases h

/-! ### Acts -/

theorem hands_of_onRun {number : Nat} {f : Run → Instrument β δ → Option (Instrument β δ)}
    (h : b.onRun number f = some b')
    (hf : ∀ run y, f run b.instrument = some y →
      ∃ run', y.session.run = some run' ∧ run.Keeps source run' ∧
        y.session.endpoints = b.instrument.session.endpoints ∧
        (y.sent = b.instrument.sent ∨ ∃ block, run.logger = some (.sending block) ∧
          y.sent = b.instrument.sent.modify run.sink (· ++ [block]))) :
    Hands source none b b' := by
  obtain ⟨run, y, hget, hy, hcalls, hinstrument, hruns⟩ := onRun_cases h
  obtain ⟨run', hrun', hkeeps, hsame, hsent⟩ := hf run y hy
  have hb' : b'.sent = y.sent := by
    rw [sent, hinstrument]
    rfl
  have hendpoints : b'.instrument.session.endpoints = y.session.endpoints := by
    rw [hinstrument]
  refine ⟨fun e he => .inl ?_, fun call hmem e he => .inl (mem_taken_of_call (hcalls ▸ hmem) he),
    runs_set hget (hruns run' hrun') hkeeps, ?_⟩
  · rwa [waiting, hendpoints, hsame] at he
  · rw [hb']
    exact hsent.imp_right fun ⟨block, hlogger, hwritten⟩ =>
      ⟨run, List.mem_of_getElem? hget, block, hlogger, hwritten⟩

/-- Every act but a registration passes sinks on at most. -/
theorem hands_of_step {act : Act β δ}
    (hsource : ∀ block, setup.dma.Gives b.instrument.dma block → source block)
    (hact : act.registers = false) (h : b.step setup act = some b') :
    Hands source act.takes? b b' := by
  cases act with
  | call call =>
      simp only [step] at h
      split at h
      · rename_i hnew
        cases h
        refine ⟨fun _ => .inl, fun other hmem e he => ?_, runs_keep source rfl, .inl rfl⟩
        rcases List.mem_append.mp hmem with hmem | hmem
        · exact .inl (mem_taken_of_call hmem he)
        · rw [List.mem_singleton.mp hmem, Call.taken?_of_isNew hnew] at he
          cases he
      · cases h
  | caller number call => exact hands_of_caller h
  | noWorker number id sink cause =>
      simp only [step] at h
      split at h
      · cases h
        refine ⟨fun _ => .inl, fun other hmem e => ?_, runs_keep source rfl, .inl rfl⟩
        exact calls_set rfl (fun he => by cases he) other hmem
      · cases h
  | noLogger number =>
      simp only [step] at h
      refine hands_of_onRun h fun run y hy => ?_
      split at hy
      · rename_i hworker
        cases hy
        refine ⟨_, rfl, ⟨rfl, rfl, fun hs => ?_⟩, rfl, .inl rfl⟩
        exact hs.workerTo (by rw [hworker]; rfl) rfl
      · cases hy
  | worker number point =>
      simp only [step] at h
      refine hands_of_onRun h fun run y hy => ?_
      split at hy
      · obtain ⟨run', hrun', hkeeps, hendpoints, hsent⟩ := Run.keeps_of_workerStep hsource hy
        exact ⟨run', hrun', hkeeps, hendpoints, .inl hsent⟩
      · cases hy
  | logger number point =>
      simp only [step] at h
      refine hands_of_onRun h fun run y hy => ?_
      split at hy
      · exact Run.keeps_of_loggerStep source hy
      · cases hy
  | register id sink => cases hact
  | beginScan | endScan =>
      simp only [step] at h
      split at h <;> cases h
      exact .of_silent ⟨List.Subset.refl _, rfl⟩ rfl rfl
  | hardware board dma =>
      cases h
      exact .of_silent ⟨List.Subset.refl _, rfl⟩ rfl rfl
  | peer sink accepts =>
      cases h
      exact .of_silent
        (silent_modifySink b (fun s => { s with accepts := accepts }) (fun _ => rfl) sink) rfl rfl

/-- A registered connection waits with a sink of its own. -/
theorem waiting_register {accepts : Option Nat} {e : ConnectionId × SinkId}
    (h : e ∈ (b.on fun x => (x.registerEndpoint id (.fresh accepts)).2).waiting) :
    e = (id, b.sent.length) ∨ e ∈ b.waiting := by
  rcases List.mem_cons.mp h with rfl | h
  · rw [sent, Instrument.sent, List.length_map]
    exact .inl rfl
  · exact .inr (List.mem_filter.mp h).1

theorem sent_register (b : Bench β δ) (id : ConnectionId) (accepts : Option Nat) :
    (b.on fun x => (x.registerEndpoint id (.fresh accepts)).2).sent = b.sent ++ [[]] :=
  List.map_append

theorem sent_greet (b : Bench β δ) (bytes : Bytes) (sink : SinkId) :
    (b.on fun x => x.modifySink sink fun s => s.write bytes).sent =
      b.sent.modify sink (· ++ [bytes]) :=
  Instrument.sent_write bytes sink b.instrument

end Bench

/-! ### Connections -/

theorem eq_or_getElem?_of_set {α : Type} {l : List α} {n m : Nat} {a a' : α}
    (h : (l.set n a)[m]? = some a') : n = m ∧ a' = a ∨ n ≠ m ∧ l[m]? = some a' := by
  rw [List.getElem?_set] at h
  split at h
  · split at h <;> cases h
    exact .inl ⟨‹_›, rfl⟩
  · exact .inr ⟨‹_›, h⟩

namespace StreamServer

/-- One act in a streaming server: someone is at work at the bench, and connections at most go on;
or a connection is registered with a new sink; or it is greeted. -/
inductive Moves (source : Bytes → Prop) (act : StreamServerAct β δ)
    (server server' : StreamServer β δ) : Prop
  | works : server.bench.Hands source act.takes? server'.bench →
      (∀ (number : Nat) (v : StreamConnection), server.connections[number]? = some v →
        ∃ v', server'.connections[number]? = some v' ∧
          v'.id = v.id ∧ (v.point ≠ .arriving → v'.point ≠ .arriving)) →
      (∀ (number : Nat) (v : StreamConnection) (sink : SinkId),
        server'.connections[number]? = some v → v.point = .greeting sink →
          server.connections[number]? = some v) →
      Moves source act server server'
  | registers {number : Nat} {v : StreamConnection} : act = .connection number .register →
      server.connections[number]? = some v → v.point = .arriving →
      server'.bench =
        server.bench.on (fun x => (x.registerEndpoint v.id (.fresh v.accepts)).2) →
      server'.connections =
        server.connections.set number { v with point := .greeting server.bench.sent.length } →
      Moves source act server server'
  | greets {number : Nat} {v : StreamConnection} {sink : SinkId} :
      act = .connection number (.greet true) →
      server.connections[number]? = some v → v.point = .greeting sink →
      server'.bench =
        server.bench.on (fun x => x.modifySink sink fun s => s.write v.id.helloBytes) →
      server'.connections = server.connections.set number { v with point := .reading sink } →
      Moves source act server server'

variable {setup : Setup β δ} {source : Bytes → Prop} {server server' : StreamServer β δ}

/-- A connection goes on to a point at which it is not about to be greeted. -/
theorem moves_of_set {act : StreamServerAct β δ} {number : Nat} {v : StreamConnection}
    (point : StreamConnectionPoint)
    (hv : server.connections[number]? = some v) (harriving : point ≠ .arriving)
    (hgreeting : ∀ sink, point ≠ .greeting sink) {bench : Bench β δ}
    (hhands : server.bench.Hands source act.takes? bench) :
    Moves source act server ⟨bench, server.connections.set number { v with point := point }⟩ := by
  obtain ⟨hlt, -⟩ := List.getElem?_eq_some_iff.mp hv
  refine .works hhands (fun m w hw => ?_) (fun m w sink hw hpoint => ?_)
  · by_cases hm : number = m
    · subst hm
      obtain rfl : v = w := Option.some.inj (hv.symm.trans hw)
      exact ⟨_, List.getElem?_set_self hlt, rfl, fun _ => harriving⟩
    · exact ⟨w, (List.getElem?_set_ne hm).trans hw, rfl, id⟩
  · by_cases hm : number = m
    · subst hm
      obtain rfl := Option.some.inj ((List.getElem?_set_self hlt).symm.trans hw)
      exact absurd hpoint (hgreeting sink)
    · exact (List.getElem?_set_ne hm).symm.trans hw

theorem eq_of_register {number : Nat}
    (h : server.step setup (.connection number .register) = some server') :
    ∃ v, server.connections[number]? = some v ∧ v.point = .arriving ∧
      server'.bench =
        server.bench.on (fun x => (x.registerEndpoint v.id (.fresh v.accepts)).2) ∧
      server'.connections =
        server.connections.set number { v with point := .greeting server.bench.sent.length } := by
  obtain ⟨v, hv, h⟩ := Option.bind_eq_some_iff.mp h
  obtain ⟨⟨point, bench⟩, hstep, rfl⟩ := Option.map_eq_some_iff.mp h
  simp only [StreamConnection.step] at hstep
  split at hstep
  · rename_i harriving
    obtain ⟨bench, hbench, hnext⟩ := Option.map_eq_some_iff.mp hstep
    cases hnext
    simp only [Bench.step] at hbench
    split at hbench <;> cases hbench
    exact ⟨v, hv, harriving, rfl, by rw [Bench.sent, Instrument.sent, List.length_map]⟩
  · cases hstep

theorem eq_of_greet {number : Nat}
    (h : server.step setup (.connection number (.greet true)) = some server') :
    ∃ v sink, server.connections[number]? = some v ∧ v.point = .greeting sink ∧
      server'.bench =
        server.bench.on (fun x => x.modifySink sink fun s => s.write v.id.helloBytes) ∧
      server'.connections = server.connections.set number { v with point := .reading sink } := by
  obtain ⟨v, hv, h⟩ := Option.bind_eq_some_iff.mp h
  obtain ⟨⟨point, bench⟩, hstep, rfl⟩ := Option.map_eq_some_iff.mp h
  simp only [StreamConnection.step] at hstep
  split at hstep <;> cases hstep
  exact ⟨v, _, hv, ‹_›, rfl, rfl⟩

theorem moves_of_step {act : StreamServerAct β δ}
    (hsource : ∀ block, setup.dma.Gives server.bench.instrument.dma block → source block)
    (h : server.step setup act = some server') :
    Moves source act server server' := by
  cases act with
  | bench act =>
      simp only [step] at h
      split at h
      · cases h
      · rename_i hact
        obtain ⟨bench, hbench, rfl⟩ := Option.map_eq_some_iff.mp h
        exact .works (Bench.hands_of_step hsource (Bool.eq_false_iff.mpr hact) hbench)
          (fun _ v hv => ⟨v, hv, rfl, id⟩) fun _ _ _ hv _ => hv
  | arrive id accepts =>
      cases h
      refine .works (.refl _ _) (fun number v hv => ?_) (fun number v sink hv hpoint => ?_)
      · obtain ⟨hlt, -⟩ := List.getElem?_eq_some_iff.mp hv
        exact ⟨v, (List.getElem?_append_left hlt).trans hv, rfl, fun h => h⟩
      · by_cases hlt : number < server.connections.length
        · exact (List.getElem?_append_left hlt).symm.trans hv
        · have hmem := List.mem_of_getElem?
            ((List.getElem?_append_right (Nat.le_of_not_lt hlt)).symm.trans hv)
          rw [List.mem_singleton.mp hmem] at hpoint
          cases hpoint
  | connection number step =>
      cases step with
      | register =>
          obtain ⟨v, hv, hpoint, hbench, hconnections⟩ := eq_of_register h
          exact .registers rfl hv hpoint hbench hconnections
      | greet arrives =>
          cases arrives with
          | false =>
              obtain ⟨v, hv, h⟩ := Option.bind_eq_some_iff.mp h
              obtain ⟨next, hstep, rfl⟩ := Option.map_eq_some_iff.mp h
              simp only [StreamConnection.step] at hstep
              split at hstep <;> cases hstep
              exact moves_of_set .departing hv nofun nofun (.refl _ _)
          | true =>
              obtain ⟨v, sink, hv, hpoint, hbench, hconnections⟩ := eq_of_greet h
              exact .greets rfl hv hpoint hbench hconnections
      | leave =>
          obtain ⟨v, hv, h⟩ := Option.bind_eq_some_iff.mp h
          obtain ⟨next, hstep, rfl⟩ := Option.map_eq_some_iff.mp h
          simp only [StreamConnection.step] at hstep
          split at hstep <;> cases hstep
          exact moves_of_set .departing hv nofun nofun (.refl _ _)
      | detach =>
          obtain ⟨v, hv, h⟩ := Option.bind_eq_some_iff.mp h
          obtain ⟨next, hstep, rfl⟩ := Option.map_eq_some_iff.mp h
          simp only [StreamConnection.step] at hstep
          split at hstep
          · obtain ⟨bench, hbench, rfl⟩ := Option.map_eq_some_iff.mp hstep
            exact moves_of_set .gone hv nofun nofun (Bench.hands_of_step hsource rfl hbench)
          · cases hstep

/-- What is true of a streaming server after acts on a fresh one: every sink that someone has is
there, and all that runs hold comes from the source. -/
structure Sound (source : Bytes → Prop) (server : StreamServer β δ) : Prop where
  supplied : ∀ run ∈ server.bench.runs, run.Supplied source
  waiting : ∀ e ∈ server.bench.waiting, e.2 < server.bench.sent.length
  taken : ∀ e ∈ server.bench.taken, e.2 < server.bench.sent.length
  greeting : ∀ (number : Nat) (v : StreamConnection) (sink : SinkId),
    server.connections[number]? = some v →
    v.point = .greeting sink → sink < server.bench.sent.length

theorem sound_fresh (source : Bytes → Prop) (board : β) (dma : δ) :
    Sound source (fresh board dma) :=
  ⟨nofun, nofun, nofun, nofun⟩

theorem Sound.step {act : StreamServerAct β δ} (h : Sound source server)
    (hsource : ∀ block, setup.dma.Gives server.bench.instrument.dma block → source block)
    (hstep : server.step setup act = some server') : Sound source server' := by
  rcases moves_of_step hsource hstep with
    ⟨hhands, -, hgreeting⟩ | ⟨-, hv, -, hbench, hconnections⟩ |
      ⟨-, hv, hpoint, hbench, hconnections⟩
  · have hlength := hhands.length_sent
    refine ⟨hhands.supplied h.supplied, fun e he => ?_, fun e he => ?_,
      fun m w s hw hpoint => ?_⟩ <;> rw [hlength]
    · exact (hhands.waiting e he).elim (h.waiting e) (h.taken e)
    · exact (hhands.taken e he).elim (h.taken e) fun he => h.waiting e he.1
    · exact h.greeting m w s (hgreeting m w s hw hpoint) hpoint
  · have hlength : server'.bench.sent.length = server.bench.sent.length + 1 := by
      rw [hbench, Bench.sent_register, List.length_append, List.length_singleton]
    refine ⟨hbench ▸ h.supplied, fun e he => ?_, fun e he => ?_, fun m w s hw hpoint => ?_⟩ <;>
      rw [hlength]
    · rw [hbench] at he
      rcases Bench.waiting_register he with rfl | he
      · exact Nat.lt_succ_self _
      · exact Nat.lt_succ_of_lt (h.waiting e he)
    · rw [hbench] at he
      exact Nat.lt_succ_of_lt (h.taken e he)
    · rw [hconnections] at hw
      rcases eq_or_getElem?_of_set hw with ⟨-, rfl⟩ | ⟨-, hw⟩
      · cases hpoint
        exact Nat.lt_succ_self _
      · exact Nat.lt_succ_of_lt (h.greeting m w s hw hpoint)
  · have hlength : server'.bench.sent.length = server.bench.sent.length := by
      rw [hbench, Bench.sent_greet, List.length_modify]
    refine ⟨hbench ▸ h.supplied, fun e he => ?_, fun e he => ?_, fun m w s hw hpoint => ?_⟩ <;>
      rw [hlength]
    · rw [hbench] at he
      exact h.waiting e he
    · rw [hbench] at he
      exact h.taken e he
    · rw [hconnections] at hw
      rcases eq_or_getElem?_of_set hw with ⟨-, rfl⟩ | ⟨-, hw⟩
      · cases hpoint
      · exact h.greeting m w s hw hpoint

/-! ### Runs -/

/-- The moments of a run, the first one first: the server before every act and after the last. -/
def history (setup : Setup β δ) :
    List (StreamServerAct β δ) → StreamServer β δ → List (StreamServer β δ)
  | [], server => [server]
  | act :: acts, server => server :: (server.step setup act).elim [] (history setup acts)

/-- The engine gives these contents at one of these moments. -/
def GivenAt (setup : Setup β δ) (moments : List (StreamServer β δ)) (block : Bytes) : Prop :=
  ∃ x ∈ moments, setup.dma.Gives x.bench.instrument.dma block

theorem mem_history (setup : Setup β δ) (acts : List (StreamServerAct β δ))
    (server : StreamServer β δ) : server ∈ history setup acts server := by
  cases acts <;> exact List.mem_cons_self

theorem run_append (setup : Setup β δ) (acts acts' : List (StreamServerAct β δ))
    (server : StreamServer β δ) :
    run setup (acts ++ acts') server = (run setup acts server).bind (run setup acts') := by
  induction acts generalizing server with
  | nil => rfl
  | cons act acts ih =>
      rw [List.cons_append, run, run, Option.bind_assoc]
      exact Option.bind_congr fun x _ => ih x

theorem mem_history_append {acts acts' : List (StreamServerAct β δ)} {x : StreamServer β δ}
    (hrun : run setup acts server = some server')
    (hx : x ∈ history setup acts server ∨ x ∈ history setup acts' server') :
    x ∈ history setup (acts ++ acts') server := by
  induction acts generalizing server with
  | nil =>
      obtain rfl : server = server' := Option.some.inj hrun
      rcases hx with hx | hx
      · rw [List.mem_singleton.mp hx]
        exact mem_history setup acts' server
      · exact hx
  | cons act acts ih =>
      obtain ⟨y, hstep, hrun⟩ := Option.bind_eq_some_iff.mp hrun
      rw [List.cons_append, history, hstep]
      rw [history, hstep] at hx
      rcases hx with hx | hx
      · rcases List.mem_cons.mp hx with rfl | hx
        · exact List.mem_cons_self
        · exact List.mem_cons_of_mem _ (ih hrun (.inl hx))
      · exact List.mem_cons_of_mem _ (ih hrun (.inr hx))

/-- What the engine gives in a part of a run it gives in the whole. -/
theorem GivenAt.append {acts acts' : List (StreamServerAct β δ)} {block : Bytes}
    (hrun : run setup acts server = some server')
    (h : GivenAt setup (history setup acts server) block ∨
      GivenAt setup (history setup acts' server') block) :
    GivenAt setup (history setup (acts ++ acts') server) block := by
  rcases h with ⟨x, hx, hblock⟩ | ⟨x, hx, hblock⟩
  · exact ⟨x, mem_history_append hrun (.inl hx), hblock⟩
  · exact ⟨x, mem_history_append hrun (.inr hx), hblock⟩

/-- What the acts of a run keep is kept by the run. -/
theorem keeps_of_run (p : StreamServer β δ → Prop) {acts : List (StreamServerAct β δ)}
    (hkeeps : ∀ x ∈ history setup acts server, ∀ {act y}, p x → x.step setup act = some y → p y)
    (h : p server) (hrun : StreamServer.run setup acts server = some server') : p server' := by
  induction acts generalizing server with
  | nil => exact Option.some.inj hrun ▸ h
  | cons act acts ih =>
      obtain ⟨x, hstep, hrun⟩ := Option.bind_eq_some_iff.mp hrun
      refine ih (fun y hy => hkeeps y ?_) (hkeeps server List.mem_cons_self h hstep) hrun
      rw [history, hstep]
      exact List.mem_cons_of_mem _ hy

theorem Sound.run {acts : List (StreamServerAct β δ)} (h : Sound source server)
    (hsource : ∀ block, GivenAt setup (history setup acts server) block → source block)
    (hrun : StreamServer.run setup acts server = some server') : Sound source server' :=
  keeps_of_run (Sound source)
    (fun x hx _ _ hsound => hsound.step fun block hblock => hsource block ⟨x, hx, hblock⟩) h hrun

/-- A connection is over its registration, with a sink that no other connection is about to use. -/
structure Expects (server : StreamServer β δ) (number : Nat) (id : ConnectionId) (sink : SinkId) :
    Prop where
  connection : ∃ v, server.connections[number]? = some v ∧ v.id = id ∧ v.point ≠ .arriving
  only : ∀ (m : Nat) (v : StreamConnection) (s : SinkId), server.connections[m]? = some v →
    v.point = .greeting s →
    (m = number ↔ s = sink)
  lt : sink < server.bench.sent.length

variable {number : Nat} {id : ConnectionId} {sink : SinkId} {act : StreamServerAct β δ}

theorem Expects.step (h : server.Expects number id sink)
    (hstep : server.step setup act = some server') : server'.Expects number id sink := by
  obtain ⟨v, hv, hid, harriving⟩ := h.connection
  cases moves_of_step (fun _ _ => trivial) hstep with
  | works hhands honward hgreeting =>
      obtain ⟨v', hv', hid', harriving'⟩ := honward number v hv
      refine ⟨⟨v', hv', hid'.trans hid, harriving' harriving⟩, fun m w s hw hpoint => ?_, ?_⟩
      · exact h.only m w s (hgreeting m w s hw hpoint) hpoint
      · exact hhands.length_sent ▸ h.lt
  | @registers k other hact hother hpoint hbench hconnections =>
      have hk : k ≠ number := by
        rintro rfl
        exact harriving (Option.some.inj (hother.symm.trans hv) ▸ hpoint)
      constructor
      · rw [hconnections, List.getElem?_set_ne hk]
        exact h.connection
      · intro m w s hw hgreeting
        rw [hconnections] at hw
        rcases eq_or_getElem?_of_set hw with ⟨rfl, rfl⟩ | ⟨-, hw⟩
        · cases hgreeting
          exact iff_of_false hk (Nat.ne_of_gt h.lt)
        · exact h.only m w s hw hgreeting
      · rw [hbench, Bench.sent_register, List.length_append]
        exact Nat.lt_add_right _ h.lt
  | @greets k other s hact hother hpoint hbench hconnections =>
      constructor
      · rw [hconnections]
        by_cases hk : k = number
        · subst hk
          obtain rfl : v = other := Option.some.inj (hv.symm.trans hother)
          obtain ⟨hlt, -⟩ := List.getElem?_eq_some_iff.mp hv
          exact ⟨_, List.getElem?_set_self hlt, hid, nofun⟩
        · rw [List.getElem?_set_ne hk]
          exact h.connection
      · intro m w s hw hgreeting
        rw [hconnections] at hw
        rcases eq_or_getElem?_of_set hw with ⟨rfl, rfl⟩ | ⟨-, hw⟩
        · cases hgreeting
        · exact h.only m w s hw hgreeting
      · rw [hbench, Bench.sent_greet, List.length_modify]
        exact h.lt

def Greeting (server : StreamServer β δ) (number : Nat) (sink : SinkId) : Prop :=
  ∃ v, server.connections[number]? = some v ∧ v.point = .greeting sink

/-- Who is about to be greeted after its registration was so before, and has not been greeted. -/
theorem Expects.greeting_of_step (h : server.Expects number id sink)
    (hstep : server.step setup act = some server') (hgreeting : server'.Greeting number sink) :
    server.Greeting number sink ∧ act ≠ .connection number (.greet true) := by
  obtain ⟨v', hv', hpoint'⟩ := hgreeting
  constructor
  · cases moves_of_step (fun _ _ => trivial) hstep with
    | works _ _ hgreeting => exact ⟨v', hgreeting number v' sink hv' hpoint', hpoint'⟩
    | @registers k other _ hother hpoint _ hconnections =>
        rw [hconnections] at hv'
        rcases eq_or_getElem?_of_set hv' with ⟨rfl, rfl⟩ | ⟨-, hv'⟩
        · obtain ⟨v, hv, -, harriving⟩ := h.connection
          exact absurd (Option.some.inj (hother.symm.trans hv) ▸ hpoint) harriving
        · exact ⟨v', hv', hpoint'⟩
    | greets _ _ _ _ hconnections =>
        rw [hconnections] at hv'
        rcases eq_or_getElem?_of_set hv' with ⟨rfl, rfl⟩ | ⟨-, hv'⟩
        · cases hpoint'
        · exact ⟨v', hv', hpoint'⟩
  · rintro rfl
    obtain ⟨v, s, hv, -, -, hconnections⟩ := eq_of_greet hstep
    obtain ⟨hlt, -⟩ := List.getElem?_eq_some_iff.mp hv
    rw [hconnections, List.getElem?_set_self hlt] at hv'
    cases hv'
    cases hpoint'

theorem Expects.run {acts : List (StreamServerAct β δ)} (h : server.Expects number id sink)
    (hrun : StreamServer.run setup acts server = some server') : server'.Expects number id sink :=
  keeps_of_run (fun x => x.Expects number id sink) (fun _ _ _ _ hx => hx.step) h hrun

theorem Expects.greeting_of_run {acts : List (StreamServerAct β δ)}
    (h : server.Expects number id sink)
    (hrun : StreamServer.run setup acts server = some server')
    (hgreeting : server'.Greeting number sink) :
    server.Greeting number sink := by
  induction acts generalizing server with
  | nil => exact Option.some.inj hrun ▸ hgreeting
  | cons act acts ih =>
      obtain ⟨x, hstep, hrun⟩ := Option.bind_eq_some_iff.mp hrun
      exact (h.greeting_of_step hstep (ih (h.step hstep) hrun)).1

/-- A sink waits with its connection: no start has taken it, and nothing was written to it. -/
structure Untouched (server : StreamServer β δ) (id : ConnectionId) (sink : SinkId) : Prop where
  waiting : ∀ e ∈ server.bench.waiting, e.2 = sink → e.1 = id
  taken : ∀ e ∈ server.bench.taken, e.2 ≠ sink
  sent : server.bench.sent[sink]? = some []

/-- A registered connection has a sink that nobody else has. -/
theorem Sound.register {v : StreamConnection} (h : Sound source server)
    (hv : server.connections[number]? = some v)
    (hstep : server.step setup (.connection number .register) = some server') :
    server'.Expects number v.id server.bench.sent.length ∧
      server'.Untouched v.id server.bench.sent.length := by
  obtain ⟨w, hw, -, hbench, hconnections⟩ := eq_of_register hstep
  obtain rfl : v = w := Option.some.inj (hv.symm.trans hw)
  obtain ⟨hlt, -⟩ := List.getElem?_eq_some_iff.mp hv
  constructor
  · constructor
    · rw [hconnections]
      exact ⟨_, List.getElem?_set_self hlt, rfl, nofun⟩
    · intro m w s hw hpoint
      rw [hconnections] at hw
      rcases eq_or_getElem?_of_set hw with ⟨rfl, rfl⟩ | ⟨hm, hw⟩
      · cases hpoint
        exact iff_of_true rfl rfl
      · exact iff_of_false (Ne.symm hm) (Nat.ne_of_lt (h.greeting m w s hw hpoint))
    · rw [hbench, Bench.sent_register, List.length_append]
      exact Nat.lt_succ_self _
  · constructor
    · intro e he hsink
      rw [hbench] at he
      rcases Bench.waiting_register he with rfl | he
      · rfl
      · exact absurd hsink (Nat.ne_of_lt (h.waiting e he))
    · intro e he
      rw [hbench] at he
      exact Nat.ne_of_lt (h.taken e he)
    · rw [hbench, Bench.sent_register, List.getElem?_append_right (Nat.le_refl _), Nat.sub_self]
      rfl

/-- Unless a start takes its sink, a connection keeps it until it is greeted. -/
theorem Untouched.step (h : server.Untouched id sink) (hexpects : server.Expects number id sink)
    (hstep : server.step setup act = some server') (htakes : act.takes? ≠ some id)
    (hact : act ≠ .connection number (.greet true)) : server'.Untouched id sink := by
  cases moves_of_step (fun _ _ => trivial) hstep with
  | works hhands =>
      refine ⟨fun e he hsink => ?_, fun e he hsink => ?_, ?_⟩
      · rcases hhands.waiting e he with he | he
        · exact h.waiting e he hsink
        · exact absurd hsink (h.taken e he)
      · rcases hhands.taken e he with he | ⟨he, htaken⟩
        · exact h.taken e he hsink
        · exact htakes (h.waiting e he hsink ▸ htaken)
      · rcases hhands.sent with hsent | ⟨run, hrun, block, -, hsent⟩
        · rw [hsent]
          exact h.sent
        · rw [hsent, List.getElem?_modify_ne _ _ (h.taken _ (Bench.mem_taken_of_run hrun))]
          exact h.sent
  | @registers k other _ _ _ hbench =>
      refine ⟨fun e he hsink => ?_, fun e he => ?_, ?_⟩
      · rw [hbench] at he
        rcases Bench.waiting_register he with rfl | he
        · exact absurd hsink (Nat.ne_of_gt hexpects.lt)
        · exact h.waiting e he hsink
      · rw [hbench] at he
        exact h.taken e he
      · rw [hbench, Bench.sent_register, List.getElem?_append_left hexpects.lt]
        exact h.sent
  | @greets k other s hgreets hother hpoint hbench =>
      refine ⟨fun e he hsink => ?_, fun e he => ?_, ?_⟩
      · rw [hbench] at he
        exact h.waiting e he hsink
      · rw [hbench] at he
        exact h.taken e he
      · have hs : s ≠ sink := by
          intro hs
          obtain rfl := (hexpects.only k other s hother hpoint).mpr hs
          exact hact hgreets
        rw [hbench, Bench.sent_greet, List.getElem?_modify_ne _ _ hs]
        exact h.sent

theorem Untouched.run {acts : List (StreamServerAct β δ)} (h : server.Untouched id sink)
    (hexpects : server.Expects number id sink)
    (hrun : StreamServer.run setup acts server = some server')
    (htakes : ∀ act ∈ acts, act.takes? ≠ some id) (hgreeting : server'.Greeting number sink) :
    server'.Untouched id sink := by
  induction acts generalizing server with
  | nil => exact Option.some.inj hrun ▸ h
  | cons act acts ih =>
      obtain ⟨x, hstep, hrun⟩ := Option.bind_eq_some_iff.mp hrun
      have hexpects' := hexpects.step hstep
      obtain ⟨-, hact⟩ :=
        hexpects.greeting_of_step hstep (hexpects'.greeting_of_run hrun hgreeting)
      exact ih (h.step hexpects hstep (htakes act List.mem_cons_self) hact) hexpects' hrun
        fun act hmem => htakes act (List.mem_cons_of_mem _ hmem)

/-- A connection was greeted before anything else was written to its sink, and only blocks of the
source were since. -/
structure Greeted (source : Bytes → Prop) (server : StreamServer β δ) (id : ConnectionId)
    (sink : SinkId) : Prop where
  sent : ∃ blocks, server.bench.sent[sink]? = some (id.helloBytes :: blocks) ∧
    ∀ block ∈ blocks, source block
  only : ∀ (m : Nat) (v : StreamConnection), server.connections[m]? = some v →
    v.point ≠ .greeting sink

theorem Greeted.step (h : Greeted source server id sink) (hsound : Sound source server)
    (hsource : ∀ block, setup.dma.Gives server.bench.instrument.dma block → source block)
    (hstep : server.step setup act = some server') : Greeted source server' id sink := by
  obtain ⟨blocks, hsent, hblocks⟩ := h.sent
  cases moves_of_step hsource hstep with
  | works hhands _ hgreeting =>
      refine ⟨?_, fun m v hv hpoint => h.only m v (hgreeting m v sink hv hpoint) hpoint⟩
      rcases hhands.sent with hsame | ⟨run, hrun, block, hlogger, hwritten⟩
      · exact ⟨blocks, hsame ▸ hsent, hblocks⟩
      · by_cases hsink : run.sink = sink
        · refine ⟨blocks ++ [block], ?_, fun other hother => ?_⟩
          · rw [hwritten, hsink, List.getElem?_modify_eq, hsent]
            rfl
          · rcases List.mem_append.mp hother with hother | hother
            · exact hblocks other hother
            · rw [List.mem_singleton.mp hother]
              exact (hsound.supplied run hrun).gives hlogger
        · exact ⟨blocks, by rw [hwritten, List.getElem?_modify_ne _ _ hsink, hsent], hblocks⟩
  | registers _ _ _ hbench hconnections =>
      obtain ⟨hlt, -⟩ := List.getElem?_eq_some_iff.mp hsent
      refine ⟨⟨blocks, ?_, hblocks⟩, fun m v hv hpoint => ?_⟩
      · rw [hbench, Bench.sent_register, List.getElem?_append_left hlt, hsent]
      · rw [hconnections] at hv
        rcases eq_or_getElem?_of_set hv with ⟨-, rfl⟩ | ⟨-, hv⟩
        · cases hpoint
          exact Nat.lt_irrefl _ hlt
        · exact h.only m v hv hpoint
  | @greets k other s _ hother hpoint' hbench hconnections =>
      refine ⟨⟨blocks, ?_, hblocks⟩, fun m v hv hpoint => ?_⟩
      · have hs : s ≠ sink := by
          rintro rfl
          exact h.only k other hother hpoint'
        rw [hbench, Bench.sent_greet, List.getElem?_modify_ne _ _ hs, hsent]
      · rw [hconnections] at hv
        rcases eq_or_getElem?_of_set hv with ⟨-, rfl⟩ | ⟨-, hv⟩
        · cases hpoint
        · exact h.only m v hv hpoint

theorem Greeted.run {acts : List (StreamServerAct β δ)} (h : Greeted source server id sink)
    (hsound : Sound source server)
    (hsource : ∀ block, GivenAt setup (history setup acts server) block → source block)
    (hrun : StreamServer.run setup acts server = some server') :
    Greeted source server' id sink := by
  refine (keeps_of_run (fun x => Sound source x ∧ Greeted source x id sink) ?_ ⟨hsound, h⟩ hrun).2
  intro x hx act y hboth hstep
  have hgives := fun block hblock => hsource block ⟨x, hx, hblock⟩
  exact ⟨hboth.1.step hgives hstep, hboth.2.step hboth.1 hgives hstep⟩

theorem Untouched.greet (h : server.Untouched id sink) (hexpects : server.Expects number id sink)
    (hstep : server.step setup (.connection number (.greet true)) = some server') :
    Greeted source server' id sink := by
  obtain ⟨v, s, hv, hpoint, hbench, hconnections⟩ := eq_of_greet hstep
  obtain rfl := (hexpects.only number v s hv hpoint).mp rfl
  obtain ⟨w, hw, rfl, -⟩ := hexpects.connection
  obtain rfl : v = w := Option.some.inj (hv.symm.trans hw)
  refine ⟨⟨[], ?_, nofun⟩, fun m w hw hgreeting => ?_⟩
  · rw [hbench, Bench.sent_greet, List.getElem?_modify_eq, h.sent]
    rfl
  · rw [hconnections] at hw
    rcases eq_or_getElem?_of_set hw with ⟨-, rfl⟩ | ⟨hm, hw⟩
    · cases hgreeting
    · exact hm ((hexpects.only m w s hw hgreeting).mpr rfl).symm

/-- A connection whose sink no start takes between its registration and its greeting gets the
greeting first, and after it only blocks that the engine gave at moments of the run. -/
theorem greeted_first {board : β} {dma : δ} {past between future : List (StreamServerAct β δ)}
    {x : StreamServer β δ} {v : StreamConnection}
    (hpast : run setup past (fresh board dma) = some x) (hv : x.connections[number]? = some v)
    (hrun : run setup
      (.connection number .register :: between ++ .connection number (.greet true) :: future) x =
        some server)
    (htakes : ∀ act ∈ between, act.takes? ≠ some v.id) :
    ∃ blocks, server.bench.sent[x.bench.sent.length]? = some (v.id.helloBytes :: blocks) ∧
      ∀ block ∈ blocks, GivenAt setup (history setup (past ++
          (.connection number .register :: between ++ .connection number (.greet true) :: future))
          (fresh board dma)) block := by
  have hunsourced : Sound (fun _ => True) x :=
    (sound_fresh _ board dma).run (fun _ _ => trivial) hpast
  obtain ⟨y, hregister, hrun⟩ := Option.bind_eq_some_iff.mp hrun
  obtain ⟨z, hbetween, hrun⟩ := Option.bind_eq_some_iff.mp (run_append .. ▸ hrun)
  obtain ⟨w, hgreet, hfuture⟩ := Option.bind_eq_some_iff.mp hrun
  obtain ⟨hexpects, huntouched⟩ := hunsourced.register hv hregister
  have hexpects' := hexpects.run hbetween
  -- The connection is about to be greeted at last, so it was not greeted in between.
  obtain ⟨v', s, hv', hpoint, -⟩ := eq_of_greet hgreet
  obtain rfl := (hexpects'.only number v' s hv' hpoint).mp rfl
  have huntouched' := huntouched.run hexpects hbetween htakes ⟨v', hv', hpoint⟩
  -- Up to the greeting and from then on, all moments are moments of the whole run.
  let greeted := past ++
    (.connection number .register :: between ++ [.connection number (.greet true)])
  have hgreeted : run setup greeted (fresh board dma) = some w := by
    rw [run_append, hpast, Option.bind_some, List.cons_append, run, hregister, Option.bind_some,
      run_append, hbetween, Option.bind_some, run, hgreet]
    rfl
  have hwhole : past ++
      (.connection number .register :: between ++ .connection number (.greet true) :: future) =
        greeted ++ future := by
    rw [List.append_assoc, List.append_assoc]
    rfl
  have hsound : Sound (GivenAt setup (history setup (greeted ++ future) (fresh board dma))) w :=
    (sound_fresh _ board dma).run (fun _ hblock => .append hgreeted (.inl hblock)) hgreeted
  rw [hwhole]
  exact ((huntouched'.greet hexpects' hgreet).run hsound
    (fun _ hblock => .append hgreeted (.inr hblock)) hfuture).sent

/-- A session of the first connection up to where its first block is sent. -/
def firstBlock (number : Nat) : List (StreamServerAct SimulatedBoard SimulatedDma) :=
  (List.flatten [
    Bench.starting number ⟨1⟩
      [.arriving, .claiming, .taking, .joining 0, .configuring 0, .igniting 0, .spawning 0],
    [.launching, .checking, .querying, .waiting, .checking, .querying, .offering [0], .claiming [0],
      .filling [0], .publishing [0]].map (.worker 0),
    [.checking, .taking, .copying, .sending [0, 0, 0, 0]].map (.logger 0)]).map .bench

def strayStart : List (StreamServerAct SimulatedBoard SimulatedDma) :=
  (Bench.starting 0 ⟨2⟩
    [.arriving, .claiming, .taking, .yielding (.notConnected ⟨2⟩)]).map .bench

theorem greeted_after_stray_start :
    ∃ x server, run Instrument.smallSetup [.arrive ⟨1⟩ none] (fresh .powerOn .powerOn) = some x ∧
      run Instrument.smallSetup
        (.connection 0 .register :: strayStart ++ .connection 0 (.greet true) :: firstBlock 1) x =
          some server ∧
      server.bench.sent = [[[1, 0, 0, 128], [0, 0, 0, 0]]] ∧
      ∃ blocks, server.bench.sent[0]? = some ((ConnectionId.mk 1).helloBytes :: blocks) ∧
        ∀ block ∈ blocks, GivenAt Instrument.smallSetup
          (history Instrument.smallSetup ([.arrive ⟨1⟩ none] ++
            (.connection 0 .register :: strayStart ++ .connection 0 (.greet true) :: firstBlock 1))
            (fresh .powerOn .powerOn)) block := by
  obtain ⟨x, server, hpast, hrun, hv, hsinks, hsent⟩ :
      ∃ x server, run Instrument.smallSetup [.arrive ⟨1⟩ none] (fresh .powerOn .powerOn) = some x ∧
        run Instrument.smallSetup
          (.connection 0 .register :: strayStart ++ .connection 0 (.greet true) :: firstBlock 1) x =
            some server ∧
        x.connections[0]? = some ⟨⟨1⟩, none, .arriving⟩ ∧ x.bench.sent.length = 0 ∧
        server.bench.sent = [[[1, 0, 0, 128], [0, 0, 0, 0]]] :=
    ⟨_, _, rfl, rfl, rfl, rfl, by decide +kernel⟩
  have hgreeted := greeted_first hpast hv hrun (by decide)
  rw [hsinks] at hgreeted
  exact ⟨x, server, hpast, hrun, hsent, hgreeted⟩

/-- A start that names a connection before it is greeted gets a block out first. -/
theorem block_before_greeting :
    ∃ server, run Instrument.smallSetup
        (.arrive ⟨1⟩ none :: .connection 0 .register :: firstBlock 0 ++
          [.connection 0 (.greet true)])
        (fresh .powerOn .powerOn) = some server ∧
      server.bench.sent = [[[0, 0, 0, 0], (ConnectionId.mk 1).helloBytes]] := by
  refine ⟨_, rfl, ?_⟩
  decide +kernel

end StreamServer

end DaqServer
