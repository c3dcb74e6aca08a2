import DaqServer.Proofs.Stream.Bench
import DaqServer.Proofs.Stream.Session

/-!
# Sessions exclude each other

`Sound` says of a bench after some acts that the arbiter names whoever claims the ADC, that there is
one claim at most, and that every run has passed its teardown as far as its worker says. Every act
keeps it. Main statement: among any calls and threads there is one session at a time, a start that
competes with it is refused in its name, and no start comes to the engine before the teardown of all
earlier sessions is over.
-/

namespace DaqServer

variable {β δ : Type} {setup : Setup β δ} {acts : List (Act β δ)} {act : Act β δ} {b b' : Bench β δ}

namespace Bench

/-- What is true of a bench after acts on a fresh one. -/
structure Sound (acts : List (Act β δ)) (b : Bench β δ) : Prop where
  holders_eq : b.holders = b.instrument.arbiter.streamingOwner.toList
  ordered : ∀ run ∈ b.runs, run.Ordered
  torn : ∀ n, acts.flatMap (Act.torn n) = ((b.runs[n]?).map fun run => run.worker.tornDown).getD []
  spawned : acts.countP Act.spawns = b.runs.length

theorem sound_fresh (board : β) (dma : δ) : Sound [] (fresh board dma) where
  holders_eq := rfl
  ordered := nofun
  torn _ := rfl
  spawned := rfl

/-- A claim that stands among the claims is the only one. -/
theorem eq_of_claims {before after : List ConnectionId} {id : ConnectionId}
    {owner : Option ConnectionId} (h : before ++ id :: after = owner.toList) :
    before = [] ∧ after = [] ∧ owner = some id := by
  cases owner with
  | none => simp at h
  | some other =>
      obtain ⟨rfl, rfl, rfl⟩ | ⟨-, h⟩ := List.append_eq_singleton_iff.mp h
      all_goals simp_all

theorem owner_of_streamingOwner {a : Arbiter} {id : ConnectionId}
    (h : a.streamingOwner = some id) : a = ⟨some (.stream id)⟩ := by
  obtain ⟨_ | _ | other⟩ := a
  · exact absurd h nofun
  · exact absurd h nofun
  · obtain rfl := Option.some.inj h
    rfl

theorem filterMap_around {α : Type} (f : α → Option ConnectionId) (before : List α) (a : α)
    (after : List α) :
    (before ++ a :: after).filterMap f =
      before.filterMap f ++ (f a).toList ++ after.filterMap f := by
  rw [List.filterMap_append, List.append_assoc]
  cases h : f a with
  | none => rw [List.filterMap_cons_none h]; rfl
  | some id => rw [List.filterMap_cons_some h]; rfl

/-- A claim that is given up was the only one, and nobody had one when it was got. -/
theorem claims_of_claimStep {before after : List ConnectionId} {a a' : Arbiter}
    {claim claim' : Option ConnectionId} (h : ClaimStep a a' claim claim')
    (ha : before ++ claim.toList ++ after = a.streamingOwner.toList) :
    before ++ claim'.toList ++ after = a'.streamingOwner.toList := by
  cases h with
  | same harbiter => rw [harbiter, ha]
  | gain hfree harbiter =>
      obtain ⟨_⟩ := a
      subst hfree harbiter
      obtain ⟨hbefore, rfl⟩ := List.append_eq_nil_iff.mp ha
      obtain ⟨rfl, -⟩ := List.append_eq_nil_iff.mp hbefore
      rfl
  | give harbiter =>
      obtain ⟨rfl, rfl, howner⟩ := eq_of_claims ((List.append_assoc _ _ _).symm.trans ha)
      rw [harbiter, owner_of_streamingOwner howner, Arbiter.releaseStream_stream]
      rfl

/-- The claims stay with whom the arbiter names. -/
theorem Moves.holders_eq (h : Moves act b b')
    (hb : b.holders = b.instrument.arbiter.streamingOwner.toList) :
    b'.holders = b'.instrument.arbiter.streamingOwner.toList := by
  rw [holders] at hb ⊢
  cases h with
  | run hrun hruns hmoves _ _ _ hcalls =>
      obtain ⟨before, after, hsplit, hset⟩ := exists_set_eq hrun
      rw [hsplit, filterMap_around, List.append_assoc] at hb
      rw [hruns, hset, hcalls, filterMap_around, List.append_assoc]
      exact claims_of_claimStep hmoves.claimStep hb
  | call hcall hcalls hruns hclaim =>
      obtain ⟨before, after, hsplit, hset⟩ := exists_set_eq hcall
      rw [hsplit, filterMap_around, ← List.append_assoc, ← List.append_assoc] at hb
      rw [hruns, hcalls, hset, filterMap_around, ← List.append_assoc, ← List.append_assoc]
      exact claims_of_claimStep hclaim hb
  | @spawn number id sink ring _ hcall hcalls hruns harbiter =>
      obtain ⟨before, after, hsplit, hset⟩ := exists_set_eq hcall
      rw [hsplit, filterMap_around, ← List.append_assoc, ← List.append_assoc,
        List.append_assoc] at hb
      -- The start has the only claim; it goes from the calls to the runs.
      obtain ⟨hbefore, hafter, howner⟩ := eq_of_claims hb
      obtain ⟨hold, hbefore⟩ := List.append_eq_nil_iff.mp hbefore
      replace hafter : after.filterMap Call.claim? = [] := hafter
      rw [hruns, hcalls, hset, filterMap_around, filterMap_around, hold, hbefore, hafter, harbiter,
        howner]
      rfl
  | other hruns hcalls howner => rw [hruns, hcalls, howner, hb]

theorem Moves.ordered (h : Moves act b b') (hb : ∀ run ∈ b.runs, run.Ordered) :
    ∀ run ∈ b'.runs, run.Ordered := by
  cases h with
  | run hrun hruns hmoves =>
      intro run hmem
      rw [hruns] at hmem
      rcases List.mem_or_eq_of_mem_set hmem with hmem | rfl
      · exact hb run hmem
      · exact hmoves.ordered (hb _ (List.mem_of_getElem? hrun))
  | call _ _ hruns => exact hruns ▸ hb
  | spawn _ _ _ hruns =>
      intro run hmem
      rw [hruns, List.mem_append, List.mem_singleton] at hmem
      rcases hmem with hmem | rfl
      · exact hb run hmem
      · exact fun hjoining => absurd hjoining nofun
  | other hruns => exact hruns ▸ hb

theorem Moves.torn (h : Moves act b b') (n : Nat) :
    ((b'.runs[n]?).map fun run => run.worker.tornDown).getD [] =
      ((b.runs[n]?).map fun run => run.worker.tornDown).getD [] ++ act.torn n := by
  cases h with
  | @run number run run' torn hrun hruns hmoves htorn =>
      rw [hruns, htorn, List.getElem?_set]
      by_cases hn : number = n
      · subst hn
        obtain ⟨hlt, -⟩ := List.getElem?_eq_some_iff.mp hrun
        rw [if_pos rfl, if_pos hlt, if_pos rfl, hrun, Option.map_some, Option.map_some,
          Option.getD_some, Option.getD_some, hmoves.tornDown]
      · rw [if_neg hn, if_neg (Ne.symm hn), List.append_nil]
  | call _ _ hruns _ htorn => rw [hruns, htorn, List.append_nil]
  | spawn hact _ _ hruns =>
      subst hact
      rw [hruns, List.getElem?_append]
      split
      · exact (List.append_nil _).symm
      · rename_i hge
        have hnone : b.runs[n]? = none := List.getElem?_eq_none (Nat.le_of_not_lt hge)
        rw [hnone]
        rcases n - b.runs.length with _ | k <;> rfl
  | other hruns _ _ htorn => rw [hruns, htorn, List.append_nil]

theorem Moves.length_runs (h : Moves act b b') :
    b'.runs.length = b.runs.length + if act.spawns then 1 else 0 := by
  cases h with
  | run _ hruns _ _ _ hspawns => rw [hruns, List.length_set, hspawns]; rfl
  | call _ _ hruns _ _ _ hspawns => rw [hruns, hspawns]; rfl
  | spawn hact _ _ hruns => subst hact; rw [hruns, List.length_append]; rfl
  | other hruns _ _ _ _ hspawns => rw [hruns, hspawns]; rfl

theorem Sound.step (h : Sound acts b) (hstep : b.step setup act = some b') :
    Sound (acts ++ [act]) b' where
  holders_eq := (moves_of_step h.ordered hstep).holders_eq h.holders_eq
  ordered := (moves_of_step h.ordered hstep).ordered h.ordered
  torn n := by
    rw [List.flatMap_append, h.torn, List.flatMap_singleton, (moves_of_step h.ordered hstep).torn]
  spawned := by
    rw [List.countP_append, h.spawned, List.countP_singleton,
      (moves_of_step h.ordered hstep).length_runs]

theorem run_append (setup : Setup β δ) (acts acts' : List (Act β δ)) (b : Bench β δ) :
    run setup (acts ++ acts') b = (run setup acts b).bind (run setup acts') := by
  induction acts generalizing b with
  | nil => rfl
  | cons act acts ih =>
      rw [List.cons_append, run, run, Option.bind_assoc]
      exact Option.bind_congr fun x _ => ih x

theorem Sound.run {acts' : List (Act β δ)} (h : Sound acts b) (hrun : run setup acts' b = some b') :
    Sound (acts ++ acts') b' := by
  induction acts' generalizing acts b with
  | nil =>
      obtain rfl := Option.some.inj hrun
      rwa [List.append_nil]
  | cons act acts' ih =>
      obtain ⟨x, hstep, hrun⟩ := Option.bind_eq_some_iff.mp hrun
      have hsound := ih (h.step hstep) hrun
      rwa [List.append_assoc] at hsound

/-- Someone with a claim finds all sessions over. -/
theorem Sound.isFinished_of_claim (h : Sound acts b) {number : Nat} {call : Call}
    {id : ConnectionId} (hcall : b.calls[number]? = some call) (hclaim : call.claim? = some id) :
    ∀ run ∈ b.runs, run.isFinished := by
  obtain ⟨before, after, hsplit, -⟩ := exists_set_eq hcall
  have hholders := h.holders_eq
  rw [holders, hsplit, filterMap_around, hclaim, ← List.append_assoc, ← List.append_assoc,
    List.append_assoc] at hholders
  obtain ⟨hnone, -⟩ := eq_of_claims hholders
  obtain ⟨hnone, -⟩ := List.append_eq_nil_iff.mp hnone
  intro run hmem
  have hrun := List.filterMap_eq_nil_iff.mp hnone run hmem
  rw [Run.claim?] at hrun
  split at hrun
  · assumption
  · cases hrun

/-- Someone with a claim finds the teardown of all sessions passed. -/
theorem Sound.flatMap_torn (h : Sound acts b) {number : Nat} {call : Call} {id : ConnectionId}
    (hcall : b.calls[number]? = some call) (hclaim : call.claim? = some id) {session : Nat}
    (hsession : session < acts.countP Act.spawns) :
    acts.flatMap (Act.torn session) = WorkerPoint.teardown := by
  rw [h.spawned] at hsession
  have hfinished := h.isFinished_of_claim hcall hclaim _ (List.getElem_mem hsession)
  rw [h.torn, List.getElem?_eq_getElem hsession, Option.map_some, Option.getD_some,
    beq_iff_eq.mp hfinished]
  rfl

/-- A session that is over stays so, and its threads take no part in what follows. -/
theorem Moves.isFinished (h : Moves act b b') {n : Nat}
    (hn : ∀ run ∈ b.runs[n]?, run.isFinished) (hlt : n < b.runs.length) :
    act.run? ≠ some n ∧ ∀ run ∈ b'.runs[n]?, run.isFinished := by
  cases h with
  | @run number run run' torn hrun hruns hmoves _ hacts =>
      rw [hruns, List.getElem?_set]
      by_cases hnumber : number = n
      · subst hnumber
        have hfinished := hn run hrun
        -- A thread only acts in a run that is not over.
        refine ⟨fun hact => ?_, ?_⟩
        · rw [(hacts number hact).2] at hfinished
          exact absurd hfinished nofun
        · rw [if_pos rfl, if_pos hlt]
          rintro _ ⟨⟩
          rw [hmoves.finished, hfinished, Bool.true_or]
      · rw [if_neg hnumber]
        exact ⟨fun hact => hnumber (hacts n hact).1.symm, hn⟩
  | call _ _ hruns _ _ hacts => exact ⟨by rw [hacts]; exact nofun, hruns ▸ hn⟩
  | spawn hact _ _ hruns =>
      subst hact
      refine ⟨nofun, ?_⟩
      rw [hruns, List.getElem?_append_left hlt]
      exact hn
  | other hruns _ _ _ hacts => exact ⟨by rw [hacts]; exact nofun, hruns ▸ hn⟩

theorem Sound.not_acts_of_isFinished {acts' : List (Act β δ)} (h : Sound acts b) {n : Nat}
    (hn : ∀ run ∈ b.runs[n]?, run.isFinished) (hlt : n < b.runs.length)
    (hrun : Bench.run setup acts' b = some b') : ∀ act ∈ acts', act.run? ≠ some n := by
  induction acts' generalizing acts b with
  | nil => exact nofun
  | cons act acts' ih =>
      obtain ⟨x, hstep, hrun⟩ := Option.bind_eq_some_iff.mp hrun
      have hmoves := moves_of_step h.ordered hstep
      obtain ⟨hact, hx⟩ := hmoves.isFinished hn hlt
      have hlength : n < x.runs.length := by
        rw [hmoves.length_runs]
        omega
      intro act' hmem
      rcases List.mem_cons.mp hmem with rfl | hmem
      · exact hact
      · exact ih (h.step hstep) hx hlength hrun act' hmem

/-- Sessions are singletons and never overlap, whatever the order in which calls, threads and the
hardware take their steps. The ADC has one claim at most, and the arbiter names it. A start that
comes to claim the ADC while it is claimed is refused in the name of the claim, with no other
effect. When a start comes to set up the engine, every session that was begun before has passed its
whole teardown, in order, and its threads do nothing afterwards. -/
theorem sessions_exclusive {board : β} {dma : δ} (h : run setup acts (fresh board dma) = some b) :
    b.holders = b.instrument.arbiter.streamingOwner.toList ∧
    (∀ number id active, b.calls[number]? = some (.start id .claiming) → active ∈ b.holders →
      b.step setup (.caller number (.start id .claiming)) =
        some { b with
          calls := b.calls.set number (.start id (.returned (some (.streamBusy active)))) }) ∧
    ∀ past number id sink future,
      acts = past ++ .caller number (.start id (.configuring sink)) :: future →
      ∀ session < past.countP Act.spawns,
        past.flatMap (Act.torn session) = WorkerPoint.teardown ∧
        ∀ act ∈ future, act.run? ≠ some session := by
  have hsound : Sound acts b := (sound_fresh board dma).run h
  refine ⟨hsound.holders_eq, fun number id active hcall hactive => ?_, ?_⟩
  · rw [hsound.holders_eq, Option.mem_toList] at hactive
    have hbusy : b.instrument.arbiter.claimStream id = .error (.streamBusy active) := by
      rw [owner_of_streamingOwner hactive]
      rfl
    rw [Bench.step, if_pos hcall, Call.step, StartPoint.step, hbusy]
    rfl
  · rintro past number id sink future rfl session hsession
    rw [run_append] at h
    obtain ⟨x, hpast, h⟩ := Option.bind_eq_some_iff.mp h
    obtain ⟨y, hstep, hfuture⟩ := Option.bind_eq_some_iff.mp h
    have hx : Sound past x := (sound_fresh board dma).run hpast
    -- A start at this point has a claim, so that no earlier run is left with one.
    have hcall : x.calls[number]? = some (.start id (.configuring sink)) :=
      getElem?_of_caller hstep
    refine ⟨hx.flatMap_torn hcall rfl hsession, fun act hmem => ?_⟩
    have hover : ∀ run ∈ x.runs[session]?, run.isFinished := fun run hrun =>
      hx.isFinished_of_claim hcall rfl run (List.mem_of_getElem? hrun)
    rw [hx.spawned] at hsession
    exact hx.not_acts_of_isFinished hover hsession h act (List.mem_cons_of_mem _ hmem)

/-! ### What a teardown does -/

end Bench

/-- What the hardware and the sinks are like after a worker has passed a point of its teardown. The
trigger of the board is disabled, the engine is stopped, and then the sink is closed if there was a
logger that sent to it; nothing else is done to them. -/
structure Run.TornAt (setup : Setup β δ) (run : Run) (point : WorkerPoint) (x y : Instrument β δ) :
    Prop where
  board : y.board = if point = .idling then
    (setup.port.write Register.trigger Trigger.disabled x.board).2 else x.board
  dma : y.dma = if point = .stopping then (setup.dma.stop x.dma).2 else x.dma
  sinks : y.session.sinks = if point = .closing ∧ run.logger.isSome then
    x.session.sinks.modify run.sink Sink.close else x.session.sinks

theorem Run.tornAt_of_workerStep {run : Run} {x y : Instrument β δ}
    (h : run.workerStep setup x = some y) (hpoint : run.worker ∈ WorkerPoint.teardown) :
    run.TornAt setup run.worker x y := by
  obtain ⟨connection, sink, flags, ring, worker, logger⟩ := run
  cases worker with
  | ending | idling | stopping | yielding =>
      obtain rfl := Option.some.inj h
      exact ⟨rfl, rfl, rfl⟩
  | joining =>
      simp only [workerStep] at h
      split at h <;> cases h <;> exact ⟨rfl, rfl, rfl⟩
  | closing =>
      obtain rfl := Option.some.inj h
      cases logger <;> exact ⟨rfl, rfl, rfl⟩
  | _ => exact absurd hpoint (by simp [WorkerPoint.teardown])

namespace Bench

theorem tornAt_of_step {number : Nat} {point : WorkerPoint}
    (hpoint : point ∈ WorkerPoint.teardown) (h : b.step setup (.worker number point) = some b') :
    ∃ run, b.runs[number]? = some run ∧ run.TornAt setup point b.instrument b'.instrument := by
  rw [step] at h
  obtain ⟨run, y, hrun, hy, -, hinstrument, -⟩ := onRun_cases h
  split at hy
  · rename_i hworker
    subst hworker
    obtain ⟨hboard, hdma, hsinks⟩ := Run.tornAt_of_workerStep hy hpoint
    rw [hinstrument]
    exact ⟨run, hrun, hboard, hdma, hsinks⟩
  · cases hy

/-- Before a start sets up the engine, every earlier session has passed each point of its teardown
at some moment, with what that does to board, engine and sink. -/
theorem torn_before_configuring {board : β} {dma : δ} {past future : List (Act β δ)} {number : Nat}
    {id : ConnectionId} {sink : SinkId}
    (h : run setup (past ++ .caller number (.start id (.configuring sink)) :: future)
      (fresh board dma) = some b) {session : Nat} (hsession : session < past.countP Act.spawns)
    {point : WorkerPoint} (hpoint : point ∈ WorkerPoint.teardown) :
    ∃ before after x y run,
      past = before ++ .worker session point :: after ∧
      Bench.run setup before (fresh board dma) = some x ∧
      x.step setup (.worker session point) = some y ∧
      x.runs[session]? = some run ∧ run.TornAt setup point x.instrument y.instrument := by
  rw [run_append] at h
  obtain ⟨z, hpast, h⟩ := Option.bind_eq_some_iff.mp h
  obtain ⟨w, hstep, -⟩ := Option.bind_eq_some_iff.mp h
  have htorn := ((sound_fresh board dma).run hpast).flatMap_torn (getElem?_of_caller hstep) rfl
    hsession
  obtain ⟨act, hact, hpasses⟩ := List.mem_flatMap.mp (htorn.symm ▸ hpoint)
  obtain rfl : act = .worker session point := Act.eq_of_mem_torn hpasses
  obtain ⟨before, after, rfl⟩ := List.append_of_mem hact
  rw [run_append] at hpast
  obtain ⟨x, hbefore, hpast⟩ := Option.bind_eq_some_iff.mp hpast
  obtain ⟨y, hstep, -⟩ := Option.bind_eq_some_iff.mp hpast
  obtain ⟨run, hrun, htornAt⟩ := tornAt_of_step hpoint hstep
  exact ⟨before, after, x, y, run, rfl, hbefore, hstep, hrun, htornAt⟩

/-! ### One session after another -/

def starting (number : Nat) (id : ConnectionId) (points : List StartPoint) : List (Act β δ) :=
  .call (.start id .arriving) :: points.map fun point => .caller number (.start id point)

/-- A first session, a start that it keeps out, a stop of the session, its end, and a second start
up to the engine. -/
def oneAfterAnother : List (Act SimulatedBoard SimulatedDma) :=
  List.flatten [
    [.register ⟨1⟩ (.fresh none), .register ⟨2⟩ (.fresh none)],
    starting 0 ⟨1⟩
      [.arriving, .claiming, .taking, .joining 0, .configuring 0, .igniting 0, .spawning 0],
    starting 1 ⟨2⟩ [.arriving, .claiming],
    [.call (.stop .arriving), .caller 2 (.stop .arriving), .caller 2 (.stop .looking),
      .caller 2 (.stop (.flagging true)), .caller 2 (.stop (.cancelling true))],
    [.worker 0 .launching, .worker 0 .checking, .worker 0 .ending, .logger 0 .checking],
    [.joining, .idling, .stopping, .closing, .yielding].map (.worker 0),
    starting 3 ⟨2⟩ [.arriving, .claiming, .taking, .joining 1]]

theorem teardown_before_second_session :
    ∃ b, run Instrument.smallSetup
        (oneAfterAnother ++ [.caller 3 (.start ⟨2⟩ (.configuring 1))]) (fresh .powerOn .powerOn) =
          some b ∧
      b.calls[1]? = some (.start ⟨2⟩ (.returned (some (.streamBusy ⟨1⟩)))) ∧
      b.instrument.arbiter.streamingOwner = some ⟨2⟩ ∧ b.holders.length = 1 ∧
      oneAfterAnother.flatMap (Act.torn 0) = WorkerPoint.teardown := by
  have hrun : (run Instrument.smallSetup
      (oneAfterAnother ++ [.caller 3 (.start ⟨2⟩ (.configuring 1))]) (fresh .powerOn .powerOn)).any
        (fun b => b.calls[1]? = some (.start ⟨2⟩ (.returned (some (.streamBusy ⟨1⟩)))) ∧
          b.instrument.arbiter.streamingOwner = some ⟨2⟩) := by decide +kernel
  obtain ⟨b, hb, hstate⟩ := (Option.any_eq_true _ _).mp hrun
  obtain ⟨hrefused, howner⟩ := of_decide_eq_true hstate
  obtain ⟨hholders, -, hteardown⟩ := sessions_exclusive hb
  refine ⟨b, hb, hrefused, howner, by rw [hholders, howner]; rfl, ?_⟩
  exact (hteardown oneAfterAnother 3 ⟨2⟩ 1 [] rfl 0 (by decide)).1

end Bench

end DaqServer
