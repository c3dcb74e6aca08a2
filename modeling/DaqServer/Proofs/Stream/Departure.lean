import DaqServer.Proofs.Stream.Exclusion

/-!
# Departure of a streaming connection

A connection that is detached stops the session if the session is its own. It looks whether it is
before it takes the lock for the stop, so that the session may end and another begin in between.
Main statements: if no session begins between the look and the stop, the stop meets no session but
that of the connection; otherwise it can meet another.
-/

namespace DaqServer

namespace Bench

variable {β δ : Type} {setup : Setup β δ} {act : Act β δ} {b b' x : Bench β δ} {id : ConnectionId}

def OnlyOf (b : Bench β δ) (id : ConnectionId) : Prop :=
  ∀ run ∈ b.runs, run.isFinished = false → run.connection = id

theorem Sound.onlyOf {acts : List (Act β δ)} (h : Sound acts b)
    (howner : b.instrument.arbiter.streamingOwner = some id) : b.OnlyOf id := by
  intro run hmem hunfinished
  have hholder := mem_holders_of_run hmem hunfinished
  rw [h.holders_eq, howner] at hholder
  exact List.mem_singleton.mp hholder

theorem OnlyOf.of_moves (hb : b.OnlyOf id) (h : Moves act b b') (hspawns : act.spawns = false) :
    b'.OnlyOf id := by
  cases h with
  | run hrun hruns hmoves =>
      intro run hmem hunfinished
      rw [hruns] at hmem
      rcases List.mem_or_eq_of_mem_set hmem with hmem | rfl
      · exact hb run hmem hunfinished
      · rw [hmoves.finished, Bool.or_eq_false_iff] at hunfinished
        rw [hmoves.connection]
        exact hb _ (List.mem_of_getElem? hrun) hunfinished.1
  | call _ _ hruns => rwa [OnlyOf, hruns]
  | spawn hact =>
      subst hact
      exact absurd hspawns nofun
  | other hruns => rwa [OnlyOf, hruns]

theorem OnlyOf.run {acts acts' : List (Act β δ)} (hb : b.OnlyOf id) (h : Sound acts b)
    (hspawns : ∀ act ∈ acts', act.spawns = false) (hrun : Bench.run setup acts' b = some b') :
    b'.OnlyOf id := by
  induction acts' generalizing acts b with
  | nil => exact Option.some.inj hrun ▸ hb
  | cons act acts' ih =>
      obtain ⟨x, hstep, hrun⟩ := Option.bind_eq_some_iff.mp hrun
      exact ih (hb.of_moves (moves_of_step h.ordered hstep) (hspawns act List.mem_cons_self))
        (h.step hstep) (fun act hmem => hspawns act (List.mem_cons_of_mem _ hmem)) hrun

/-- A look that lets the stop follow has found the connection to own the session. -/
theorem owner_of_checking {number : Nat}
    (h : b.step setup (.caller number (.detach id .checking)) = some b')
    (hcall : b'.calls[number]? = some (.detach id (.stopping .arriving))) :
    b'.instrument.arbiter.streamingOwner = some id := by
  rw [step] at h
  split at h
  · rename_i hchecking
    obtain ⟨hlt, -⟩ := List.getElem?_eq_some_iff.mp hchecking
    by_cases howner : b.instrument.arbiter.streamingOwner = some id
    · simp only [Call.step, DetachPoint.step, if_pos howner, Option.map_some,
        Option.some.injEq] at h
      rw [← h]
      exact howner
    · simp only [Call.step, DetachPoint.step, if_neg howner, Option.map_some,
        Option.some.injEq] at h
      rw [← h, List.getElem?_set_self hlt] at hcall
      cases hcall
  · cases h

/-- Where no session begins after the look that a departing connection takes at the arbiter, all
that its stop can meet is its own session. -/
theorem detach_stops_own_session {board : β} {dma : δ} {before between : List (Act β δ)}
    {number : Nat}
    (hbefore : run setup (before ++ [.caller number (.detach id .checking)]) (fresh board dma) =
      some x)
    (hpassed : x.calls[number]? = some (.detach id (.stopping .arriving)))
    (hbetween : run setup between x = some b) (hspawns : ∀ act ∈ between, act.spawns = false) :
    ∀ run ∈ b.runs, run.isFinished = false → run.connection = id := by
  have hsound : Sound _ x := (sound_fresh board dma).run hbefore
  rw [run_append] at hbefore
  obtain ⟨y, -, hlast⟩ := Option.bind_eq_some_iff.mp hbefore
  obtain ⟨z, hlook, hz⟩ := Option.bind_eq_some_iff.mp hlast
  obtain rfl : z = x := Option.some.inj hz
  -- What the look finds is still so right after it, and no act in between adds a session.
  have howner := owner_of_checking hlook hpassed
  exact (hsound.onlyOf howner).run hsound hspawns hbetween

/-- A session whose connection is detached, up to the look at the arbiter. -/
def departing : List (Act SimulatedBoard SimulatedDma) :=
  List.flatten [
    [.register ⟨1⟩ (.fresh none)],
    starting 0 ⟨1⟩
      [.arriving, .claiming, .taking, .joining 0, .configuring 0, .igniting 0, .spawning 0],
    [.call (.detach ⟨1⟩ .removing), .caller 1 (.detach ⟨1⟩ .removing)]]

def stoppingActs : List (Act SimulatedBoard SimulatedDma) :=
  [.caller 1 (.detach ⟨1⟩ (.stopping .arriving)), .caller 1 (.detach ⟨1⟩ (.stopping .looking))]

theorem departing_stops_own_session :
    ∃ x b, run Instrument.smallSetup (departing ++ [.caller 1 (.detach ⟨1⟩ .checking)])
        (fresh .powerOn .powerOn) = some x ∧
      run Instrument.smallSetup stoppingActs x = some b ∧
      b.calls[1]? = some (.detach ⟨1⟩ (.stopping (.flagging true))) ∧
      b.runs.map Run.isFinished = [false] ∧
      ∀ run ∈ b.runs, run.isFinished = false → run.connection = ⟨1⟩ := by
  obtain ⟨x, b, hbefore, hbetween, hpassed, hflagging, hruns⟩ :
      ∃ x b, run Instrument.smallSetup (departing ++ [.caller 1 (.detach ⟨1⟩ .checking)])
          (fresh .powerOn .powerOn) = some x ∧
        run Instrument.smallSetup stoppingActs x = some b ∧
        x.calls[1]? = some (.detach ⟨1⟩ (.stopping .arriving)) ∧
        b.calls[1]? = some (.detach ⟨1⟩ (.stopping (.flagging true))) ∧
        b.runs.map Run.isFinished = [false] := ⟨_, _, rfl, rfl, rfl, rfl, rfl⟩
  exact ⟨x, b, hbefore, hbetween, hflagging, hruns,
    detach_stops_own_session hbefore hpassed hbetween (by decide)⟩

/-- The peer of a session goes away: the session ends by itself while its connection is detached,
and a session of another connection begins between the look at the arbiter and the stop. -/
def departureRace : List (Act SimulatedBoard SimulatedDma) :=
  List.flatten [
    [.register ⟨1⟩ (.fresh (some 0)), .register ⟨2⟩ (.fresh none)],
    starting 0 ⟨1⟩
      [.arriving, .claiming, .taking, .joining 0, .configuring 0, .igniting 0, .spawning 0],
    [.launching, .checking, .querying, .waiting, .checking, .querying, .offering [0], .claiming [0],
      .filling [0], .publishing [0], .releasing [0]].map (.worker 0),
    [.checking, .taking, .copying, .sending [0, 0, 0, 0]].map (.logger 0),
    [.call (.detach ⟨1⟩ .removing), .caller 1 (.detach ⟨1⟩ .removing),
      .caller 1 (.detach ⟨1⟩ .checking)],
    [.failing, .cancelling].map (.logger 0),
    [.checking, .ending, .joining, .idling, .stopping, .closing, .yielding].map (.worker 0),
    starting 2 ⟨2⟩
      [.arriving, .claiming, .taking, .joining 1, .configuring 1, .igniting 1, .spawning 1],
    stoppingActs]

/-- The stop of a departing connection ends the session of another. -/
theorem detach_stops_other_session :
    ∃ b b', run Instrument.smallSetup departureRace (fresh .powerOn .powerOn) = some b ∧
      run Instrument.smallSetup
        ([.flagging true, .cancelling true].map fun point =>
          .caller 1 (.detach ⟨1⟩ (.stopping point))) b = some b' ∧
      b.instrument.arbiter.streamingOwner = some ⟨2⟩ ∧
      b.instrument.session.run.map (fun run => (run.connection, run.isFinished)) =
        some (⟨2⟩, false) ∧
      b.instrument.session.run.map (·.flags.terminate) = some false ∧
      b.instrument.dma.cancelPending = false ∧
      b'.instrument.session.run.map (·.flags.terminate) = some true ∧
      b'.instrument.dma.cancelPending = true := by
  refine ⟨_, _, rfl, rfl, ?_⟩
  decide +kernel

end Bench

end DaqServer
