import DaqServer.SharedInstrument
import DaqServer.Proofs.Board.Access

/-!
# Scans that nobody interrupts

The accesses of a scan are found by running it on the answers that it got. Main statement: a scan
that takes its steps one right after the other is the scan of the instrument as a whole. Every part
of a scan does on a board what it does on the answers of that board; a sequence does if its parts
do.
-/

namespace DaqServer

section Replays

variable {ε σ α β : Type} {port : Port σ}

/-- From given answers and a board on, a computation on answers alone asks for one access after the
other, which the board answers, up to a result and a last state of the board. -/
inductive Leads (port : Port σ) (y : ExceptT ε (StateM Replay) α) :
    List PortAnswer → σ → Except ε α → σ → Prop
  | done {answers : List PortAnswer} {s : σ} {result : Except ε α} :
      (∀ rest, y (.of (answers ++ rest)) = (result, .of rest)) → Leads port y answers s result s
  | ask {answers : List PortAnswer} {s s' s'' : σ} {result : Except ε α} {access : PortAccess}
      {answer : PortAnswer} {e : ε} :
      y (.of answers) = (.error e, ⟨[], some access⟩) → access.perform port s = (answer, s') →
      Leads port y (answers ++ [answer]) s' result s'' → Leads port y answers s result s''

/-- A computation on answers alone does what a computation on a board does. -/
def Replays (port : Port σ) (x : ExceptT ε (StateM σ) α) (y : ExceptT ε (StateM Replay) α) : Prop :=
  ∀ s, Leads port y [] s (x s).1 (x s).2

theorem replays_pure (a : α) : Replays port (pure a : ExceptT ε (StateM σ) α) (pure a) :=
  fun _ => .done fun _ => rfl

theorem replays_throw (e : ε) : Replays port (throw e : ExceptT ε (StateM σ) α) (throw e) :=
  fun _ => .done fun _ => rfl

theorem replays_lift (result : Except ε α) :
    Replays port (liftM result : ExceptT ε (StateM σ) α) (liftM result) :=
  fun _ => .done fun _ => rfl

theorem Leads.fails {y : ExceptT ε (StateM Replay) α} {g : α → ExceptT ε (StateM Replay) β}
    {answers : List PortAnswer} {s s' : σ} {result : Except ε α} {e : ε}
    (h : Leads port y answers s result s') (he : result = .error e) :
    Leads port (y >>= g) answers s (.error e) s' := by
  induction h with
  | done hdone => exact .done fun rest => bind_of_error (he ▸ hdone rest)
  | ask hask hperform _ ih => exact .ask (bind_of_error hask) hperform (ih he)

/-- What follows a computation gets the answers after those to it. -/
theorem Leads.shift {y : ExceptT ε (StateM Replay) α} {g : α → ExceptT ε (StateM Replay) β}
    {answers answers' : List PortAnswer} {a : α} {s s' : σ} {result : Except ε β}
    (hy : ∀ rest, y (.of (answers ++ rest)) = (.ok a, .of rest))
    (h : Leads port (g a) answers' s result s') :
    Leads port (y >>= g) (answers ++ answers') s result s' := by
  induction h with
  | done hdone =>
      refine .done fun rest => ?_
      rw [List.append_assoc, bind_of_ok (hy _), hdone]
  | ask hask hperform _ ih =>
      refine .ask ((bind_of_ok (hy _)).trans hask) hperform ?_
      rw [List.append_assoc]
      exact ih

theorem Leads.goesOn {y : ExceptT ε (StateM Replay) α} {g : α → ExceptT ε (StateM Replay) β}
    {answers : List PortAnswer} {a : α} {s s' s'' : σ} {first : Except ε α} {result : Except ε β}
    (h : Leads port y answers s first s') (hfirst : first = .ok a)
    (hg : Leads port (g a) [] s' result s'') : Leads port (y >>= g) answers s result s'' := by
  induction h with
  | @done answers _ _ hdone =>
      have hshift := hg.shift (hfirst ▸ hdone)
      rwa [List.append_nil] at hshift
  | ask hask hperform _ ih => exact .ask (bind_of_error hask) hperform (ih hfirst hg)

theorem Replays.bind {x : ExceptT ε (StateM σ) α} {y : ExceptT ε (StateM Replay) α}
    {f : α → ExceptT ε (StateM σ) β} {g : α → ExceptT ε (StateM Replay) β}
    (h : Replays port x y) (hfg : ∀ a, Replays port (f a) (g a)) :
    Replays port (x >>= f) (y >>= g) := by
  intro s
  have hs := h s
  rcases hx : x s with ⟨e | a, s'⟩
  · rw [hx] at hs
    rw [bind_of_error hx]
    exact hs.fails rfl
  · rw [hx] at hs
    rw [bind_of_ok hx]
    exact hs.goesOn rfl (hfg a s')

theorem replays_read (offset : UInt8) :
    Replays port (port.read offset) (Replay.port.read offset) := by
  intro s
  have hperform : (PortAccess.read offset).perform port s =
      ((port.read offset s).1, (port.read offset s).2) := rfl
  exact .ask rfl hperform (.done fun rest => rfl)

theorem replays_write (offset : UInt8) (value : UInt32) :
    Replays port (port.write offset value) (Replay.port.write offset value) := by
  intro s
  have hperform : ∃ answer, (PortAccess.write offset value).perform port s =
      (answer, (port.write offset value s).2) ∧
        answer.map (fun _ => ()) = (port.write offset value s).1 := by
    rcases hwrite : port.write offset value s with ⟨e | ⟨⟩, s'⟩
    · exact ⟨.error e, bind_of_error hwrite, rfl⟩
    · exact ⟨.ok 0, bind_of_ok hwrite, rfl⟩
  obtain ⟨answer, hperform, hanswer⟩ := hperform
  refine .ask rfl hperform (.done fun rest => ?_)
  rw [← hanswer]
  cases answer <;> rfl

theorem Leads.access {y : Access Replay α} {answers : List PortAnswer} {s s' : σ}
    {result : Except BoardError α} (h : Leads port y answers s result s') :
    Leads port (Acquisition.access y) answers s (result.mapError .board) s' := by
  induction h with
  | done hdone => exact .done fun rest => by rw [Acquisition.access_apply, hdone]
  | ask hask hperform _ ih =>
      have hfails : Acquisition.access y _ = (.error (.board _), _) :=
        (Acquisition.access_apply y _).trans (by rw [hask]; rfl)
      exact .ask hfails hperform ih

theorem Replays.access {x : Access σ α} {y : Access Replay α} (h : Replays port x y) :
    Replays port (Acquisition.access x) (Acquisition.access y) :=
  fun s => (h s).access

end Replays

namespace Scan

variable {σ : Type} (port : Port σ)

theorem replays_configure (settings : ScanSettings) :
    Replays port (configure port settings) (configure Replay.port settings) := by
  refine (replays_write _ _).access.bind fun _ => ?_
  refine (replays_read _).access.bind fun first => ?_
  refine (replays_read _).access.bind fun last => ?_
  refine (replays_read _).access.bind fun oversample => ?_
  exact replays_lift _

theorem replays_prime : Replays port (prime port) (prime Replay.port) :=
  (replays_write _ _).bind fun _ => (replays_write _ _).bind fun _ => replays_write _ _

theorem replays_readWords (count : Nat) (kept : Array UInt32) :
    Replays port (readWords port count kept) (readWords Replay.port count kept) := by
  induction count generalizing kept with
  | zero => exact replays_pure kept
  | succ count ih => exact (replays_read _).bind fun raw => ih _

theorem replays_drain (rounds : Nat) :
    Replays port (drain port rounds) (drain Replay.port rounds) := by
  induction rounds with
  | zero => exact replays_pure ()
  | succ rounds ih =>
      refine (replays_read _).bind fun pending => ?_
      split
      · exact replays_pure ()
      · exact (replays_readWords port _ _).bind fun _ => ih

theorem replays_collect (watch : Stopwatch) (timeout : Span) (expected accesses pauses : Nat)
    (kept : Array UInt32) :
    Replays port (collect port watch timeout expected accesses pauses kept)
      (collect Replay.port watch timeout expected accesses pauses kept) := by
  induction hleft : watch.reach timeout.nanoseconds - accesses using Nat.strongRecOn
    generalizing accesses pauses kept with
  | _ left ih =>
  rw [collect, collect]
  refine (replays_read _).access.bind fun available => ?_
  refine (replays_readWords port _ _).access.bind fun kept' => ?_
  split
  · exact replays_pure kept'
  · dsimp only
    by_cases hlt : watch.reading (accesses + 1 + min available.toNat (expected - kept.size))
        pauses < timeout.nanoseconds
    · have hreach := watch.lt_reach_of_reading_lt hlt
      rw [dif_pos hlt, dif_pos hlt]
      exact ih _ (by omega) _ _ _ rfl
    · rw [dif_neg hlt, dif_neg hlt]
      exact replays_throw _

theorem replays_acquire (watch : Stopwatch) (timeout : Span) (expected : Nat) :
    Replays port (acquire port watch timeout expected)
      (acquire Replay.port watch timeout expected) := by
  rw [acquire, acquire]
  split
  · exact replays_pure []
  · exact (replays_collect port _ _ _ _ _ _).bind fun samples => replays_pure _

/-- A scan does on a board what it does on the answers of that board. -/
theorem replays_measure (settings : ScanSettings) (watch : Stopwatch) :
    Replays port (measure port settings watch) (measure Replay.port settings watch) := by
  refine (replays_configure port settings).bind fun plan => ?_
  refine (replays_prime port).access.bind fun _ => ?_
  refine (replays_drain port _).access.bind fun _ => ?_
  refine (replays_write _ _).access.bind fun _ => ?_
  exact (replays_acquire port watch _ _).bind fun samples => replays_pure _

theorem move_of_done {settings : ScanSettings} {watch : Stopwatch} {answers : List PortAnswer}
    {result : Except AcquisitionError Readings}
    (h : ∀ rest, measure Replay.port settings watch (.of (answers ++ rest)) = (result, .of rest)) :
    move settings watch answers = .finish result := by
  have hdone := h []
  rw [List.append_nil] at hdone
  rw [move, hdone]
  rfl

theorem move_of_ask {settings : ScanSettings} {watch : Stopwatch} {answers : List PortAnswer}
    {access : PortAccess} {e : AcquisitionError}
    (h : measure Replay.port settings watch (.of answers) = (.error e, ⟨[], some access⟩)) :
    move settings watch answers = .access access := by
  rw [move, h]

end Scan

namespace SharedInstrument

variable {β δ : Type} {setup : Setup β δ} {number : Nat} {watch : Stopwatch}

theorem run_of_leads (shared : SharedInstrument β δ) {answers : List PortAnswer} {s s' : β}
    {result : Except AcquisitionError Readings}
    (h : Leads setup.port (Scan.measure Replay.port setup.scan watch) answers s result s')
    (hboard : shared.bench.instrument.board = s)
    (hscan : shared.scans[number]? = some ⟨watch, .measuring answers⟩) :
    ∃ steps : List ScanStep, run setup (steps.map (.scan number)) shared =
      some ⟨shared.bench.on fun x => { x with board := s', arbiter := x.arbiter.endScan },
        shared.scans.set number ⟨watch, .returned result⟩⟩ := by
  induction h generalizing shared with
  | done hdone =>
      subst hboard
      refine ⟨[.finish], ?_⟩
      rw [List.map_singleton, run, step, hscan, Option.bind_some, ScanPoint.step,
        Scan.move_of_done hdone]
      rfl
  | @ask answers _ t _ _ access answer _ hask hperform _ ih =>
      subst hboard
      obtain ⟨hlt, -⟩ := List.getElem?_eq_some_iff.mp hscan
      have hstep : shared.step setup (.scan number (.access access)) =
          some ⟨shared.bench.on fun x => { x with board := t },
            shared.scans.set number ⟨watch, .measuring (answers ++ [answer])⟩⟩ := by
        simp only [step, hscan, Option.bind_some, ScanPoint.step, Scan.move_of_ask hask, if_pos,
          hperform]
        rfl
      obtain ⟨steps, hsteps⟩ := ih ⟨shared.bench.on fun x => { x with board := t },
        shared.scans.set number ⟨watch, .measuring (answers ++ [answer])⟩⟩ rfl
        (List.getElem?_set_self hlt)
      refine ⟨.access access :: steps, ?_⟩
      rw [List.map_cons, run, hstep, Option.bind_some, hsteps, List.set_set]
      rfl

/-- A scan that takes all its steps one right after the other does what the scan of the instrument
does as a whole. -/
theorem scan_alone {shared : SharedInstrument β δ}
    (hscan : shared.scans[number]? = some ⟨setup.watch, .claiming⟩) :
    ∃ steps : List ScanStep, run setup (steps.map (.scan number)) shared =
      some ⟨shared.bench.on fun x => (x.scan setup).2,
        shared.scans.set number
          ⟨setup.watch, .returned (shared.bench.instrument.scan setup).1⟩⟩ := by
  obtain ⟨hlt, -⟩ := List.getElem?_eq_some_iff.mp hscan
  rcases hclaim : shared.bench.instrument.arbiter.beginScan with e | held
  · refine ⟨[.claim], ?_⟩
    have hrefused : Scan.run setup.port setup.scan setup.watch shared.bench.instrument.arbiter
        shared.bench.instrument.board =
          (.error e, shared.bench.instrument.arbiter, shared.bench.instrument.board) := by
      rw [Scan.run, hclaim]
    have hstep : shared.step setup (.scan number .claim) =
        some ⟨shared.bench, shared.scans.set number ⟨setup.watch, .returned (.error e)⟩⟩ := by
      simp only [step, hscan, Option.bind_some, ScanPoint.step, hclaim]
      rfl
    rw [List.map_singleton, run, hstep, Bench.on, Instrument.scan, hrefused]
    rfl
  · have hstep : shared.step setup (.scan number .claim) =
        some ⟨shared.bench.on fun x => { x with arbiter := held },
          shared.scans.set number ⟨setup.watch, .measuring []⟩⟩ := by
      simp only [step, hscan, Option.bind_some, ScanPoint.step, hclaim]
      rfl
    obtain ⟨steps, hsteps⟩ := run_of_leads ⟨shared.bench.on fun x => { x with arbiter := held },
        shared.scans.set number ⟨setup.watch, .measuring []⟩⟩
      (Scan.replays_measure setup.port setup.scan setup.watch shared.bench.instrument.board) rfl
      (List.getElem?_set_self hlt)
    refine ⟨.claim :: steps, ?_⟩
    rw [List.map_cons, run, hstep, Option.bind_some, hsteps, List.set_set, Bench.on, Bench.on,
      Bench.on, Instrument.scan, Scan.run, hclaim]
    rfl

end SharedInstrument

end DaqServer
