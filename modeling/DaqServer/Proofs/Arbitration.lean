import DaqServer.SharedInstrument
import DaqServer.Proofs.Stream.Exclusion

/-!
# Scans and sessions exclude each other

Who drives the ADC for streaming has a claim, so that nobody does while the claim is that of a scan;
all that streaming code does to the board then is to end a wait of the engine. `Guarded` says of a
shared instrument that the arbiter names a scan exactly while one scan has the claim. Main
statement: whatever the order in which scans, calls, threads and the hardware take their steps, no
streaming code drives the ADC between two steps of a scan, and no scan accesses the board while a
session has its claim.
-/

namespace DaqServer

variable {β δ : Type} {setup : Setup β δ}

/-- Whether an act sets the engine up, starts or stops it, or writes the trigger of the ADC. -/
def Act.drives : Act β δ → Bool
  | caller _ (.start _ (.configuring _)) | caller _ (.start _ (.igniting _))
  | caller _ (.start _ (.halting _)) | worker _ .idling | worker _ .stopping => true
  | _ => false

theorem Arbiter.owner_releaseStream (a : Arbiter) (id : ConnectionId) :
    (a.releaseStream id).owner = some .scan ↔ a.owner = some .scan := by
  rw [releaseStream, isStreamOf]
  split
  · rename_i howner
    rw [beq_iff_eq.mp howner]
    simp [idle]
  · exact Iff.rfl

theorem ClaimStep.scans {a a' : Arbiter} {claim claim' : Option ConnectionId}
    (h : ClaimStep a a' claim claim') : a'.owner = some .scan ↔ a.owner = some .scan := by
  cases h with
  | same harbiter => rw [harbiter]
  | gain hfree harbiter =>
      rw [hfree, harbiter]
      simp
  | give harbiter => rw [harbiter, Arbiter.owner_releaseStream]

/-! ## Streaming without a claim -/

namespace Bench

variable {acts : List (Act β δ)} {act : Act β δ} {b b' : Bench β δ}

/-- A thread acts for a session that has its claim. -/
theorem Moves.mem_holders (h : Moves act b b') {number : Nat} (hact : act.run? = some number) :
    ∃ id, id ∈ b.holders := by
  cases h with
  | @run _ run _ _ hrun _ _ _ hacts =>
      exact ⟨_, mem_holders_of_run (List.mem_of_getElem? hrun) (hacts number hact).2⟩
  | call _ _ _ _ _ hrun =>
      rw [hrun] at hact
      cases hact
  | spawn hact' =>
      subst hact'
      cases hact
  | other _ _ _ _ hrun =>
      rw [hrun] at hact
      cases hact

theorem caller_cases {number : Nat} {call : Call}
    (h : b.step setup (.caller number call) = some b') :
    b.calls[number]? = some call ∧ ∃ next, call.step setup b = some next ∧
      b'.instrument = next.2.instrument := by
  simp only [step] at h
  split at h
  · rename_i hcall
    obtain ⟨next, hnext, rfl⟩ := Option.map_eq_some_iff.mp h
    exact ⟨hcall, next, hnext, rfl⟩
  · cases h

/-- A call does not drive the ADC without a claim. -/
theorem undriven_of_caller {number : Nat} {call : Call} (hunclaimed : b.holders = [])
    (h : b.step setup (.caller number call) = some b') :
    (Act.caller number call : Act β δ).drives = false ∧
      Undriven setup b.instrument b'.instrument := by
  obtain ⟨hcall, next, hnext, hinstrument⟩ := caller_cases h
  rw [hinstrument]
  rcases call_cases hnext with ⟨hspares, -, -, hstart⟩ | ⟨id, point, point', rfl, -, hpoint⟩
  · refine ⟨?_, hspares.undriven⟩
    cases call with
    | start id point => exact absurd rfl (hstart id point)
    | _ => rfl
  · have hholds : point.holds = false := by
      refine Bool.eq_false_of_not_eq_true fun hholds => ?_
      have hholder := mem_holders_of_call hcall (if_pos hholds)
      rw [hunclaimed] at hholder
      exact List.not_mem_nil hholder
    refine ⟨?_, undriven_of_startPoint hpoint hholds⟩
    cases point with
    | configuring | igniting | halting => cases hholds
    | _ => rfl

/-- While nobody has a claim for streaming, streaming code does not drive the ADC, and all that it
does to the board is to end a wait of the engine. -/
theorem Sound.undriven (hsound : Sound acts b) (hunclaimed : b.holders = [])
    (h : b.step setup act = some b') :
    act.drives = false ∧
      ((∀ board dma, act ≠ .hardware board dma) → Undriven setup b.instrument b'.instrument) := by
  have hnobody : ∀ id, id ∉ b.holders := fun id => hunclaimed ▸ List.not_mem_nil
  have hthread : ∀ number, act.run? ≠ some number := fun number hact =>
    let ⟨id, hid⟩ := (moves_of_step hsound.ordered h).mem_holders hact
    hnobody id hid
  cases act with
  | call call =>
      simp only [Bench.step] at h
      split at h
      · cases h
        exact ⟨rfl, fun _ => .refl _⟩
      · cases h
  | caller number call =>
      obtain ⟨hdrives, hundriven⟩ := undriven_of_caller hunclaimed h
      exact ⟨hdrives, fun _ => hundriven⟩
  | noWorker number id sink cause =>
      simp only [Bench.step] at h
      split at h
      · rename_i hcall
        exact absurd (mem_holders_of_call hcall rfl) (hnobody id)
      · cases h
  | noLogger number | worker number point | logger number point => exact absurd rfl (hthread number)
  | register id sink =>
      simp only [Bench.step] at h
      split at h
      · cases h
      · cases h
        exact ⟨rfl, fun _ => ⟨rfl, .inl rfl⟩⟩
  | beginScan =>
      simp only [Bench.step] at h
      split at h
      · cases h
      · cases h
        exact ⟨rfl, fun _ => ⟨rfl, .inl rfl⟩⟩
  | endScan =>
      simp only [Bench.step] at h
      split at h
      · cases h
        exact ⟨rfl, fun _ => ⟨rfl, .inl rfl⟩⟩
      · cases h
  | hardware board dma => exact ⟨rfl, fun hact => absurd rfl (hact board dma)⟩
  | peer sink accepts =>
      cases h
      exact ⟨rfl, fun _ => ⟨rfl, .inl rfl⟩⟩

/-- Streaming code leaves the claim of a scan as it is. -/
theorem Moves.scans (h : Moves act b b') (hact : act.isScan = false) :
    b'.instrument.arbiter.owner = some .scan ↔ b.instrument.arbiter.owner = some .scan := by
  cases h with
  | run _ _ hmoves => exact hmoves.claimStep.scans
  | call _ _ _ hclaim => exact hclaim.scans
  | spawn _ _ _ _ harbiter => rw [harbiter]
  | other _ _ _ _ _ _ harbiter => rw [harbiter hact]

end Bench

/-! ## Scans -/

/-- All that a scan can do in one step. -/
inductive ScanPoint.Moves (b : Bench β δ) : ScanStep → ScanPoint → ScanPoint → Bench β δ → Prop
  | refused {e : AcquisitionError} :
      b.instrument.arbiter.beginScan = .error e → Moves b .claim .claiming (.returned (.error e)) b
  | claimed {held : Arbiter} : b.instrument.arbiter.beginScan = .ok held →
      Moves b .claim .claiming (.measuring []) (b.on fun x => { x with arbiter := held })
  | accessed {access : PortAccess} {answers : List PortAnswer} {answer : PortAnswer} {board : β} :
      Moves b (.access access) (.measuring answers) (.measuring (answers ++ [answer]))
        (b.on fun x => { x with board := board })
  | finished {answers : List PortAnswer} {result : Except AcquisitionError Readings} :
      Moves b .finish (.measuring answers) (.returned result)
        (b.on fun x => { x with arbiter := x.arbiter.endScan })

theorem ScanPoint.moves_of_step {watch : Stopwatch} {b : Bench β δ} {step : ScanStep}
    {point : ScanPoint} {next : ScanPoint × Bench β δ}
    (h : point.step setup watch b step = some next) : Moves b step point next.1 next.2 := by
  cases point with
  | claiming =>
      cases step with
      | claim =>
          simp only [ScanPoint.step] at h
          split at h
          · rename_i hrefused
            cases h
            exact .refused hrefused
          · rename_i hclaimed
            cases h
            exact .claimed hclaimed
      | access access => exact absurd h nofun
      | finish => exact absurd h nofun
  | measuring answers =>
      cases step with
      | claim => exact absurd h nofun
      | access access =>
          simp only [ScanPoint.step] at h
          split at h
          · split at h
            · cases h
              exact .accessed
            · exact absurd h nofun
          · exact absurd h nofun
      | finish =>
          simp only [ScanPoint.step] at h
          split at h
          · exact absurd h nofun
          · cases h
            exact .finished
  | returned result => cases step <;> exact absurd h nofun

/-- A scan goes from its first point through its accesses to its last. -/
def ScanPoint.stage : ScanPoint → Nat
  | claiming => 0
  | measuring _ => 1
  | returned _ => 2

theorem ScanCall.isMeasuring_of_stage {scan : ScanCall} (h : scan.point.stage = 1) :
    scan.isMeasuring := by
  obtain ⟨watch, point⟩ := scan
  cases point with
  | measuring answers => rfl
  | claiming | returned => exact absurd h nofun

theorem ScanPoint.Moves.stage {b b' : Bench β δ} {step : ScanStep} {point point' : ScanPoint}
    (h : Moves b step point point' b') :
    point.stage ≤ 1 ∧ 1 ≤ point'.stage ∧ point.stage ≤ point'.stage := by
  cases h <;> simp [ScanPoint.stage]

namespace SharedInstrument

variable {shared shared' : SharedInstrument β δ} {act : SharedAct β δ} {acts : List (SharedAct β δ)}
  {number : Nat}

/-- What is true of a shared instrument after acts on a fresh one. -/
structure Guarded (shared : SharedInstrument β δ) : Prop where
  sound : ∃ acts, shared.bench.Sound acts
  measuring : shared.scans.countP ScanCall.isMeasuring =
    if shared.bench.instrument.arbiter.owner = some .scan then 1 else 0

theorem guarded_fresh (board : β) (dma : δ) : Guarded (fresh board dma) :=
  ⟨⟨[], Bench.sound_fresh board dma⟩, rfl⟩

theorem scan_cases {step : ScanStep} (h : shared.step setup (.scan number step) = some shared') :
    ∃ scan point', shared.scans[number]? = some scan ∧
      scan.point.Moves shared.bench step point' shared'.bench ∧
      shared'.scans = shared.scans.set number { scan with point := point' } := by
  obtain ⟨scan, hscan, h⟩ := Option.bind_eq_some_iff.mp h
  obtain ⟨next, hnext, rfl⟩ := Option.map_eq_some_iff.mp h
  exact ⟨scan, next.1, hscan, ScanPoint.moves_of_step hnext, rfl⟩

/-- Replacing a scan moves the number of those that measure as the scan moves. -/
theorem countP_set {scans : List ScanCall} {scan : ScanCall} (h : scans[number]? = some scan)
    (scan' : ScanCall) :
    (scans.set number scan').countP ScanCall.isMeasuring + (if scan.isMeasuring then 1 else 0) =
      scans.countP ScanCall.isMeasuring + if scan'.isMeasuring then 1 else 0 := by
  obtain ⟨before, after, rfl, hset⟩ := exists_set_eq h
  rw [hset, List.countP_append, List.countP_append, List.countP_cons, List.countP_cons]
  omega

theorem Guarded.owner_of_measuring (h : shared.Guarded) (hmeasuring : shared.IsMeasuring number) :
    shared.bench.instrument.arbiter.owner = some .scan := by
  obtain ⟨scan, hscan, hmeasuring⟩ := hmeasuring
  have hpos := List.countP_pos_iff.mpr ⟨scan, List.mem_of_getElem? hscan, hmeasuring⟩
  rw [h.measuring] at hpos
  split at hpos
  · assumption
  · exact absurd hpos (Nat.lt_irrefl 0)

/-- A scan acts at the bench as the acts there say that stand for scans. -/
theorem sound_of_moves (setup : Setup β δ) {b b' : Bench β δ} {benchActs : List (Act β δ)}
    {step : ScanStep} {point point' : ScanPoint} (hsound : b.Sound benchActs)
    (howner : point.stage = 1 → b.instrument.arbiter.owner = some .scan)
    (h : point.Moves b step point' b') : ∃ benchActs', b'.Sound benchActs' := by
  cases h with
  | refused => exact ⟨_, hsound⟩
  | @claimed held hclaim =>
      have hstep : b.step setup .beginScan =
          some (b.on fun x => { x with arbiter := held }) := by
        rw [Bench.step, hclaim]
      exact ⟨_, hsound.step hstep⟩
  | @accessed _ _ _ board =>
      have hstep : b.step setup (.hardware board b.instrument.dma) =
          some (b.on fun x => { x with board := board }) := rfl
      exact ⟨_, hsound.step hstep⟩
  | finished =>
      have hstep : b.step setup .endScan =
          some (b.on fun x => { x with arbiter := x.arbiter.endScan }) := by
        rw [Bench.step, if_pos (howner rfl)]
      exact ⟨_, hsound.step hstep⟩

theorem Guarded.claims_le (h : shared.Guarded) :
    shared.scans.countP ScanCall.isMeasuring + shared.bench.holders.length ≤ 1 := by
  obtain ⟨benchActs, hsound⟩ := h.sound
  rw [h.measuring, hsound.holders_eq]
  obtain ⟨_ | _ | id⟩ := shared.bench.instrument.arbiter <;> simp [Arbiter.streamingOwner]

theorem Guarded.stepScan {step : ScanStep} (h : shared.Guarded)
    (hstep : shared.step setup (.scan number step) = some shared') : shared'.Guarded := by
  obtain ⟨⟨watch, point⟩, point', hscan, hmoves, hscans⟩ := scan_cases hstep
  have hcount := countP_set hscan ⟨watch, point'⟩
  rw [← hscans, h.measuring] at hcount
  have howner : point.stage = 1 → shared.bench.instrument.arbiter.owner = some .scan :=
    fun hstage =>
    h.owner_of_measuring ⟨_, hscan, ScanCall.isMeasuring_of_stage hstage⟩
  obtain ⟨benchActs, hsound⟩ := h.sound
  refine ⟨sound_of_moves setup hsound howner hmoves, ?_⟩
  generalize shared'.bench = b' at hmoves
  cases hmoves with
  | refused => exact hcount
  | claimed hclaim =>
      obtain ⟨hfree, rfl⟩ := Arbiter.eq_of_beginScan hclaim
      rw [hfree] at hcount
      exact hcount
  | accessed => exact Nat.add_right_cancel hcount
  | finished =>
      rw [if_pos (howner rfl)] at hcount
      have hidle : shared.bench.instrument.arbiter.endScan = .idle := if_pos (howner rfl)
      simp only [Bench.on, hidle]
      exact Nat.add_right_cancel hcount

theorem Guarded.step (h : shared.Guarded) (hstep : shared.step setup act = some shared') :
    shared'.Guarded := by
  cases act with
  | bench act =>
      obtain ⟨⟨acts, hsound⟩, hmeasuring⟩ := h
      simp only [SharedInstrument.step] at hstep
      split at hstep
      · exact absurd hstep nofun
      · rename_i hact
        obtain ⟨b', hb', rfl⟩ := Option.map_eq_some_iff.mp hstep
        refine ⟨⟨_, hsound.step hb'⟩, ?_⟩
        rw [hmeasuring]
        have hscans := (Bench.moves_of_step hsound.ordered hb').scans
          (Bool.eq_false_of_not_eq_true hact)
        simp only [hscans]
  | arrive watch =>
      obtain rfl := Option.some.inj hstep
      refine ⟨h.sound, ?_⟩
      rw [List.countP_append, h.measuring]
      rfl
  | scan number step => exact h.stepScan hstep

theorem Guarded.run (h : shared.Guarded)
    (hrun : SharedInstrument.run setup acts shared = some shared') :
    shared'.Guarded := by
  induction acts generalizing shared with
  | nil => exact Option.some.inj hrun ▸ h
  | cons act acts ih =>
      obtain ⟨x, hstep, hrun⟩ := Option.bind_eq_some_iff.mp hrun
      exact ih (h.step hstep) hrun

/-! ## Both together -/

theorem stage_le_of_step (hstep : shared.step setup act = some shared') {scan : ScanCall}
    (hscan : shared.scans[number]? = some scan) :
    ∃ scan', shared'.scans[number]? = some scan' ∧ scan.point.stage ≤ scan'.point.stage := by
  obtain ⟨hlt, -⟩ := List.getElem?_eq_some_iff.mp hscan
  cases act with
  | bench act =>
      simp only [step] at hstep
      split at hstep
      · exact absurd hstep nofun
      · obtain ⟨b', -, rfl⟩ := Option.map_eq_some_iff.mp hstep
        exact ⟨scan, hscan, Nat.le_refl _⟩
  | arrive watch =>
      obtain rfl := Option.some.inj hstep
      exact ⟨scan, (List.getElem?_append_left hlt).trans hscan, Nat.le_refl _⟩
  | scan mover step =>
      obtain ⟨moving, point', hmoving, hmoves, hscans⟩ := scan_cases hstep
      rw [hscans]
      by_cases hnumber : mover = number
      · subst hnumber
        obtain rfl : moving = scan := Option.some.inj (hmoving.symm.trans hscan)
        exact ⟨_, List.getElem?_set_self hlt, hmoves.stage.2.2⟩
      · exact ⟨scan, (List.getElem?_set_ne hnumber).trans hscan, Nat.le_refl _⟩

theorem stage_le_of_run (hrun : run setup acts shared = some shared') {scan : ScanCall}
    (hscan : shared.scans[number]? = some scan) :
    ∃ scan', shared'.scans[number]? = some scan' ∧ scan.point.stage ≤ scan'.point.stage := by
  induction acts generalizing shared scan with
  | nil => exact ⟨scan, Option.some.inj hrun ▸ hscan, Nat.le_refl _⟩
  | cons act acts ih =>
      obtain ⟨x, hstep, hrun⟩ := Option.bind_eq_some_iff.mp hrun
      obtain ⟨scan', hscan', hle⟩ := stage_le_of_step hstep hscan
      obtain ⟨scan'', hscan'', hle'⟩ := ih hrun hscan'
      exact ⟨scan'', hscan'', Nat.le_trans hle hle'⟩

theorem run_append (setup : Setup β δ) (acts acts' : List (SharedAct β δ))
    (shared : SharedInstrument β δ) :
    run setup (acts ++ acts') shared = (run setup acts shared).bind (run setup acts') := by
  induction acts generalizing shared with
  | nil => rfl
  | cons act acts ih =>
      rw [List.cons_append, run, run, Option.bind_assoc]
      exact Option.bind_congr fun x _ => ih x

theorem isMeasuring_between {step step' : ScanStep} {middle middle' : List (SharedAct β δ)}
    {x y z w : SharedInstrument β δ} (hstep : x.step setup (.scan number step) = some y)
    (hmiddle : run setup middle y = some z) (hmiddle' : run setup middle' z = some w)
    (hstep' : w.step setup (.scan number step') = some shared') : z.IsMeasuring number := by
  obtain ⟨scan, point, hscan, hmoves, hscans⟩ := scan_cases hstep
  obtain ⟨last, end', hlast, hlastMoves, -⟩ := scan_cases hstep'
  obtain ⟨hlt, -⟩ := List.getElem?_eq_some_iff.mp hscan
  have hy : y.scans[number]? = some { scan with point := point } := by
    rw [hscans, List.getElem?_set_self hlt]
  obtain ⟨scan', hscan', hle⟩ := stage_le_of_run hmiddle hy
  obtain ⟨scan'', hscan'', hle'⟩ := stage_le_of_run hmiddle' hscan'
  obtain rfl : scan'' = last := Option.some.inj (hscan''.symm.trans hlast)
  have hfirst : 1 ≤ point.stage := hmoves.stage.2.1
  have hend : scan''.point.stage ≤ 1 := hlastMoves.stage.1
  refine ⟨scan', hscan', ScanCall.isMeasuring_of_stage ?_⟩
  dsimp only at hle
  omega

theorem Guarded.undriven (h : shared.Guarded) (hmeasuring : shared.IsMeasuring number)
    {act : Act β δ}
    (hstep : shared.step setup (.bench act) = some shared') :
    act.drives = false ∧ ((∀ board dma, act ≠ .hardware board dma) →
      Bench.Undriven setup shared.bench.instrument shared'.bench.instrument) := by
  obtain ⟨benchActs, hsound⟩ := h.sound
  have hunclaimed : shared.bench.holders = [] := by
    rw [hsound.holders_eq, Arbiter.streamingOwner, h.owner_of_measuring hmeasuring]
    rfl
  simp only [SharedInstrument.step] at hstep
  split at hstep
  · cases hstep
  · obtain ⟨b', hb', rfl⟩ := Option.map_eq_some_iff.mp hstep
    exact hsound.undriven hunclaimed hb'

/-- Scans and sessions never drive the ADC at the same time, whatever the order in which scans,
calls, threads and the hardware take their steps. While a scan has its claim, no act at the bench
sets up, starts or stops the engine or writes the trigger; apart from the hardware itself, all that
reaches the board is the end of a wait. While a connection has a claim for streaming, a scan that
comes to claim the ADC is refused in its name, with no other effect, and no scan can do an access.
So no driving act falls between two steps of the same scan, such as the writes of the trigger and
the strobe. -/
theorem scans_and_sessions_exclusive {board : β} {dma : δ}
    (h : run setup acts (fresh board dma) = some shared) :
    shared.scans.countP ScanCall.isMeasuring + shared.bench.holders.length ≤ 1 ∧
    (∀ number, shared.IsMeasuring number →
      ∀ act shared', shared.step setup (.bench act) = some shared' →
      act.drives = false ∧ ((∀ board dma, act ≠ .hardware board dma) →
        Bench.Undriven setup shared.bench.instrument shared'.bench.instrument)) ∧
    (∀ active ∈ shared.bench.holders, ∀ number,
      (∀ watch, shared.scans[number]? = some ⟨watch, .claiming⟩ →
        shared.step setup (.scan number .claim) = some { shared with
          scans := shared.scans.set number
            ⟨watch, .returned (.error (.adcBusy (.stream active)))⟩ }) ∧
      ∀ access, shared.step setup (.scan number (.access access)) = none) ∧
    ∀ past number step middle step' future,
      acts = past ++ .scan number step :: middle ++ .scan number step' :: future →
      ∀ act, .bench act ∈ middle → act.drives = false := by
  have hguarded : shared.Guarded := (guarded_fresh board dma).run h
  refine ⟨hguarded.claims_le, fun number hmeasuring act shared' hstep =>
    hguarded.undriven hmeasuring hstep, ?_, ?_⟩
  · intro active hactive number
    obtain ⟨benchActs, hsound⟩ := hguarded.sound
    rw [hsound.holders_eq, Option.mem_toList] at hactive
    have harbiter := Bench.owner_of_streamingOwner hactive
    refine ⟨fun watch hscan => ?_, fun access => ?_⟩
    · have hbusy : shared.bench.instrument.arbiter.beginScan =
          .error (.adcBusy (.stream active)) := by
        rw [harbiter]
        rfl
      simp only [step, hscan, Option.bind_some, ScanPoint.step, hbusy]
      rfl
    · -- A scan at an access would have the claim.
      cases hstep : shared.step setup (.scan number (.access access)) with
      | none => rfl
      | some shared' =>
          obtain ⟨⟨watch, point⟩, point', hscan, hmoves, -⟩ := scan_cases hstep
          generalize shared'.bench = b' at hmoves
          cases hmoves with
          | accessed =>
              have howner := hguarded.owner_of_measuring ⟨_, hscan, rfl⟩
              rw [harbiter] at howner
              exact absurd howner nofun
  · rintro past number step middle step' future rfl act hmem
    obtain ⟨before, after, rfl⟩ := List.append_of_mem hmem
    have hsplit : past ++ SharedAct.scan number step :: (before ++ .bench act :: after) ++
        .scan number step' :: future = past ++ .scan number step ::
          (before ++ .bench act :: (after ++ .scan number step' :: future)) := by
      simp
    rw [hsplit, run_append] at h
    obtain ⟨x, hpast, h⟩ := Option.bind_eq_some_iff.mp h
    obtain ⟨y, hstep, h⟩ := Option.bind_eq_some_iff.mp h
    rw [run_append] at h
    obtain ⟨z, hbefore, h⟩ := Option.bind_eq_some_iff.mp h
    obtain ⟨z', hact, h⟩ := Option.bind_eq_some_iff.mp h
    rw [run_append] at h
    obtain ⟨w, hafter, h⟩ := Option.bind_eq_some_iff.mp h
    obtain ⟨last, hstep', -⟩ := Option.bind_eq_some_iff.mp h
    have hx : x.Guarded := (guarded_fresh board dma).run hpast
    have hz : z.Guarded := (hx.step hstep).run hbefore
    have hfrom : run setup (.bench act :: after) z = some w := by
      rw [run, hact, Option.bind_some, hafter]
    exact (hz.undriven (isMeasuring_between hstep hbefore hfrom hstep') hact).1

def besides (acts : List (Act β δ)) : List (SharedAct β δ) := acts.map .bench

def scanning (number : Nat) (steps : List ScanStep) : List (SharedAct β δ) :=
  steps.map (.scan number)

/-- A session, and a scan that is asked for while it is on. -/
def sessionFirst : List (SharedAct SimulatedBoard SimulatedDma) :=
  List.flatten [
    besides [.register ⟨1⟩ (.fresh none)],
    besides (Bench.starting 0 ⟨1⟩
      [.arriving, .claiming, .taking, .joining 0, .configuring 0, .igniting 0, .spawning 0]),
    [.arrive (.steady 1 0 Nat.one_pos)]]

/-- The session ends, and another scan gets the ADC and begins to write the trigger. -/
def scanAfterwards : List (SharedAct SimulatedBoard SimulatedDma) :=
  List.flatten [
    scanning 0 [.claim],
    besides [.call (.stop .arriving), .caller 1 (.stop .arriving), .caller 1 (.stop .looking),
      .caller 1 (.stop (.flagging true)), .caller 1 (.stop (.cancelling true))],
    besides [.worker 0 .launching, .worker 0 .checking, .worker 0 .ending, .logger 0 .checking],
    besides ([.joining, .idling, .stopping, .closing, .yielding].map (.worker 0)),
    [.arrive (.steady 1 0 Nat.one_pos)],
    scanning 1 [.claim, .access (.write Register.reduction 0),
      .access (.read Register.startChannel), .access (.read Register.endChannel),
      .access (.read Register.oversamples), .access (.write Register.trigger Trigger.disabled),
      .access (.write Register.trigger Trigger.clear)]]

/-- A start and a stop while the scan has the ADC. -/
def duringScan : List (SharedAct SimulatedBoard SimulatedDma) :=
  List.flatten [
    besides (Bench.starting 2 ⟨1⟩ [.arriving, .claiming]),
    besides [.call (.stop .arriving), .caller 3 (.stop .arriving), .caller 3 (.stop .looking),
      .caller 3 (.stop (.flagging false)), .caller 3 (.stop (.cancelling false))],
    scanning 1 [.access (.read Register.fifoCount)]]

theorem scan_refused_then_undisturbed :
    (∃ shared watch,
      run Instrument.smallSetup sessionFirst (fresh .powerOn .powerOn) = some shared ∧
      shared.bench.holders = [⟨1⟩] ∧ shared.scans[0]? = some ⟨watch, .claiming⟩ ∧
      shared.step Instrument.smallSetup (.scan 0 .claim) = some { shared with
        scans := shared.scans.set 0 ⟨watch, .returned (.error (.adcBusy (.stream ⟨1⟩)))⟩ }) ∧
    ∃ shared, run Instrument.smallSetup
        (sessionFirst ++ scanAfterwards ++
          .scan 1 (.access (.write Register.trigger Trigger.software)) :: duringScan ++
          [.scan 1 (.access (.write Register.softwareStart 1))]) (fresh .powerOn .powerOn) =
            some shared ∧
      shared.scans.map (·.point.stage) = [2, 1] ∧ shared.bench.holders = [] ∧
      ∀ act, .bench act ∈ duringScan → act.drives = false := by
  constructor
  · have hview : (run Instrument.smallSetup sessionFirst (fresh .powerOn .powerOn)).map
        (fun shared => (shared.bench.holders, shared.scans.map (·.point.stage))) =
          some ([⟨1⟩], [0]) := by
      decide +kernel
    obtain ⟨shared, hrun, hview⟩ := Option.map_eq_some_iff.mp hview
    obtain ⟨hholders, hstages⟩ := Prod.mk.inj hview
    obtain ⟨⟨watch, point⟩, hscans, hstage⟩ := List.map_eq_singleton_iff.mp hstages
    cases point with
    | claiming =>
        have hscan : shared.scans[0]? = some ⟨watch, .claiming⟩ := by rw [hscans]; rfl
        have hactive : ⟨1⟩ ∈ shared.bench.holders := hholders ▸ List.mem_singleton_self _
        obtain ⟨-, -, hrefused, -⟩ := scans_and_sessions_exclusive hrun
        exact ⟨shared, watch, hrun, hholders, hscan, (hrefused ⟨1⟩ hactive 0).1 watch hscan⟩
    | measuring | returned => exact absurd hstage nofun
  · have hview : (run Instrument.smallSetup (sessionFirst ++ scanAfterwards ++
        .scan 1 (.access (.write Register.trigger Trigger.software)) :: duringScan ++
        [.scan 1 (.access (.write Register.softwareStart 1))]) (fresh .powerOn .powerOn)).map
          (fun shared => (shared.bench.holders, shared.scans.map (·.point.stage))) =
            some ([], [2, 1]) := by
      decide +kernel
    obtain ⟨shared, hrun, hview⟩ := Option.map_eq_some_iff.mp hview
    obtain ⟨hholders, hstages⟩ := Prod.mk.inj hview
    obtain ⟨-, -, -, hbetween⟩ := scans_and_sessions_exclusive hrun
    exact ⟨shared, hrun, hstages, hholders, hbetween _ _ _ _ _ _ rfl⟩

end SharedInstrument

end DaqServer
