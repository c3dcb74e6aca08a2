import DaqServer.Proofs.Scan.Acquisition

/-!
# The order of accesses of a scan

`Conducts` lists the ways in which a scan can go, each with the accesses that it makes, up to the
first that fails. Main statement: a scan does nothing to a converter that is held, and else gives it
back; it writes in a fixed order, strobes the board only after everything before went well, and
shows nothing that it read before.
-/

namespace DaqServer

/-- The events of accesses one after the other, up to the first that fails. -/
inductive Follows : List PortAccess → List PortEvent → Except BoardError Unit → Prop
  | all : Follows [] [] (.ok ())
  | cut {accesses : List PortAccess} (access : PortAccess) (e : BoardError) :
      Follows (access :: accesses) [⟨access, .error e⟩] (.error e)
  | next {accesses : List PortAccess} {events : List PortEvent} {result : Except BoardError Unit}
      (access : PortAccess) (answer : UInt32) : Follows accesses events result →
      Follows (access :: accesses) (⟨access, .ok answer⟩ :: events) result

namespace Follows

variable {accesses : List PortAccess} {events : List PortEvent} {result : Except BoardError Unit}

/-- No access is made that is not listed, nor out of order. -/
theorem accesses_prefix (h : Follows accesses events result) :
    events.map PortEvent.access <+: accesses := by
  induction h with
  | all => exact List.prefix_rfl
  | cut access e => exact List.prefix_append [access] _
  | next access answer _ ih => exact List.prefix_cons_inj access |>.mpr ih

theorem eq_nil (h : Follows [] events result) : events = [] := by
  cases h
  rfl

theorem exists_of_ok {access : PortAccess} (h : Follows (access :: accesses) events (.ok ())) :
    ∃ answer events', events = ⟨access, .ok answer⟩ :: events' ∧
      Follows accesses events' (.ok ()) := by
  cases h with
  | next _ answer h => exact ⟨answer, _, rfl, h⟩

end Follows

section Writes

variable {σ : Type} {port : Port σ}

theorem records_one_write (offset : UInt8) (value : UInt32) :
    Records (port.write offset value) (port.recorded.write offset value)
      (Follows [.write offset value]) := by
  refine (records_write offset value).mono ?_
  rintro events result ⟨_ | answer, rfl, rfl⟩
  · exact .cut _ _
  · exact .next _ answer .all

/-- A write and what follows it. -/
theorem Records.write {x : Access σ Unit}
    {y : Access (σ × List PortEvent) Unit} {accesses : List PortAccess} (offset : UInt8)
    (value : UInt32) (h : Records x y (Follows accesses)) :
    Records (port.write offset value >>= fun _ => x)
      (port.recorded.write offset value >>= fun _ => y)
      (Follows (.write offset value :: accesses)) := by
  refine (records_write offset value).bind ?_ ?_
  · rintro events e ⟨answer | _, rfl, he⟩
    · cases he
      exact .cut _ _
    · cases he
  · rintro events ⟨⟩ ⟨_ | answer, rfl, hok⟩
    · cases hok
    · exact h.mono fun events' result hfollows => .next _ answer hfollows

end Writes

namespace Scan

def configuration (settings : ScanSettings) : List PortAccess :=
  [.write Register.reduction settings.reduction.toUInt32, .read Register.startChannel,
    .read Register.endChannel, .read Register.oversamples]

def softwareTrigger : List PortAccess :=
  [.write Register.trigger Trigger.disabled, .write Register.trigger Trigger.clear,
    .write Register.trigger Trigger.software]

def strobe : PortAccess := .write Register.softwareStart 1

variable {σ : Type} {port : Port σ}

/-- How a scan is set up: the accesses fail at some point, or the board gives a plan. -/
inductive Configures (settings : ScanSettings) :
    List PortEvent → Except AcquisitionError ScanPlan → Prop
  | cut {events : List PortEvent} {e : BoardError} :
      Follows (configuration settings) events (.error e) →
      Configures settings events (.error (.board e))
  | read {result : Except AcquisitionError ScanPlan} (answer first last oversample : UInt32) :
      ScanPlan.make first.toUInt8 last.toUInt8 oversample.toUInt8 = result →
      Configures settings
        [⟨.write Register.reduction settings.reduction.toUInt32, .ok answer⟩,
          .read Register.startChannel first, .read Register.endChannel last,
          .read Register.oversamples oversample] result

/-- How the FIFO is emptied in at most so many rounds. -/
inductive Drains : Nat → List PortEvent → Except BoardError Unit → Prop
  | enough : Drains 0 [] (.ok ())
  | empty {rounds : Nat} : Drains (rounds + 1) [.read Register.fifoCount 0] (.ok ())
  | cut {rounds : Nat} {events : List PortEvent} {e : BoardError} :
      Pass.Cut UInt32.toNat events e → Drains (rounds + 1) events (.error e)
  | round {rounds : Nat} {p : Pass} {events : List PortEvent} {result : Except BoardError Unit} :
      p.shown ≠ 0 → p.words.length = p.shown.toNat → Drains rounds events result →
      Drains (rounds + 1) (p.events ++ events) result

/-- How samples are acquired: nothing is written, and what comes out are the valid words that the
FIFO gave. -/
structure Acquires (events : List PortEvent) (result : Except AcquisitionError (List UInt32)) :
    Prop where
  reads : ∀ event ∈ events, event.write? = none
  samples : ∀ samples, result = .ok samples →
    samples = Sample.valid (events.filterMap (PortEvent.word? Register.fifoData))

/-- How a scan is made ready for the strobe. -/
inductive Prepares (settings : ScanSettings) :
    List PortEvent → Except AcquisitionError ScanPlan → Prop
  | configuring {events : List PortEvent} {e : AcquisitionError} :
      Configures settings events (.error e) → Prepares settings events (.error e)
  | triggering {events events' : List PortEvent} {plan : ScanPlan} {e : BoardError} :
      Configures settings events (.ok plan) → Follows softwareTrigger events' (.error e) →
      Prepares settings (events ++ events') (.error (.board e))
  | ready {events events' : List PortEvent} {plan : ScanPlan} :
      Configures settings events (.ok plan) → Follows softwareTrigger events' (.ok ()) →
      Prepares settings (events ++ events') (.ok plan)

/-- How a scan goes that holds the ADC: the accesses that prepare it, those that empty the FIFO and
all from the strobe on. -/
inductive Conducts (settings : ScanSettings) :
    (setup drained rest : List PortEvent) → Except AcquisitionError Readings → Prop
  | preparing {setup : List PortEvent} {e : AcquisitionError} :
      Prepares settings setup (.error e) → Conducts settings setup [] [] (.error e)
  | draining {setup drained : List PortEvent} {plan : ScanPlan} {e : BoardError} :
      Prepares settings setup (.ok plan) → Drains drainRounds drained (.error e) →
      Conducts settings setup drained [] (.error (.board e))
  | strobing {setup drained : List PortEvent} {plan : ScanPlan} {e : BoardError} :
      Prepares settings setup (.ok plan) → Drains drainRounds drained (.ok ()) →
      Conducts settings setup drained [⟨strobe, .error e⟩] (.error (.board e))
  | acquiring {setup drained acquired : List PortEvent} {plan : ScanPlan} {answer : UInt32}
      {result : Except AcquisitionError (List UInt32)} :
      Prepares settings setup (.ok plan) → Drains drainRounds drained (.ok ()) →
      Acquires acquired result →
      Conducts settings setup drained (⟨strobe, .ok answer⟩ :: acquired)
        (result.map (Readings.ofSamples plan))

theorem records_configure (settings : ScanSettings) :
    Records (configure port settings) (configure port.recorded settings)
      (Configures settings) := by
  refine .writeThen _ _ (fun e => .cut (.cut _ e)) fun answer => ?_
  refine .readThen _ (fun e => .cut (.next _ _ (.cut _ e))) fun first => ?_
  refine .readThen _ (fun e => .cut (.next _ _ (.next _ _ (.cut _ e)))) fun last => ?_
  refine .readThen _ (fun e => .cut (.next _ _ (.next _ _ (.next _ _ (.cut _ e)))))
    fun oversample => ?_
  exact records_lift (.read answer first last oversample rfl)

theorem records_prime : Records (prime port) (prime port.recorded) (Follows softwareTrigger) :=
  .write _ _ (.write _ _ (records_one_write _ _))

theorem records_drain (rounds : Nat) :
    Records (drain port rounds) (drain port.recorded rounds) (Drains rounds) := by
  induction rounds with
  | zero => exact records_pure .enough
  | succ rounds ih =>
      rw [drain, drain]
      refine (records_read _).bind ?_ ?_
      · rintro events e rfl
        exact .cut (.count e)
      rintro events shown rfl
      by_cases hshown : shown = 0
      · rw [if_pos hshown, if_pos hshown]
        refine records_pure ?_
        rw [hshown]
        exact .empty
      rw [if_neg hshown, if_neg hshown]
      refine (records_readWords _ _).bind ?_ ?_
      · rintro events e ⟨_, hreads, he⟩
        cases hreads with
        | all => cases he
        | @cut words _ hlength =>
            cases he
            exact .cut (.word (p := ⟨shown, words⟩) _ hlength)
      rintro events kept ⟨_, hreads, hkept⟩
      cases hreads with
      | cut => cases hkept
      | @all words hlength =>
          refine ih.mono fun events' result hdrains => ?_
          exact .round (p := ⟨shown, words⟩) hshown hlength hdrains

theorem records_acquire (watch : Stopwatch) (timeout : Span) (expected : Nat) :
    Records (acquire port watch timeout expected) (acquire port.recorded watch timeout expected)
      Acquires := by
  have htimed := records_acquireFor port watch.timer timeout expected
    (watch.reach timeout.nanoseconds + 1)
  rw [acquireFor_timer watch timeout expected _ (Nat.lt_succ_self _),
    acquireFor_timer watch timeout expected _ (Nat.lt_succ_self _)] at htimed
  refine htimed.of_map_some.mono ?_
  rintro events result ⟨done, cut, rfl, hcourse⟩
  constructor
  · intro event hevent
    rcases List.mem_append.mp hevent with hdone | hcut
    · obtain ⟨p, -, hp⟩ := List.mem_flatMap.mp hdone
      exact Pass.write?_of_mem_events hp
    · obtain ⟨e, -, hcut'⟩ := hcourse.ends.exists_board (List.ne_nil_of_mem hcut)
      exact hcut'.write?_of_mem hcut
  · rintro samples rfl
    exact hcourse.samples_eq

theorem records_measure (port : Port σ) (settings : ScanSettings) (watch : Stopwatch) :
    Records (measure port settings watch) (measure port.recorded settings watch)
      fun events result => ∃ setup drained rest, events = setup ++ drained ++ rest ∧
        Conducts settings setup drained rest result := by
  refine (records_configure settings).bind ?_ ?_
  · intro events e hconfigures
    exact ⟨events, [], [], by simp, .preparing (.configuring hconfigures)⟩
  intro events plan hconfigures
  refine records_prime.access.bind ?_ ?_
  · rintro primed e ⟨answer | _, hfollows, he⟩
    · cases he
      exact ⟨events ++ primed, [], [], by simp, .preparing (.triggering hconfigures hfollows)⟩
    · cases he
  rintro primed ⟨⟩ ⟨_ | _, hfollows, hok⟩
  · cases hok
  have hready : Prepares settings (events ++ primed) (.ok plan) := .ready hconfigures hfollows
  refine (records_drain _).access.bind ?_ ?_
  · rintro drained e ⟨answer | _, hdrains, he⟩
    · cases he
      exact ⟨events ++ primed, drained, [], by simp, .draining hready hdrains⟩
    · cases he
  rintro drained ⟨⟩ ⟨_ | _, hdrains, hok⟩
  · cases hok
  refine .writeThen _ _ ?_ fun answer => ?_
  · intro e
    exact ⟨events ++ primed, drained, [⟨strobe, .error e⟩], by simp [strobe],
      .strobing hready hdrains⟩
  refine (records_acquire watch _ _).bind ?_ ?_
  · intro acquired e hacquires
    exact ⟨events ++ primed, drained, ⟨strobe, .ok answer⟩ :: acquired, by simp [strobe],
      .acquiring hready hdrains hacquires⟩
  · intro acquired samples hacquires
    refine records_pure ⟨events ++ primed, drained, ⟨strobe, .ok answer⟩ :: acquired,
      by simp [strobe], ?_⟩
    exact .acquiring hready hdrains hacquires

section Conducts

variable {settings : ScanSettings} {events setup drained rest : List PortEvent} {plan : ScanPlan}
  {rounds : Nat} {result : Except AcquisitionError Readings}

theorem Configures.accesses_prefix {answer : Except AcquisitionError ScanPlan}
    (h : Configures settings events answer) :
    events.map PortEvent.access <+: configuration settings := by
  cases h with
  | cut h => exact h.accesses_prefix
  | read => exact List.prefix_rfl

theorem Prepares.accesses_prefix {answer : Except AcquisitionError ScanPlan}
    (h : Prepares settings setup answer) :
    setup.map PortEvent.access <+: configuration settings ++ softwareTrigger := by
  cases h with
  | configuring h => exact h.accesses_prefix.trans (List.prefix_append _ _)
  | triggering h h' | ready h h' =>
      cases h
      rw [List.map_append]
      exact (List.prefix_append_right_inj _).mpr h'.accesses_prefix

/-- A scan is ready only after all accesses that prepare it, with a plan from the registers. -/
theorem Prepares.of_ok (h : Prepares settings setup (.ok plan)) :
    ∃ reduced first last oversample disabled cleared armed,
      setup = [⟨.write Register.reduction settings.reduction.toUInt32, .ok reduced⟩,
        .read Register.startChannel first, .read Register.endChannel last,
        .read Register.oversamples oversample,
        ⟨.write Register.trigger Trigger.disabled, .ok disabled⟩,
        ⟨.write Register.trigger Trigger.clear, .ok cleared⟩,
        ⟨.write Register.trigger Trigger.software, .ok armed⟩] ∧
      ScanPlan.make first.toUInt8 last.toUInt8 oversample.toUInt8 = .ok plan := by
  cases h with
  | ready h h' =>
      obtain ⟨disabled, _, rfl, hclear⟩ := h'.exists_of_ok
      obtain ⟨cleared, _, rfl, harm⟩ := hclear.exists_of_ok
      obtain ⟨armed, _, rfl, hend⟩ := harm.exists_of_ok
      obtain rfl := hend.eq_nil
      cases h with
      | read reduced first last oversample hmake =>
          exact ⟨reduced, first, last, oversample, disabled, cleared, armed, rfl, hmake⟩

theorem Drains.write?_of_mem {answer : Except BoardError Unit} {event : PortEvent}
    (h : Drains rounds events answer) (hevent : event ∈ events) : event.write? = none := by
  induction h with
  | enough => cases hevent
  | empty =>
      rw [List.mem_singleton.mp hevent]
      rfl
  | cut hcut => exact hcut.write?_of_mem hevent
  | round _ _ _ ih =>
      rcases List.mem_append.mp hevent with hp | hrest
      · exact Pass.write?_of_mem_events hp
      · exact ih hrest

theorem Drains.done_of_ok (h : Drains rounds events (.ok ())) :
    ∀ event ∈ events, event.isDone = true := by
  generalize hanswer : Except.ok () = answer at h
  induction h with
  | enough => simp
  | empty => simp [PortEvent.isDone, PortEvent.read, Except.isOk, Except.toBool]
  | cut => cases hanswer
  | @round _ p _ _ _ _ _ ih =>
      intro event hevent
      rcases List.mem_append.mp hevent with hp | hrest
      · exact Pass.done_of_mem_events hp
      · exact ih hanswer event hrest

/-- A scan writes in a fixed order and stops somewhere. -/
theorem Conducts.writes_prefix (h : Conducts settings setup drained rest result) :
    (setup ++ drained ++ rest).filterMap PortEvent.write? <+:
      [(Register.reduction, settings.reduction.toUInt32), (Register.trigger, Trigger.disabled),
        (Register.trigger, Trigger.clear), (Register.trigger, Trigger.software),
        (Register.softwareStart, 1)] := by
  have hready {plan : ScanPlan} (h : Prepares settings setup (.ok plan)) :
      setup.filterMap PortEvent.write? =
        [(Register.reduction, settings.reduction.toUInt32), (Register.trigger, Trigger.disabled),
          (Register.trigger, Trigger.clear), (Register.trigger, Trigger.software)] := by
    obtain ⟨_, _, _, _, _, _, _, rfl, -⟩ := h.of_ok
    rfl
  have hdrained {answer : Except BoardError Unit} (h : Drains drainRounds drained answer) :
      drained.filterMap PortEvent.write? = [] :=
    List.filterMap_eq_nil_iff.mpr fun event => h.write?_of_mem
  have hstrobe (answer : PortAnswer) :
      (PortEvent.mk strobe answer).write? = some (Register.softwareStart, 1) := rfl
  rw [List.filterMap_append, List.filterMap_append]
  cases h with
  | preparing h =>
      have hprefix := h.accesses_prefix.filterMap PortAccess.write?
      rw [List.filterMap_map] at hprefix
      rw [List.filterMap_nil, List.append_nil, List.append_nil]
      exact hprefix.trans ⟨[(Register.softwareStart, 1)], rfl⟩
  | draining h h' =>
      rw [hready h, hdrained h']
      exact ⟨[(Register.softwareStart, 1)], rfl⟩
  | strobing h h' =>
      rw [hready h, hdrained h']
      exact ⟨[], rfl⟩
  | acquiring h h' hacquires =>
      rw [hready h, hdrained h', List.filterMap_cons_some (hstrobe _),
        List.filterMap_eq_nil_iff.mpr hacquires.reads]
      exact ⟨[], rfl⟩

theorem Conducts.setup_access (h : Conducts settings setup drained rest result)
    {event : PortEvent} (hevent : event ∈ setup) :
    event.access ≠ .read Register.fifoData ∧ event.access ≠ strobe := by
  have hprefix : setup.map PortEvent.access <+: configuration settings ++ softwareTrigger := by
    cases h with
    | preparing h | draining h _ | strobing h _ | acquiring h _ _ => exact h.accesses_prefix
  have hmem := hprefix.subset (List.mem_map_of_mem hevent)
  simp only [configuration, softwareTrigger, List.cons_append, List.nil_append, List.mem_cons,
    List.not_mem_nil, or_false] at hmem
  rcases hmem with h | h | h | h | h | h | h <;> rw [h] <;>
    simp [strobe, Register.reduction, Register.startChannel, Register.endChannel,
      Register.oversamples, Register.trigger, Register.softwareStart, Register.fifoData]

/-- The FIFO is emptied only after all accesses that prepare the scan. -/
theorem Conducts.drained_after_setup (h : Conducts settings setup drained rest result) :
    drained = [] ∨ setup.map PortEvent.access = configuration settings ++ softwareTrigger ∧
      ∃ answer, Drains drainRounds drained answer := by
  have hready {plan : ScanPlan} (h : Prepares settings setup (.ok plan)) :
      setup.map PortEvent.access = configuration settings ++ softwareTrigger := by
    obtain ⟨_, _, _, _, _, _, _, rfl, -⟩ := h.of_ok
    rfl
  cases h with
  | preparing => exact .inl rfl
  | draining h h' | strobing h h' | acquiring h h' => exact .inr ⟨hready h, _, h'⟩

theorem Conducts.not_strobe (h : Conducts settings setup drained rest result) {event : PortEvent}
    (hevent : event ∈ setup ++ drained) : event.access ≠ strobe := by
  rcases List.mem_append.mp hevent with hsetup | hdrained
  · exact (h.setup_access hsetup).2
  · intro hstrobe
    obtain rfl | ⟨-, answer, hdrains⟩ := h.drained_after_setup
    · cases hdrained
    · have hwrite := hdrains.write?_of_mem hdrained
      rw [PortEvent.write?, hstrobe] at hwrite
      cases hwrite

/-- What is known when the board is strobed: everything went well, and the plan is in order. -/
theorem Prepares.done_of_ok (h : Prepares settings setup (.ok plan)) :
    (∀ event ∈ setup, event.isDone = true) ∧
      ∃ first last oversample, setup.filterMap (PortEvent.word? Register.startChannel) = [first] ∧
        setup.filterMap (PortEvent.word? Register.endChannel) = [last] ∧
        setup.filterMap (PortEvent.word? Register.oversamples) = [oversample] ∧
        first.toUInt8 ≤ last.toUInt8 ∧
        ScanPlan.make first.toUInt8 last.toUInt8 oversample.toUInt8 = .ok plan := by
  obtain ⟨_, first, last, oversample, _, _, _, rfl, hmake⟩ := h.of_ok
  refine ⟨?_, first, last, oversample, rfl, rfl, rfl, ?_, hmake⟩
  · simp [PortEvent.isDone, PortEvent.read, Except.isOk, Except.toBool]
  · rw [ScanPlan.make] at hmake
    split at hmake
    · assumption
    · cases hmake

/-- A scan fails before the strobe, or it shows what it reads after it. -/
theorem Conducts.strobed (h : Conducts settings setup drained rest result) :
    (rest = [] ∧ ∃ e, result = .error e) ∨
      ∃ plan answer after, rest = ⟨strobe, answer⟩ :: after ∧
        Prepares settings setup (.ok plan) ∧ Drains drainRounds drained (.ok ()) ∧
        ∀ readings, result = .ok readings → readings = Readings.ofSamples plan
          (Sample.valid (after.filterMap (PortEvent.word? Register.fifoData))) := by
  cases h with
  | preparing | draining => exact .inl ⟨rfl, _, rfl⟩
  | strobing h h' => exact .inr ⟨_, _, _, rfl, h, h', by simp⟩
  | acquiring h h' hacquires =>
      refine .inr ⟨_, _, _, rfl, h, h', ?_⟩
      intro readings hreadings
      rename_i collected
      cases collected with
      | error e => cases hreadings
      | ok samples =>
          rw [← hacquires.samples samples rfl]
          exact (Except.ok.inj hreadings).symm

end Conducts

/-- A scan of a converter that is held makes no access. Any other scan gives the converter back,
writes in a fixed order, strobes the board only after everything before was done, with a last
channel that is not before the first, and shows nothing that it read before the strobe, where the
FIFO is read only to empty it. -/
theorem keeps_protocol (port : Port σ) (settings : ScanSettings) (watch : Stopwatch)
    (arbiter : Arbiter) (s : σ) :
    match arbiter.owner with
    | some owner =>
        run port settings watch arbiter s = (.error (.adcBusy owner), arbiter, s) ∧
        run port.recorded settings watch arbiter (s, []) =
          (.error (.adcBusy owner), arbiter, (s, []))
    | none => ∃ result board setup drained rest,
        run port settings watch arbiter s = (result, .idle, board) ∧
        run port.recorded settings watch arbiter (s, []) =
          (result, .idle, (board, setup ++ drained ++ rest)) ∧
        (setup ++ drained ++ rest).filterMap PortEvent.write? <+:
          [(Register.reduction, settings.reduction.toUInt32), (Register.trigger, 0x00),
            (Register.trigger, 0x80), (Register.trigger, 0x01), (Register.softwareStart, 1)] ∧
        (∀ event ∈ setup, event.access ≠ .read Register.fifoData) ∧
        (drained = [] ∨ setup.map PortEvent.access = configuration settings ++ softwareTrigger ∧
          ∃ answer, Drains drainRounds drained answer) ∧
        (∀ event ∈ setup ++ drained, event.access ≠ .write Register.softwareStart 1) ∧
        ((rest = [] ∧ ∃ e, result = .error e) ∨
          ∃ plan first last oversample answer after,
            rest = ⟨.write Register.softwareStart 1, answer⟩ :: after ∧
            (∀ event ∈ setup ++ drained, event.isDone = true) ∧
            setup.filterMap (PortEvent.word? Register.startChannel) = [first] ∧
            setup.filterMap (PortEvent.word? Register.endChannel) = [last] ∧
            setup.filterMap (PortEvent.word? Register.oversamples) = [oversample] ∧
            first.toUInt8 ≤ last.toUInt8 ∧
            ScanPlan.make first.toUInt8 last.toUInt8 oversample.toUInt8 = .ok plan ∧
            ∀ readings, result = .ok readings → readings = Readings.ofSamples plan
              (Sample.valid (after.filterMap (PortEvent.word? Register.fifoData)))) := by
  split
  · rename_i owner howner
    have hrefused : arbiter.beginScan = .error (.adcBusy owner) := by rw [Arbiter.beginScan, howner]
    constructor <;> rw [run, hrefused]
  · rename_i howner
    have hclaimed : arbiter.beginScan = .ok ⟨some .scan⟩ := by rw [Arbiter.beginScan, howner]
    obtain ⟨_, hrecorded, setup, drained, rest, rfl, hconducts⟩ :=
      records_measure port settings watch s []
    rcases hmeasure : measure port settings watch s with ⟨result, board⟩
    rw [hmeasure] at hrecorded hconducts
    refine ⟨result, board, setup, drained, rest, ?_, ?_, hconducts.writes_prefix,
      fun event hevent => (hconducts.setup_access hevent).1, hconducts.drained_after_setup,
      fun event hevent => hconducts.not_strobe hevent, ?_⟩
    · rw [run, hclaimed]
      dsimp only
      rw [hmeasure]
      rfl
    · rw [run, hclaimed]
      dsimp only
      rw [hrecorded]
      rfl
    · obtain hrest | ⟨plan, answer, after, rfl, hready, hdrains, hshown⟩ := hconducts.strobed
      · exact .inl hrest
      · obtain ⟨hsetup, first, last, oversample, hfirst, hlast, hoversample, hle, hmake⟩ :=
          hready.done_of_ok
        refine .inr ⟨plan, first, last, oversample, answer, after, rfl, ?_, hfirst, hlast,
          hoversample, hle, hmake, hshown⟩
        exact List.forall_mem_append.mpr ⟨hsetup, hdrains.done_of_ok⟩

/-- A board whose last channel lies before the first is told the reduction and nothing else. -/
example : (run ScriptedBoard.port.recorded hastySettings (.steady 1 1 Nat.one_pos) .idle
    (⟨[], [], [(Register.startChannel, 5), (Register.endChannel, 3)], none, none, 0, 0, 0, []⟩,
      [])).2.2.2.filterMap PortEvent.write? = [(Register.reduction, 0)] := rfl

end Scan

end DaqServer
