import DaqServer.Board.Scripted
import DaqServer.Proofs.Scan.Buckets
import DaqServer.Proofs.Scan.Record
import DaqServer.Scan.Passes

/-!
# All samples or none

`Collects` follows an acquisition from one pass to the next, whatever the registers answer and
whatever the clock shows. Main statement: an acquisition that succeeds gives all samples that the
FIFO gave, as many as were asked for; it reads no word too many; and it gives up only when the time
is over, in the pass that finds it so.
-/

namespace DaqServer

namespace Sample

@[simp] theorem valid_nil : valid [] = [] := rfl

theorem valid_cons (raw : UInt32) (words : List UInt32) :
    valid (raw :: words) = if isInvalid raw then valid words else raw :: valid words := by
  cases h : isInvalid raw <;> simp [valid, h]

theorem valid_append (words words' : List UInt32) :
    valid (words ++ words') = valid words ++ valid words' := List.filter_append ..

theorem length_valid_le (words : List UInt32) : (valid words).length ≤ words.length :=
  List.length_filter_le ..

theorem isInvalid_of_mem_valid {raw : UInt32} {words : List UInt32} (h : raw ∈ valid words) :
    isInvalid raw = false := by
  simpa using (List.mem_filter.mp h).2

end Sample

namespace Pass

variable {p : Pass} {before : List Pass}

@[simp] theorem samples_nil : samples [] = [] := rfl

theorem samples_snoc (before : List Pass) (p : Pass) :
    samples (before ++ [p]) = samples before ++ Sample.valid p.words := by
  simp [samples, Sample.valid_append]

theorem accesses_snoc (before : List Pass) (p : Pass) :
    accesses (before ++ [p]) = accesses before + 1 + p.words.length := by
  simp only [accesses, List.length_append, List.flatMap_append, List.flatMap_singleton,
    List.length_singleton]
  omega

theorem pauses_snoc (before : List Pass) (p : Pass) :
    pauses (before ++ [p]) = if p.shown = 0 then pauses before + 1 else pauses before := by
  by_cases h : p.shown = 0 <;> simp [pauses, h]

theorem events_append (shown : UInt32) (words : List UInt32) (events : List PortEvent) :
    .read Register.fifoCount shown :: (words.map (.read Register.fifoData) ++ events) =
      Pass.events ⟨shown, words⟩ ++ events := rfl

theorem start_le_look (timer : Timer) (before : List Pass) (p : Pass) :
    timer.start before ≤ timer.look before p := by
  refine timer.monotone ?_ (Nat.le_refl _)
  rw [accesses_snoc]
  omega

/-- The words that passes read are those that reads of the FIFO gave. -/
theorem words_events (passes : List Pass) :
    (passes.flatMap events).filterMap (PortEvent.word? Register.fifoData) =
      passes.flatMap words := by
  have hword (word : UInt32) :
      (PortEvent.read Register.fifoData word).word? Register.fifoData = some word := rfl
  have hcount (word : UInt32) :
      (PortEvent.read Register.fifoCount word).word? Register.fifoData = none := rfl
  induction passes with
  | nil => rfl
  | cons p passes ih =>
      rw [List.flatMap_cons, List.flatMap_cons, List.filterMap_append, ih, events,
        List.filterMap_cons_none (hcount _), List.filterMap_map]
      rw [show PortEvent.word? Register.fifoData ∘ PortEvent.read Register.fifoData = some from
        funext hword, List.filterMap_some]

theorem length_le_accesses (passes : List Pass) : passes.length ≤ accesses passes :=
  Nat.le_add_right ..

theorem write?_of_mem_events {event : PortEvent} (h : event ∈ p.events) : event.write? = none := by
  rcases List.mem_cons.mp h with rfl | h
  · rfl
  · obtain ⟨word, -, rfl⟩ := List.mem_map.mp h
    rfl

theorem done_of_mem_events {event : PortEvent} (h : event ∈ p.events) : event.isDone = true := by
  rcases List.mem_cons.mp h with rfl | h
  · rfl
  · obtain ⟨word, -, rfl⟩ := List.mem_map.mp h
    rfl

/-- The events of a pass that a failed access cuts off. A pass may read as many words as `limit`
says of the count. -/
inductive Cut (limit : UInt32 → Nat) : List PortEvent → BoardError → Prop
  | count (e : BoardError) : Cut limit [⟨.read Register.fifoCount, .error e⟩] e
  | word {p : Pass} (e : BoardError) : p.words.length < limit p.shown →
      Cut limit (p.events ++ [⟨.read Register.fifoData, .error e⟩]) e

theorem Cut.write?_of_mem {limit : UInt32 → Nat} {events : List PortEvent} {e : BoardError}
    {event : PortEvent} (h : Cut limit events e) (hevent : event ∈ events) :
    event.write? = none := by
  cases h with
  | count =>
      rw [List.mem_singleton.mp hevent]
      rfl
  | word =>
      rcases List.mem_append.mp hevent with hp | hlast
      · exact write?_of_mem_events hp
      · rw [List.mem_singleton.mp hlast]
        rfl

end Pass

namespace Scan

variable {σ : Type} {port : Port σ}

/-- The events of reading words from the FIFO, up to the first read that fails. -/
inductive Reads (count : Nat) : List PortEvent → Except BoardError (List UInt32) → Prop
  | all (words : List UInt32) : words.length = count →
      Reads count (words.map (.read Register.fifoData)) (.ok words)
  | cut (words : List UInt32) (e : BoardError) : words.length < count →
      Reads count (words.map (.read Register.fifoData) ++ [⟨.read Register.fifoData, .error e⟩])
        (.error e)

theorem Reads.cons {count : Nat} {events : List PortEvent}
    {answer : Except BoardError (List UInt32)} (raw : UInt32) (h : Reads count events answer) :
    Reads (count + 1) (.read Register.fifoData raw :: events) (answer.map (raw :: ·)) := by
  cases h with
  | all words hlength => exact .all (raw :: words) (congrArg (· + 1) hlength)
  | cut words e hlength => exact .cut (raw :: words) e (Nat.succ_lt_succ hlength)

theorem records_readWords (count : Nat) (kept : Array UInt32) :
    Records (readWords port count kept) (readWords port.recorded count kept)
      fun events result => ∃ answer, Reads count events answer ∧
        result = answer.map fun words => kept ++ (Sample.valid words).toArray := by
  induction count generalizing kept with
  | zero => exact records_pure ⟨.ok [], .all [] rfl, by simp [Except.map]⟩
  | succ count ih =>
      refine (records_read _).bind ?_ ?_
      · rintro events e rfl
        exact ⟨_, .cut [] e (Nat.succ_pos count), rfl⟩
      · rintro events raw rfl
        refine (ih _).mono ?_
        rintro events result ⟨answer, hreads, rfl⟩
        refine ⟨_, hreads.cons raw, ?_⟩
        cases answer with
        | error e => rfl
        | ok words =>
            cases hraw : Sample.isInvalid raw <;> simp [Except.map, Sample.valid_cons, hraw]

/-- What an acquisition may do after some passes, with the number of passes that it is followed for:
its events and how it ends. There is no result if it goes on after that. -/
inductive Collects (timer : Timer) (timeout : Span) (expected : Nat) :
    Nat → List Pass → List PortEvent → Except AcquisitionError (Option (List UInt32)) → Prop
  | goesOn {before : List Pass} : Collects timer timeout expected 0 before [] (.ok none)
  | cut {left : Nat} {before : List Pass} {events : List PortEvent} {e : BoardError} :
      Pass.Cut (fun shown => min shown.toNat (expected - (Pass.samples before).length)) events e →
      Collects timer timeout expected (left + 1) before events (.error (.board e))
  | complete {left : Nat} {before : List Pass} {p : Pass} :
      p.words.length = min p.shown.toNat (expected - (Pass.samples before).length) →
      expected ≤ (Pass.samples (before ++ [p])).length →
      Collects timer timeout expected (left + 1) before p.events
        (.ok (some (Pass.samples (before ++ [p]))))
  | late {left : Nat} {before : List Pass} {p : Pass} :
      p.words.length = min p.shown.toNat (expected - (Pass.samples before).length) →
      (Pass.samples (before ++ [p])).length < expected →
      timeout.nanoseconds ≤ timer.look before p →
      Collects timer timeout expected (left + 1) before p.events
        (.error (.scanTimeout expected (Pass.samples (before ++ [p])).length
          ⟨timer.look before p⟩))
  | next {left : Nat} {before : List Pass} {p : Pass} {events : List PortEvent}
      {result : Except AcquisitionError (Option (List UInt32))} :
      p.words.length = min p.shown.toNat (expected - (Pass.samples before).length) →
      (Pass.samples (before ++ [p])).length < expected →
      timer.look before p < timeout.nanoseconds →
      Collects timer timeout expected left (before ++ [p]) events result →
      Collects timer timeout expected (left + 1) before (p.events ++ events) result

theorem records_collectFor (timer : Timer) (timeout : Span) (expected passes : Nat)
    (before : List Pass) (kept : Array UInt32) (hkept : kept.toList = Pass.samples before) :
    Records
      (collectFor port timer timeout expected passes (Pass.accesses before) (Pass.pauses before)
        kept)
      (collectFor port.recorded timer timeout expected passes (Pass.accesses before)
        (Pass.pauses before) kept)
      fun events result => Collects timer timeout expected passes before events
        (result.map (Option.map Array.toList)) := by
  induction passes generalizing before kept with
  | zero => exact records_pure .goesOn
  | succ passes ih =>
      have hsize : kept.size = (Pass.samples before).length := by rw [← hkept, Array.length_toList]
      rw [collectFor, collectFor]
      refine .readThen _ (fun e => .cut (.count e)) fun shown => ?_
      rw [hsize]
      refine (records_readWords _ _).access.bind ?_ ?_
      · rintro events e ⟨_, ⟨answer, hreads, rfl⟩, he⟩
        cases hreads with
        | all => cases he
        | @cut words e' hlength =>
            cases he
            exact .cut (.word (p := ⟨shown, words⟩) e' hlength)
      rintro events kept' ⟨_, ⟨answer, hreads, rfl⟩, hkept'⟩
      cases hreads with
      | cut => cases hkept'
      | @all words hlength =>
          obtain rfl := Except.ok.inj hkept'
          have hsamples : (kept ++ (Sample.valid words).toArray).toList =
              Pass.samples (before ++ [⟨shown, words⟩]) := by
            rw [Pass.samples_snoc, Array.toList_append, hkept]
          have hsize' : (kept ++ (Sample.valid words).toArray).size =
              (Pass.samples (before ++ [⟨shown, words⟩])).length := by
            rw [← hsamples, Array.length_toList]
          have haccesses : Pass.accesses before + 1 +
              min shown.toNat (expected - (Pass.samples before).length) =
                Pass.accesses (before ++ [⟨shown, words⟩]) := by
            rw [Pass.accesses_snoc, ← hlength]
          have hpauses := Pass.pauses_snoc before ⟨shown, words⟩
          dsimp only at hpauses
          rw [hsize', haccesses, ← hpauses]
          show Records
            (if _ then _
              else if timer.look before ⟨shown, words⟩ < timeout.nanoseconds then _ else _)
            (if _ then _
              else if timer.look before ⟨shown, words⟩ < timeout.nanoseconds then _ else _)
            _
          by_cases hall : expected ≤ (Pass.samples (before ++ [⟨shown, words⟩])).length
          · rw [if_pos hall, if_pos hall]
            refine records_pure ?_
            have hcomplete : Collects timer timeout expected (passes + 1) before
              (Pass.events ⟨shown, words⟩) _ := .complete hlength hall
            rw [Pass.events_append, List.append_nil]
            simpa [Except.map, hsamples] using hcomplete
          rw [if_neg hall, if_neg hall]
          by_cases htime : timer.look before ⟨shown, words⟩ < timeout.nanoseconds
          · rw [if_pos htime, if_pos htime]
            refine (ih _ _ hsamples).mono ?_
            intro events result hnext
            rw [Pass.events_append]
            exact .next hlength (Nat.lt_of_not_le hall) htime hnext
          · rw [if_neg htime, if_neg htime]
            refine records_throw ?_
            rw [Pass.events_append, List.append_nil]
            exact .late hlength (Nat.lt_of_not_le hall) (Nat.le_of_not_lt htime)

/-- How an acquisition ends after its whole passes, with the events of a pass that is cut off. The
time that is over is the one that the timer shows after the last whole pass. -/
def Ends (timer : Timer) (timeout : Span) (expected : Nat) (done : List Pass)
    (cut : List PortEvent) : Except AcquisitionError (Option (List UInt32)) → Prop
  | .ok none => cut = []
  | .ok (some samples) => cut = [] ∧ samples = Pass.samples done ∧ samples.length = expected
  | .error (.board e) =>
      Pass.Cut (fun shown => min shown.toNat (expected - (Pass.samples done).length)) cut e
  | .error (.scanTimeout total received elapsed) =>
      cut = [] ∧ total = expected ∧ received = (Pass.samples done).length ∧ received < expected ∧
        timeout.nanoseconds ≤ elapsed.nanoseconds ∧
        ∃ before p, done = before ++ [p] ∧ elapsed.nanoseconds = timer.look before p
  | .error _ => False

/-- Only a failed access cuts a pass off. -/
theorem Ends.exists_board {timer : Timer} {timeout : Span} {expected : Nat} {done : List Pass}
    {cut : List PortEvent} {result : Except AcquisitionError (Option (List UInt32))}
    (h : Ends timer timeout expected done cut result) (hcut : cut ≠ []) :
    ∃ e, result = .error (.board e) ∧
      Pass.Cut (fun shown => min shown.toNat (expected - (Pass.samples done).length)) cut e := by
  unfold Ends at h
  split at h
  · exact absurd h hcut
  · exact absurd h.1 hcut
  · exact ⟨_, rfl, h⟩
  · exact absurd h.1 hcut
  · exact h.elim

/-- With no pass cut off an acquisition fails by its time being over. -/
theorem Ends.exists_timeout {timer : Timer} {timeout : Span} {expected received : Nat}
    {done : List Pass} {cut : List PortEvent} {e : AcquisitionError}
    (h : Ends timer timeout expected done cut (.error e)) (hcut : cut = [])
    (hreceived : (Pass.samples done).length = received) :
    ∃ elapsed, e = .scanTimeout expected received elapsed := by
  cases e with
  | board e =>
      obtain ⟨⟩ | ⟨e, hlt⟩ : Pass.Cut _ cut e := h
      · cases hcut
      · exact absurd hcut (List.append_ne_nil_of_right_ne_nil _ (List.cons_ne_nil _ _))
  | scanTimeout total count elapsed =>
      obtain ⟨-, rfl, rfl, -⟩ := h
      exact ⟨elapsed, hreceived ▸ rfl⟩
  | _ => exact False.elim h

/-- The whole passes of an acquisition that goes on after the passes `before`, and its end. -/
structure Course (timer : Timer) (timeout : Span) (expected passes : Nat)
    (before done : List Pass) (cut : List PortEvent)
    (result : Except AcquisitionError (Option (List UInt32))) : Prop where
  bounded : ∀ {b p a}, done = b ++ p :: a →
    p.words.length = min p.shown.toNat (expected - (Pass.samples (before ++ b)).length)
  last : ∀ {b p a}, done = b ++ p :: a → timeout.nanoseconds ≤ timer.look (before ++ b) p →
    a = [] ∧ cut = []
  unfinished : result = .ok none → done.length = passes ∧
    ∀ {b p a}, done = b ++ p :: a → timer.look (before ++ b) p < timeout.nanoseconds
  ends : Ends timer timeout expected (before ++ done) cut result

section Course

variable {timer : Timer} {timeout : Span} {expected passes : Nat} {before done : List Pass}
  {cut : List PortEvent} {result : Except AcquisitionError (Option (List UInt32))} {p : Pass}

theorem course_nil (hends : Ends timer timeout expected before cut result)
    (hresult : result = .ok none → passes = 0) :
    Course timer timeout expected passes before [] cut result where
  bounded h := absurd h.symm (List.append_ne_nil_of_right_ne_nil _ (List.cons_ne_nil _ _))
  last h := absurd h.symm (List.append_ne_nil_of_right_ne_nil _ (List.cons_ne_nil _ _))
  unfinished h := ⟨(hresult h).symm,
    fun h => absurd h.symm (List.append_ne_nil_of_right_ne_nil _ (List.cons_ne_nil _ _))⟩
  ends := by rwa [List.append_nil]

/-- A pass before the others. It is in time, or there are none. -/
theorem Course.cons (h : Course timer timeout expected passes (before ++ [p]) done cut result)
    (hlength : p.words.length = min p.shown.toNat (expected - (Pass.samples before).length))
    (hlook : timer.look before p < timeout.nanoseconds ∨
      done = [] ∧ cut = [] ∧ result ≠ .ok none) :
    Course timer timeout expected (passes + 1) before (p :: done) cut result where
  bounded := by
    intro b q a hsplit
    rcases List.cons_eq_append_iff.mp hsplit with ⟨rfl, hcons⟩ | ⟨b', rfl, hdone⟩
    · obtain ⟨rfl, -⟩ := List.cons.inj hcons
      rwa [List.append_nil]
    · simpa using h.bounded hdone
  last := by
    intro b q a hsplit hlate
    rcases List.cons_eq_append_iff.mp hsplit with ⟨rfl, hcons⟩ | ⟨b', rfl, hdone⟩
    · obtain ⟨rfl, rfl⟩ := List.cons.inj hcons
      rw [List.append_nil] at hlate
      rcases hlook with hlook | ⟨hdone, hcut, -⟩
      · omega
      · exact ⟨hdone, hcut⟩
    · exact h.last hdone (by simpa using hlate)
  unfinished := by
    intro hresult
    rcases hlook with hlook | ⟨-, -, hne⟩
    · obtain ⟨hpasses, hearly⟩ := h.unfinished hresult
      refine ⟨congrArg (· + 1) hpasses, ?_⟩
      intro b q a hsplit
      rcases List.cons_eq_append_iff.mp hsplit with ⟨rfl, hcons⟩ | ⟨b', rfl, hdone⟩
      · obtain ⟨rfl, -⟩ := List.cons.inj hcons
        rwa [List.append_nil]
      · simpa using hearly hdone
    · exact absurd hresult hne
  ends := by simpa using h.ends

theorem Course.samples_eq {samples : List UInt32}
    (h : Course timer timeout expected passes [] done cut (.ok (some samples))) :
    samples = Sample.valid ((done.flatMap Pass.events ++ cut).filterMap
      (PortEvent.word? Register.fifoData)) := by
  obtain ⟨hcut, hsamples, -⟩ := h.ends
  rw [hsamples, hcut, List.append_nil, Pass.words_events, List.nil_append, Pass.samples]

/-- An acquisition that is still going on has not been overtaken by the clock. -/
theorem Course.reading_lt (h : Course timer timeout expected passes [] done cut result) {a : Nat}
    (ha : a < passes) (hresult : result = .ok none) :
    timer.reading a 0 < timeout.nanoseconds := by
  obtain ⟨hlength, hearly⟩ := h.unfinished hresult
  rcases List.eq_nil_or_concat done with rfl | ⟨before, p, rfl⟩
  · rw [← hlength] at ha
    exact absurd ha (Nat.not_lt_zero a)
  · rw [List.concat_eq_append] at hlength hearly
    have haccesses := Pass.length_le_accesses (before ++ [p])
    have hmonotone : timer.reading a 0 ≤ timer.look before p :=
      timer.monotone (by omega) (Nat.zero_le _)
    have hlook := hearly (b := before) (p := p) (a := []) rfl
    exact Nat.lt_of_le_of_lt hmonotone hlook

end Course

theorem Collects.course {timer : Timer} {timeout : Span} {expected passes : Nat}
    {before : List Pass} {events : List PortEvent}
    {result : Except AcquisitionError (Option (List UInt32))}
    (h : Collects timer timeout expected passes before events result)
    (hbefore : (Pass.samples before).length ≤ expected) :
    ∃ done cut, events = done.flatMap Pass.events ++ cut ∧
      Course timer timeout expected passes before done cut result := by
  induction h with
  | goesOn => exact ⟨[], [], rfl, course_nil rfl fun _ => rfl⟩
  | cut hcut => exact ⟨[], _, rfl, course_nil hcut fun h => by cases h⟩
  | @complete left before p hlength hall =>
      have hwords := Sample.length_valid_le p.words
      have hexact : (Pass.samples (before ++ [p])).length = expected := by
        rw [Pass.samples_snoc, List.length_append] at hall ⊢
        omega
      refine ⟨[p], [], by simp, ?_⟩
      refine (course_nil ?_ ?_).cons hlength (.inr ⟨rfl, rfl, by simp⟩)
      · exact ⟨rfl, rfl, hexact⟩
      · intro h
        cases h
  | @late left before p hlength hmissing hlate =>
      refine ⟨[p], [], by simp, ?_⟩
      refine (course_nil ?_ ?_).cons hlength (.inr ⟨rfl, rfl, by simp⟩)
      · exact ⟨rfl, rfl, rfl, hmissing, hlate, before, p, rfl, rfl⟩
      · intro h
        cases h
  | @next left before p events result hlength hmissing hlook _ ih =>
      obtain ⟨done, cut, rfl, hcourse⟩ := ih (Nat.le_of_lt hmissing)
      exact ⟨p :: done, cut, by simp, hcourse.cons hlength (.inl hlook)⟩

theorem records_acquireFor (port : Port σ) (timer : Timer) (timeout : Span)
    (expected passes : Nat) :
    Records (acquireFor port timer timeout expected passes)
      (acquireFor port.recorded timer timeout expected passes)
      fun events result => ∃ done cut, events = done.flatMap Pass.events ++ cut ∧
        Course timer timeout expected passes [] done cut result := by
  rw [acquireFor, acquireFor]
  split
  · rename_i hexpected
    exact records_pure ⟨[], [], rfl, course_nil ⟨rfl, rfl, hexpected.symm⟩ (by simp)⟩
  · refine (records_collectFor timer _ expected passes [] #[] rfl).bind ?_ ?_
    · intro events e hcollects
      exact hcollects.course (Nat.zero_le _)
    · intro events samples hcollects
      refine records_pure ?_
      rw [List.append_nil]
      exact hcollects.course (Nat.zero_le _)

/-- By a stopwatch an acquisition has ended after enough passes. -/
theorem collectFor_timer (watch : Stopwatch) (timeout : Span)
    (expected passes accesses pauses : Nat)
    (kept : Array UInt32) (hpasses : watch.reach timeout.nanoseconds - accesses < passes) :
    collectFor port watch.timer timeout expected passes accesses pauses kept =
      some <$> collect port watch timeout expected accesses pauses kept := by
  induction passes generalizing accesses pauses kept with
  | zero => exact absurd hpasses (Nat.not_lt_zero _)
  | succ passes ih =>
      rw [collectFor, collect, map_bind]
      refine bind_congr fun available => ?_
      rw [map_bind]
      refine bind_congr fun kept' => ?_
      by_cases hall : expected ≤ kept'.size
      · rw [if_pos hall, if_pos hall, map_pure]
      rw [if_neg hall, if_neg hall]
      dsimp only
      by_cases hlook : watch.reading (accesses + 1 + min available.toNat (expected - kept.size))
          pauses < timeout.nanoseconds
      · have hreach := watch.lt_reach_of_reading_lt hlook
        rw [if_pos (show watch.timer.reading _ pauses < _ from hlook), dif_pos hlook]
        exact ih _ _ _ (by omega)
      · rw [if_neg (show ¬watch.timer.reading _ pauses < _ from hlook), dif_neg hlook]
        rfl

theorem acquireFor_timer (watch : Stopwatch) (timeout : Span) (expected passes : Nat)
    (hpasses : watch.reach timeout.nanoseconds < passes) :
    acquireFor port watch.timer timeout expected passes =
      some <$> acquire port watch timeout expected := by
  rw [acquireFor, acquire]
  split
  · rw [map_pure]
  · rw [map_bind, collectFor_timer watch _ expected passes 0 0 #[] hpasses, bind_map_left]
    rfl

theorem acquireAllowedFor_eq (port : Port σ) {settings : ScanSettings} (timer : Timer)
    {expected : Nat} {timeout : Span} (h : settings.timeoutFor expected = some timeout)
    (passes : Nat) :
    acquireAllowedFor port settings timer expected passes =
      Trapping.total (acquireFor port timer timeout expected passes) := by
  rw [acquireAllowedFor, allowance_eq h, Trapping.check_ok, pure_bind]

/-- Whatever the registers answer and the clock shows, an acquisition gives all samples or none.
What it gives is every valid word that it read, in order; a pass reads no more words than the board
reports or than are missing. It fails only by a failed access, or when the timer, looked at after
its last pass, shows that the time is over with samples missing; as soon as a look shows that, no
further pass is made. A clock that passes the time ends it, and on a stopwatch it is the acquisition
of a scan. Where the time allowed is beyond the longest span, it stops before the first access. -/
theorem acquires_all_or_none (port : Port σ) (settings : ScanSettings) (timer : Timer)
    (expected passes : Nat) (s : σ) :
    match settings.timeoutFor expected with
    | none => acquireAllowedFor port settings timer expected passes s = .error .span
    | some timeout =>
      ∃ (result : Except AcquisitionError (Option (List UInt32))) (s' : σ) (done : List Pass)
          (cut : List PortEvent),
        let events := done.flatMap Pass.events ++ cut
        let received := Sample.valid (events.filterMap (PortEvent.word? Register.fifoData))
        acquireAllowedFor port settings timer expected passes s = .ok (result, s') ∧
        acquireAllowedFor port.recorded settings timer expected passes (s, []) =
          .ok (result, s', events) ∧
        (∀ samples, result = .ok (some samples) →
          samples = received ∧ samples.length = expected ∧
            ∀ raw ∈ samples, Sample.isInvalid raw = false) ∧
        (∀ before p after, done = before ++ p :: after →
          p.words.length ≤ p.shown.toNat ∧
            p.words.length ≤ expected - (Pass.samples before).length) ∧
        (cut ≠ [] → ∃ e, result = .error (.board e) ∧
          Pass.Cut (fun shown => min shown.toNat (expected - (Pass.samples done).length)) cut e) ∧
        (∀ e, result = .error e → cut = [] →
          ∃ elapsed, e = .scanTimeout expected received.length elapsed) ∧
        (∀ total count elapsed, result = .error (.scanTimeout total count elapsed) →
          total = expected ∧ count = received.length ∧ count < expected ∧
            timeout.nanoseconds ≤ elapsed.nanoseconds ∧
            ∃ before p, done = before ++ [p] ∧ elapsed.nanoseconds = timer.look before p) ∧
        (∀ before p after, done = before ++ p :: after →
          timer.start before ≤ timer.look before p ∧
            (timeout.nanoseconds ≤ timer.look before p → after = [] ∧ cut = [])) ∧
        (result = .ok none → done.length = passes ∧ ∀ before p after, done = before ++ p :: after →
          timer.look before p < timeout.nanoseconds) ∧
        (∀ a < passes, timeout.nanoseconds ≤ timer.reading a 0 → result ≠ .ok none) ∧
        ∀ watch : Stopwatch, watch.reach timeout.nanoseconds < passes →
          acquireAllowedFor port settings watch.timer expected passes =
            some <$> acquireAllowed port settings watch expected := by
  cases htimeout : settings.timeoutFor expected with
  | none =>
      dsimp only
      rw [acquireAllowedFor, allowance, htimeout]
      rfl
  | some timeout =>
  obtain ⟨_, hrecorded, done, cut, rfl, hcourse⟩ :=
    records_acquireFor port timer timeout expected passes s []
  rcases hresult : acquireFor port timer timeout expected passes s with ⟨result, s'⟩
  rw [hresult] at hrecorded hcourse
  have hends : Ends timer timeout expected done cut result := hcourse.ends
  have hreceived (hcut : cut = []) : (Pass.samples done).length =
      (Sample.valid ((done.flatMap Pass.events ++ cut).filterMap
        (PortEvent.word? Register.fifoData))).length := by
    rw [hcut, List.append_nil, Pass.words_events, Pass.samples]
  refine ⟨result, s', done, cut, ?_, ?_, ?_, ?_, ?_, ?_, ?_, ?_, ?_, ?_, ?_⟩
  · rw [acquireAllowedFor_eq port timer htimeout, Trapping.total, hresult]
  · rw [acquireAllowedFor_eq port.recorded timer htimeout, Trapping.total, hrecorded]
    rfl
  · rintro samples rfl
    obtain ⟨-, rfl, hlength⟩ := hends
    exact ⟨hcourse.samples_eq, hlength, fun raw => Sample.isInvalid_of_mem_valid⟩
  · intro before p after hdone
    have hlength := hcourse.bounded hdone
    rw [List.nil_append] at hlength
    omega
  · intro hcut
    exact hends.exists_board hcut
  · rintro e rfl hcut
    exact hends.exists_timeout hcut (hreceived hcut)
  · rintro total count elapsed rfl
    obtain ⟨hcut, rfl, rfl, hlt, hlate, hlook⟩ := hends
    exact ⟨rfl, hreceived hcut, hlt, hlate, hlook⟩
  · intro before p after hdone
    exact ⟨Pass.start_le_look timer before p, hcourse.last hdone⟩
  · intro hnone
    obtain ⟨hlength, hearly⟩ := hcourse.unfinished hnone
    exact ⟨hlength, fun before p after hdone => hearly hdone⟩
  · intro a ha hlate hnone
    exact Nat.not_lt_of_le hlate (hcourse.reading_lt ha hnone)
  · intro watch hpasses
    rw [acquireAllowedFor_eq port watch.timer htimeout, acquireAllowed_eq port watch htimeout,
      acquireFor_timer watch timeout expected passes hpasses, Trapping.total_map]

def hastySettings : ScanSettings := ⟨0, ⟨0⟩, ⟨0⟩, ⟨3⟩, ⟨1⟩⟩

def endlessSettings : ScanSettings := ⟨0, ⟨0⟩, ⟨0⟩, .largest, ⟨1⟩⟩

def tickingTimer : Timer := (Stopwatch.steady 1 1 Nat.one_pos).timer

/-- A board that marks one word as invalid, counts nothing once and too much at last. -/
def lyingBoard : ScriptedBoard :=
  ⟨[3, 0, 9], [1, Sample.invalid, 2, 3, 4], [], none, none, 0, 0, 0, []⟩

/-- A board that gives one sample and then nothing but words marked as invalid. -/
def stuckBoard : ScriptedBoard := ⟨[2], [1], [], none, none, 0, 0, 0, []⟩

theorem invalid_words_do_not_count :
    (∃ events, acquireAllowedFor ScriptedBoard.port.recorded hastySettings tickingTimer 3 5
        (lyingBoard, []) =
          .ok (.ok (some [1, 2, 3]), ⟨[9], [4], [], none, none, 3, 4, 0, []⟩, events) ∧
      [1, 2, 3] = Sample.valid (events.filterMap (PortEvent.word? Register.fifoData))) ∧
    (∃ events before p, acquireAllowedFor ScriptedBoard.port.recorded hastySettings tickingTimer 3 5
        (stuckBoard, []) =
          .ok (.error (.scanTimeout 3 1 ⟨6⟩), ⟨[2], [], [], none, none, 2, 4, 0, []⟩, events) ∧
      1 = (Sample.valid (events.filterMap (PortEvent.word? Register.fifoData))).length ∧
      tickingTimer.look before p = 6) ∧
    acquireAllowedFor ScriptedBoard.port endlessSettings tickingTimer 3 5 lyingBoard =
      .error .span := by
  refine ⟨?_, ?_,
    acquires_all_or_none ScriptedBoard.port endlessSettings tickingTimer 3 5 lyingBoard⟩
  · have hlying : acquireAllowedFor ScriptedBoard.port hastySettings tickingTimer 3 5 lyingBoard =
        .ok (.ok (some [1, 2, 3]), ⟨[9], [4], [], none, none, 3, 4, 0, []⟩) := rfl
    obtain ⟨_, _, done, cut, hresult, hrecorded, hok, -⟩ :=
      acquires_all_or_none ScriptedBoard.port hastySettings tickingTimer 3 5 lyingBoard
    cases hlying.symm.trans hresult
    exact ⟨_, hrecorded, (hok _ rfl).1⟩
  · have hstuck : acquireAllowedFor ScriptedBoard.port hastySettings tickingTimer 3 5 stuckBoard =
        .ok (.error (.scanTimeout 3 1 ⟨6⟩), ⟨[2], [], [], none, none, 2, 4, 0, []⟩) := rfl
    obtain ⟨_, _, done, cut, hresult, hrecorded, -, -, -, -, hlate, -⟩ :=
      acquires_all_or_none ScriptedBoard.port hastySettings tickingTimer 3 5 stuckBoard
    cases hstuck.symm.trans hresult
    obtain ⟨-, hcount, -, -, before, p, -, hlook⟩ := hlate _ _ _ rfl
    exact ⟨_, before, p, hrecorded, hcount, hlook.symm⟩

end Scan

end DaqServer
