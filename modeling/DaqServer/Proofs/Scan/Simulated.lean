import DaqServer.Proofs.Board.Simulated
import DaqServer.Proofs.Scan.Reduction

/-!
# Scans of the simulated board

A scan of the simulated board is followed from its first access to its last: the plan that it reads,
the stale words that it throws away, the strobe that fills the FIFO, and the passes over the FIFO.
Main statement: the scan gives every channel the reduction of what its input shows, or it ends by
its timeout with the number of samples that the board gave.
-/

namespace DaqServer

/-- A reading shows a channel of a board: its count is the reduction of what the input shows, and
its metadata name the channel and the range that is set for its group. -/
structure ChannelReading.Shows (r : ChannelReading) (b : SimulatedBoard) (c : Fin adcChannels)
    (oversample : UInt8) : Prop where
  channel : r.channel = UInt8.ofNat c
  count : (r.count.toNat : Int) = reduction (b.shown c (oversample.toNat + 1))
  metadata : ∃ word, r.metadata = some word ∧ Sample.channel word = UInt8.ofNat c ∧
    Sample.gain word = (b.rangeOf c &&& 0x3).toUInt8 ∧
    Sample.isUnipolar word = (b.rangeOf c &&& 0x4 != 0) ∧
    Sample.count word = 0 ∧ Sample.isInvalid word = false

namespace Readings
variable {b : SimulatedBoard}

theorem shows_reading {plan : ScanPlan} {channel : Fin adcChannels}
    (hoversample : b.peek Register.oversamples = plan.oversample.toUInt32)
    (hmem : channel ∈ b.scanChannels) :
    (reading plan (b.scanChannels.flatMap b.channelSamples) (UInt8.ofNat channel)).Shows b channel
      plan.oversample := by
  have hnodup : b.scanChannels.Nodup := (List.nodup_finRange _).filter _
  have hlength := SimulatedBoard.length_channelSamples hoversample channel
  obtain ⟨count, hreduce, hcount⟩ := Accumulator.toNat_reduce hlength
  have hmetadata := Accumulator.metadata_pushAll hlength.le
  rw [reading, SimulatedBoard.filter_flatMap_channelSamples hnodup hmem]
  refine ⟨rfl, ?_, ?_⟩
  · dsimp only
    rw [hreduce, ← SimulatedBoard.map_count_channelSamples hoversample]
    exact hcount
  · have hsix : ∀ c : Fin adcChannels, UInt8.ofNat c &&& 0x3F = UInt8.ofNat c := by decide
    have hgain : ∀ word : UInt32, (word &&& 3).toUInt8 &&& 3 = (word &&& 3).toUInt8 := by
      intro word
      rw [UInt32.toUInt8_and, UInt8.and_assoc]
      rfl
    rcases hsamples : b.channelSamples channel with _ | ⟨raw, rest⟩
    · rw [hsamples] at hlength
      exact absurd hlength nofun
    have hmem : raw ∈ b.channelSamples channel := hsamples ▸ List.mem_cons_self
    obtain ⟨n, rfl⟩ := SimulatedBoard.eq_encode_of_mem_channelSamples hmem
    rw [hsamples] at hmetadata
    rw [hmetadata, List.head?_cons, Option.map_some, Sample.metadata_encode]
    refine ⟨_, rfl, ?_, ?_, Sample.isUnipolar_encode _ _ _ _, Sample.count_encode _ _ _ _,
      Sample.isInvalid_encode _ _ _ _⟩
    · rw [Sample.channel_encode, hsix]
    · rw [Sample.gain_encode, hgain]

/-- A board that supplies all samples of a scan has a reading for every channel. -/
theorem shows_ofSamples {first last oversample : UInt8}
    (hfirst : b.peek Register.startChannel = first.toUInt32)
    (hlast : b.peek Register.endChannel = last.toUInt32)
    (hoversample : b.peek Register.oversamples = oversample.toUInt32) (hordered : first ≤ last)
    (hsupply : b.supply first last oversample =
      (last.toNat - first.toNat + 1) * (oversample.toNat + 1)) {i : Nat}
    (hi : i < (ofSamples ⟨first, last, oversample, hordered⟩ b.scanSamples).channels.length) :
    ∃ channel : Fin adcChannels, channel.val = first.toNat + i ∧
      ((ofSamples ⟨first, last, oversample, hordered⟩ b.scanSamples).channels[i]).Shows b channel
        oversample := by
  obtain ⟨hlt, hsamples⟩ :=
    SimulatedBoard.scanSamples_of_supply hfirst hlast hoversample hordered hsupply
  have hcount : i < last.toNat - first.toNat + 1 := by
    rw [length_ofSamples] at hi
    exact hi
  rw [UInt8.le_iff_toNat_le] at hordered
  let channel : Fin adcChannels := ⟨first.toNat + i, by omega⟩
  have hmem : channel ∈ b.scanChannels := by
    have hval : channel.val ∈ b.scanChannels.map Fin.val := by
      rw [SimulatedBoard.map_val_scanChannels hfirst hlast, List.mem_range'_1]
      dsimp only [channel]
      omega
    obtain ⟨c, hc, heq⟩ := List.mem_map.mp hval
    exact Fin.val_injective heq ▸ hc
  refine ⟨channel, rfl, ?_⟩
  simp only [ofSamples, ScanPlan.channels, List.getElem_map, List.getElem_range, hsamples]
  exact shows_reading hoversample hmem

end Readings

namespace Scan

open SimulatedBoard (port)
open Acquisition (access_of_ok)

variable {clock : Clock} {b : SimulatedBoard} {watch : Stopwatch} {timeout : Span}

/-- Words are read from the front of the FIFO; an empty one has no samples to read. -/
theorem readWords_eq (count : Nat) (kept : Array UInt32) :
    readWords (port clock) count kept b =
      (.ok (kept ++ ((b.fifo.take count).filter fun raw => !Sample.isInvalid raw).toArray),
        { b with fifo := b.fifo.drop count }) := by
  induction count generalizing kept b with
  | zero => simp [readWords]; rfl
  | succ count ih =>
      rw [readWords, bind_of_ok (SimulatedBoard.read_fifoData b), ih]
      cases hfifo : b.fifo with
      | nil => simp [Sample.isInvalid, Sample.invalid]
      | cons raw rest => cases hinvalid : Sample.isInvalid raw <;> simp [hinvalid]

/-- A FIFO stays as it is while its count register shows none of its words. -/
theorem drain_of_hidden (rounds : Nat) (hcount : UInt32.ofNat b.fifo.length = 0) :
    drain (port clock) (rounds + 1) b = (.ok (), b) := by
  rw [drain, bind_of_ok (SimulatedBoard.read_fifoCount b), hcount]
  rfl

/-- Two rounds empty a FIFO whose count the board can show. -/
theorem drain_eq (rounds : Nat) (hfifo : b.fifo.length < 2 ^ 32) :
    drain (port clock) (rounds + 2) b = (.ok (), { b with fifo := [] }) := by
  rcases hempty : b.fifo with _ | ⟨raw, rest⟩
  · rw [drain_of_hidden _ (by rw [hempty]; rfl), ← hempty]
  · have hlength : (UInt32.ofNat b.fifo.length).toNat = b.fifo.length :=
      UInt32.toNat_ofNat_of_lt' hfifo
    have hne : UInt32.ofNat b.fifo.length ≠ 0 := by
      intro h
      rw [h, hempty] at hlength
      exact absurd hlength nofun
    rw [drain, bind_of_ok (SimulatedBoard.read_fifoCount b), if_neg hne, hlength,
      bind_of_ok (readWords_eq _ _), List.drop_length]
    exact drain_of_hidden _ rfl

theorem configure_eq (settings : ScanSettings) {first last oversample : UInt8}
    (hfirst : b.peek Register.startChannel = first.toUInt32)
    (hlast : b.peek Register.endChannel = last.toUInt32)
    (hoversample : b.peek Register.oversamples = oversample.toUInt32) (hordered : first ≤ last) :
    configure (port clock) settings b =
      (.ok ⟨first, last, oversample, hordered⟩,
        b.store Register.reduction settings.reduction.toUInt32) := by
  have hpeek : ∀ {offset : UInt8}, Register.reduction ≠ offset →
      (b.store Register.reduction settings.reduction.toUInt32).peek offset = b.peek offset :=
    SimulatedBoard.peek_store_of_ne _
  rw [configure, bind_of_ok (access_of_ok (SimulatedBoard.write_reduction _)),
    bind_of_ok (access_of_ok (SimulatedBoard.read_startChannel _)),
    bind_of_ok (access_of_ok (SimulatedBoard.read_endChannel _)),
    bind_of_ok (access_of_ok (SimulatedBoard.read_oversamples _)), hpeek (by decide),
    hpeek (by decide), hpeek (by decide), hfirst, hlast, hoversample]
  simp only [UInt8.toUInt8_toUInt32, ScanPlan.make, hordered]
  rfl

theorem prime_eq : prime (port clock) b = (.ok (), b.primed) := by
  rw [prime, bind_of_ok (SimulatedBoard.write_trigger (by decide)),
    bind_of_ok (SimulatedBoard.write_trigger (by decide)),
    SimulatedBoard.write_trigger (by decide)]
  rfl

/-- The strobe fills the FIFO of a board whose trigger is in software mode. -/
theorem strobe_eq (clock : Clock) (h : b.peek Register.trigger = Trigger.software) :
    ∃ b', (port clock).write Register.softwareStart 1 b = (.ok (), b') ∧
      b'.fifo = b.fifo ++ b.scanSamples := by
  have hcheck : Register.checkWrite (fun _ => .ok ()) Register.softwareStart 1 = .ok .byte :=
    Register.checkWrite_eq_ok rfl rfl rfl (by decide)
  refine ⟨_, SimulatedBoard.write_of_checkWrite hcheck, ?_⟩
  change (if b.peek Register.trigger = Trigger.software then _ else _ : SimulatedBoard).fifo = _
  rw [if_pos h]
  rfl

theorem collect_round {expected accesses pauses : Nat}
    {kept : Array UInt32} (hfifo : b.fifo.length < 2 ^ 32)
    (hvalid : ∀ raw ∈ b.fifo, Sample.isInvalid raw = false)
    (hle : kept.size + b.fifo.length ≤ expected) :
    collect (port clock) watch timeout expected accesses pauses kept b =
      if expected ≤ kept.size + b.fifo.length then
        (.ok (kept ++ b.fifo.toArray), { b with fifo := [] })
      else if watch.reading (accesses + 1 + b.fifo.length) pauses < timeout.nanoseconds then
        collect (port clock) watch timeout expected (accesses + 1 + b.fifo.length)
          (if b.fifo = [] then pauses + 1 else pauses) (kept ++ b.fifo.toArray)
          { b with fifo := [] }
      else (.error (.scanTimeout expected (kept.size + b.fifo.length)
          ⟨watch.reading (accesses + 1 + b.fifo.length) pauses⟩), { b with fifo := [] }) := by
  have hlength : (UInt32.ofNat b.fifo.length).toNat = b.fifo.length :=
    UInt32.toNat_ofNat_of_lt' hfifo
  have hwanted : min b.fifo.length (expected - kept.size) = b.fifo.length := by omega
  have hfilter : b.fifo.filter (fun raw => !Sample.isInvalid raw) = b.fifo :=
    List.filter_eq_self.mpr fun raw hraw => by rw [hvalid raw hraw]; rfl
  have hzero : UInt32.ofNat b.fifo.length = 0 ↔ b.fifo = [] := by
    rw [← UInt32.toNat_inj, hlength]
    exact List.length_eq_zero_iff
  have hsize : (kept ++ b.fifo.toArray).size = kept.size + b.fifo.length := by simp
  rw [collect, bind_of_ok (access_of_ok (SimulatedBoard.read_fifoCount b)), hlength, hwanted,
    bind_of_ok (access_of_ok (readWords_eq _ _)), List.take_length, List.drop_length, hfilter]
  simp only [hzero, hsize]
  by_cases hdone : expected ≤ kept.size + b.fifo.length
  · rw [if_pos hdone, if_pos hdone]
    rfl
  · rw [if_neg hdone, if_neg hdone]
    by_cases htime : watch.reading (accesses + 1 + b.fifo.length) pauses < timeout.nanoseconds
    · rw [dif_pos htime, if_pos htime]
    · rw [dif_neg htime, if_neg htime]
      rfl

/-- Nothing more comes, so that the passes go on until the timeout is over. -/
theorem collect_of_empty {expected accesses pauses : Nat}
    {kept : Array UInt32} (hfifo : b.fifo = []) (hkept : kept.size < expected) :
    ∃ elapsed : Span, timeout.nanoseconds ≤ elapsed.nanoseconds ∧
      collect (port clock) watch timeout expected accesses pauses kept b =
        (.error (.scanTimeout expected kept.size elapsed), b) := by
  have hsame : { b with fifo := [] } = b := by rw [← hfifo]
  have hround : ∀ accesses pauses,
      collect (port clock) watch timeout expected accesses pauses kept b =
        if watch.reading (accesses + 1) pauses < timeout.nanoseconds then
          collect (port clock) watch timeout expected (accesses + 1) (pauses + 1) kept b
        else
          (.error (.scanTimeout expected kept.size ⟨watch.reading (accesses + 1) pauses⟩), b) := by
    intro accesses pauses
    rw [collect_round (by rw [hfifo]; decide) (by rw [hfifo]; exact nofun)
      (by rw [hfifo]; exact hkept.le), hsame, hfifo]
    simp only [List.length_nil, Nat.add_zero, if_neg (Nat.not_le.mpr hkept), if_true,
      Array.append_empty]
  -- Every pass makes an access, and there are only so many before the timeout.
  induction hleft : watch.reach timeout.nanoseconds - accesses using Nat.strong_induction_on
    generalizing accesses pauses with
  | _ left ih =>
      rw [hround]
      split
      · rename_i htime
        have hreach := watch.lt_reach_of_reading_lt htime
        exact ih _ (by omega) rfl
      · rename_i htime
        exact ⟨_, Nat.le_of_not_lt htime, rfl⟩

/-- The count register shows as many words as are expected, and those in front are samples. -/
theorem acquire_of_shown (clock : Clock) (watch : Stopwatch) (timeout : Span) {expected : Nat}
    (hpos : expected ≠ 0)
    (hshown : (UInt32.ofNat b.fifo.length).toNat = expected) (hle : expected ≤ b.fifo.length)
    (hvalid : ∀ raw ∈ b.fifo.take expected, Sample.isInvalid raw = false) :
    acquire (port clock) watch timeout expected b =
      (.ok (b.fifo.take expected), { b with fifo := b.fifo.drop expected }) := by
  have hkept : (b.fifo.take expected).filter (fun raw => !Sample.isInvalid raw) =
      b.fifo.take expected := List.filter_eq_self.mpr fun raw hraw => by rw [hvalid raw hraw]; rfl
  have hcollect : collect (port clock) watch timeout expected 0 0 #[] b =
      (.ok (b.fifo.take expected).toArray, { b with fifo := b.fifo.drop expected }) := by
    rw [collect, bind_of_ok (access_of_ok (SimulatedBoard.read_fifoCount b)), hshown,
      List.size_toArray, List.length_nil, Nat.sub_zero, Nat.min_self,
      bind_of_ok (access_of_ok (readWords_eq _ _)), hkept, Array.empty_append, if_pos]
    · rfl
    · rw [List.size_toArray, List.length_take_of_le hle]
  rw [acquire, if_neg hpos, bind_of_ok hcollect]
  rfl

/-- Some of the expected samples are in the FIFO, and no more come. -/
theorem acquire_of_some {expected : Nat}
    (hlength : b.fifo.length < expected) (hfifo : b.fifo.length < 2 ^ 32)
    (hvalid : ∀ raw ∈ b.fifo, Sample.isInvalid raw = false) :
    ∃ elapsed : Span, timeout.nanoseconds ≤ elapsed.nanoseconds ∧
      acquire (port clock) watch timeout expected b =
        (.error (.scanTimeout expected b.fifo.length elapsed), { b with fifo := [] }) := by
  have hcollect : ∃ elapsed : Span, timeout.nanoseconds ≤ elapsed.nanoseconds ∧
      collect (port clock) watch timeout expected 0 0 #[] b =
        (.error (.scanTimeout expected b.fifo.length elapsed), { b with fifo := [] }) := by
    rw [collect_round hfifo hvalid (by simpa using hlength.le), if_neg (by simpa using hlength)]
    split
    · have hempty : { b with fifo := [] }.fifo = [] := rfl
      have hkept : b.fifo.toArray.size < expected := by simpa using hlength
      simpa using collect_of_empty hempty hkept
    · rename_i htime
      exact ⟨_, Nat.le_of_not_lt htime, by simp⟩
  obtain ⟨elapsed, hover, hcollect⟩ := hcollect
  refine ⟨elapsed, hover, ?_⟩
  rw [acquire, if_neg (Nat.ne_zero_of_lt hlength)]
  exact bind_of_error hcollect

/-- Up to the acquisition, a scan puts the samples of the board behind what the drain leaves in the
FIFO. -/
theorem measure_eq (clock : Clock) (watch : Stopwatch) (settings : ScanSettings)
    {first last oversample : UInt8}
    (hfirst : b.peek Register.startChannel = first.toUInt32)
    (hlast : b.peek Register.endChannel = last.toUInt32)
    (hoversample : b.peek Register.oversamples = oversample.toUInt32) (hordered : first ≤ last)
    (left : List UInt32) (hleft : ∀ b' : SimulatedBoard, b'.fifo = b.fifo →
      drain (port clock) drainRounds b' = (.ok (), { b' with fifo := left })) :
    ∃ b' : SimulatedBoard, b'.fifo = left ++ b.scanSamples ∧
      measure (port clock) settings watch b =
        (do
          let plan : ScanPlan := ⟨first, last, oversample, hordered⟩
          let expected := plan.totalSamples
          let samples ← acquire (port clock) watch (settings.allotted expected) expected
          return Readings.ofSamples plan samples : Acquisition SimulatedBoard Readings) b' := by
  let configured := b.store Register.reduction settings.reduction.toUInt32
  -- The registers that are written before the strobe are no inputs of the board.
  have hdrain := hleft configured.primed rfl
  have hsame : b.SameInputs { configured.primed with fifo := left } :=
    ((SimulatedBoard.SameInputs.refl b).store _ (.inl rfl)).primed.withFifo left
  have htrigger :
      { configured.primed with fifo := left }.peek Register.trigger = Trigger.software :=
    SimulatedBoard.peek_store_self _ _
  obtain ⟨b', hstrobe, hfifo'⟩ := strobe_eq clock htrigger
  refine ⟨b', by rw [hfifo', hsame.scanSamples], ?_⟩
  rw [measure, bind_of_ok (configure_eq settings hfirst hlast hoversample hordered),
    bind_of_ok (access_of_ok prime_eq), bind_of_ok (access_of_ok hdrain),
    bind_of_ok (access_of_ok hstrobe)]

theorem run_of_measure {settings : ScanSettings} {b' : SimulatedBoard}
    {result : Except AcquisitionError Readings}
    (h : measure (port clock) settings watch b = (result, b')) :
    run (port clock) settings watch .idle b = (result, .idle, b') := by
  rw [run, Arbiter.beginScan_idle]
  dsimp only
  rw [h, Arbiter.endScan_scan]

/-- Run from first to last, a scan of the simulated board finds what its inputs show. The FIFO may
hold anything beforehand, as long as its count register, a 32-bit word, shows how much. The samples
expected are those of the channels from the first to the last; when the board supplies as many,
every channel has its reading, otherwise the scan fails after its timeout. The FIFO ends empty and
the ADC idle. -/
theorem run_simulated (clock : Clock) (settings : ScanSettings) (watch : Stopwatch)
    (b : SimulatedBoard) {first last oversample : UInt8}
    (hfirst : b.peek Register.startChannel = first.toUInt32)
    (hlast : b.peek Register.endChannel = last.toUInt32)
    (hoversample : b.peek Register.oversamples = oversample.toUInt32) (hordered : first ≤ last)
    (hfifo : b.fifo.length < 2 ^ 32)
    (htimeout : settings.timeoutFor ((last.toNat - first.toNat + 1) * (oversample.toNat + 1)) =
      some timeout) :
    ∃ result b', run (port clock) settings watch .idle b = (result, .idle, b') ∧ b'.fifo = [] ∧
      let expected := (last.toNat - first.toNat + 1) * (oversample.toNat + 1)
      let supplied := b.supply first last oversample
      if supplied = expected then
        ∃ readings, result = .ok readings ∧
          readings.channels.length = last.toNat - first.toNat + 1 ∧
          ∀ i (h : i < readings.channels.length), ∃ channel : Fin adcChannels,
            channel.val = first.toNat + i ∧ (readings.channels[i]).Shows b channel oversample
      else ∃ elapsed : Span, timeout.nanoseconds ≤ elapsed.nanoseconds ∧
        result = .error (.scanTimeout expected supplied elapsed) := by
  let plan : ScanPlan := ⟨first, last, oversample, hordered⟩
  have hsupply := SimulatedBoard.length_scanSamples hfirst hlast hoversample hordered
  have hle := SimulatedBoard.supply_le b first last oversample
  have hlt := SimulatedBoard.supply_lt b first last oversample
  obtain ⟨board, hboard, hmeasure⟩ :=
    measure_eq clock watch settings hfirst hlast hoversample hordered []
      fun b' hfifo' => drain_eq 62 (hfifo' ▸ hfifo)
  dsimp only at hmeasure
  have hallotted : settings.allotted plan.totalSamples = timeout :=
    ScanSettings.allotted_eq htimeout
  rw [hallotted] at hmeasure
  rw [List.nil_append] at hboard
  have hvalid : ∀ raw ∈ board.fifo, Sample.isInvalid raw = false :=
    fun raw hraw => SimulatedBoard.isInvalid_of_mem_scanSamples (hboard ▸ hraw)
  rw [← hboard] at hsupply
  rw [← hsupply] at hle hlt
  by_cases hall : b.supply first last oversample =
      (last.toNat - first.toNat + 1) * (oversample.toNat + 1)
  · -- all samples of the scan are those of its channels, each channel in its turn
    have hacquire : acquire (port clock) watch timeout plan.totalSamples board =
        (.ok b.scanSamples, { board with fifo := [] }) := by
      have hlength : plan.totalSamples = board.fifo.length := by rw [hsupply, hall]; rfl
      have hpos : board.fifo.length ≠ 0 := by
        rw [← hlength]
        exact plan.totalSamples_ne_zero
      have hacquire := acquire_of_shown clock watch timeout hpos
        (UInt32.toNat_ofNat_of_lt' hlt) le_rfl (by rwa [List.take_length])
      rw [hlength, ← hboard, hacquire, List.take_length, List.drop_length]
    rw [bind_of_ok hacquire] at hmeasure
    refine ⟨_, _, run_of_measure hmeasure, rfl, ?_⟩
    dsimp only
    rw [if_pos hall]
    exact ⟨_, rfl, Readings.length_ofSamples _ _, fun i hi =>
      Readings.shows_ofSamples hfirst hlast hoversample hordered hall hi⟩
  · have hless : board.fifo.length < plan.totalSamples := by
      refine lt_of_le_of_ne hle ?_
      rwa [hsupply]
    obtain ⟨elapsed, hover, hacquire⟩ := acquire_of_some hless hlt hvalid
    rw [bind_of_error hacquire] at hmeasure
    refine ⟨_, _, run_of_measure hmeasure, rfl, ?_⟩
    dsimp only
    rw [if_neg hall]
    exact ⟨elapsed, hover, by rw [hsupply]; rfl⟩

/-- A board set to convert channels 1 and 2 three times each, the first by a script, with a stale
sample of channel 1 in its FIFO. -/
def scriptedBoard : SimulatedBoard :=
  let registers := [(Register.startChannel, 1), (Register.endChannel, 2), (Register.oversamples, 2)]
  { (SimulatedBoard.powerOn.setScript 1 [10, 20, 31]).inject [Sample.encode 1 0 false 999] with
    registers := registers.foldl (fun r w => r.set w.1 w.2) RegisterFile.zero }

def briefSettings : ScanSettings := ⟨0, ⟨0⟩, ⟨0⟩, ⟨100⟩, ⟨0⟩⟩

/-- The first conversion of channel 1 is left out and the mean of the others is rounded up. A board
that gives four of the six samples has no readings to show. -/
theorem scripted_counts :
    (∃ readings b', run (port .steady) briefSettings (.steady 1 1 Nat.one_pos) .idle scriptedBoard =
      (.ok readings, .idle, b') ∧ b'.fifo = [] ∧
      readings.channels.map ChannelReading.count = [26, 0x8000]) ∧
    ∃ elapsed b', run (port .steady) briefSettings (.steady 1 1 Nat.one_pos) .idle
      { scriptedBoard with scanLimit := some 4 } =
        (.error (.scanTimeout 6 4 elapsed), .idle, b') ∧ b'.fifo = [] := by
  have hfirst : scriptedBoard.peek Register.startChannel = (1 : UInt8).toUInt32 := by decide +kernel
  have hlast : scriptedBoard.peek Register.endChannel = (2 : UInt8).toUInt32 := by decide +kernel
  have hoversample : scriptedBoard.peek Register.oversamples = (2 : UInt8).toUInt32 := by
    decide +kernel
  constructor
  · obtain ⟨result, b', hrun, hfifo, hresult⟩ := run_simulated .steady briefSettings
      (.steady 1 1 Nat.one_pos) scriptedBoard hfirst hlast hoversample (by decide) (by decide) rfl
    obtain ⟨readings, rfl, hlength, hshows⟩ := hresult
    obtain ⟨one, two, hchannels⟩ := List.length_eq_two.mp hlength
    simp only [hchannels, List.length_cons, List.length_nil] at hshows
    obtain ⟨channel, hchannel, hone⟩ := hshows 0 (by decide)
    obtain ⟨channel', hchannel', htwo⟩ := hshows 1 (by decide)
    obtain rfl : channel = ⟨1, by decide⟩ := Fin.ext hchannel
    obtain rfl : channel' = ⟨2, by decide⟩ := Fin.ext hchannel'
    have hscript : (one.count.toNat : Int) = 26 := by
      refine hone.count.trans ?_
      change roundedMean [20, 31] = 26
      rw [roundedMean_eq (by decide)]
      rfl
    have hconstant : (two.count.toNat : Int) = 0x8000 := by
      refine htwo.count.trans ?_
      change roundedMean [0x8000, 0x8000] = 0x8000
      rw [roundedMean_eq (by decide)]
      rfl
    refine ⟨readings, b', hrun, hfifo, ?_⟩
    rw [hchannels, List.map_cons, List.map_singleton,
      (UInt16.toNat_inj.mp (Nat.cast_injective hscript) : one.count = 26),
      (UInt16.toNat_inj.mp (Nat.cast_injective hconstant) : two.count = 0x8000)]
  · obtain ⟨result, b', hrun, hfifo, hresult⟩ := run_simulated .steady briefSettings
      (.steady 1 1 Nat.one_pos) { scriptedBoard with scanLimit := some 4 } hfirst hlast hoversample
      (by decide) (by decide) rfl
    obtain ⟨elapsed, -, rfl⟩ := hresult
    exact ⟨elapsed, b', hrun, hfifo⟩

/-- Words that the count register does not show are left in the FIFO and read first: with so many of
them that it shows none, a scan for which the board supplies all samples gives stale ones. -/
theorem run_of_hidden (clock : Clock) (settings : ScanSettings) (watch : Stopwatch)
    (b : SimulatedBoard) {first last oversample : UInt8}
    (hfirst : b.peek Register.startChannel = first.toUInt32)
    (hlast : b.peek Register.endChannel = last.toUInt32)
    (hoversample : b.peek Register.oversamples = oversample.toUInt32) (hordered : first ≤ last)
    (hcount : UInt32.ofNat b.fifo.length = 0)
    (hvalid : ∀ raw ∈ b.fifo, Sample.isInvalid raw = false) :
    let plan : ScanPlan := ⟨first, last, oversample, hordered⟩
    b.supply first last oversample = plan.totalSamples → plan.totalSamples ≤ b.fifo.length →
    ∃ b', run (port clock) settings watch .idle b =
        (.ok (Readings.ofSamples plan (b.fifo.take plan.totalSamples)), .idle, b') ∧
      b'.fifo = b.fifo.drop plan.totalSamples ++ b.scanSamples := by
  intro plan hsupply hle
  obtain ⟨board, hboard, hmeasure⟩ :=
    measure_eq clock watch settings hfirst hlast hoversample hordered b.fifo
      fun b' hfifo' => by
        rw [show drainRounds = 63 + 1 from rfl, drain_of_hidden _ (hfifo' ▸ hcount), ← hfifo']
  have hsamples := SimulatedBoard.length_scanSamples hfirst hlast hoversample hordered
  have hlt : plan.totalSamples < 2 ^ 32 :=
    hsupply ▸ SimulatedBoard.supply_lt b first last oversample
  have hshown : (UInt32.ofNat board.fifo.length).toNat = plan.totalSamples := by
    rw [hboard, List.length_append, hsamples, hsupply, UInt32.ofNat_add, hcount, UInt32.zero_add,
      UInt32.toNat_ofNat_of_lt' hlt]
  have hfront : board.fifo.take plan.totalSamples = b.fifo.take plan.totalSamples := by
    rw [hboard, List.take_append_of_le_length hle]
  have hacquire := acquire_of_shown clock watch (settings.allotted plan.totalSamples)
    plan.totalSamples_ne_zero hshown (by rw [hboard, List.length_append]; omega)
    (fun raw hraw => hvalid raw (List.mem_of_mem_take (hfront ▸ hraw)))
  rw [hfront] at hacquire
  dsimp only at hmeasure
  rw [bind_of_ok hacquire] at hmeasure
  refine ⟨_, run_of_measure hmeasure, ?_⟩
  change board.fifo.drop plan.totalSamples = _
  rw [hboard, List.drop_append_of_le_length hle]

/-- A board set to convert channel 1 once. -/
def singleBoard : SimulatedBoard :=
  let registers := [(Register.startChannel, 1), (Register.endChannel, 1), (Register.oversamples, 0)]
  { SimulatedBoard.powerOn with
    registers := registers.foldl (fun r w => r.set w.1 w.2) RegisterFile.zero }

/-- With `0x100000000` stale samples in the FIFO the count register shows none, and the count of a
stale sample is read for channel 1, whose input shows another. -/
theorem hidden_words_are_read :
    let stale := Sample.encode 1 0 false 999
    let b := { singleBoard with fifo := List.replicate 0x100000000 stale }
    (b.peek Register.startChannel = 1 ∧ b.peek Register.endChannel = 1 ∧
      b.peek Register.oversamples = 0 ∧ b.supply 1 1 0 = 1 ∧
        reduction (b.shown ⟨1, by decide⟩ 1) = 0x8000 ∧
      briefSettings.timeoutFor 1 = some ⟨100⟩) ∧
    ∃ readings b', run (port .steady) briefSettings (.steady 1 1 Nat.one_pos) .idle b =
        (.ok readings, .idle, b') ∧
      readings.channels.map ChannelReading.count = [999] ∧ b'.fifo.length = 0x100000000 := by
  intro stale b
  have hfirst : b.peek Register.startChannel = (1 : UInt8).toUInt32 := by
    change singleBoard.peek _ = _
    decide +kernel
  have hlast : b.peek Register.endChannel = (1 : UInt8).toUInt32 := by
    change singleBoard.peek _ = _
    decide +kernel
  have hoversample : b.peek Register.oversamples = (0 : UInt8).toUInt32 := by
    change singleBoard.peek _ = _
    decide +kernel
  have hlength : b.fifo.length = 0x100000000 := List.length_replicate
  have hcount : UInt32.ofNat b.fifo.length = 0 := by
    rw [hlength]
    rfl
  have hvalid : ∀ raw ∈ b.fifo, Sample.isInvalid raw = false := by
    intro raw hraw
    rw [List.eq_of_mem_replicate hraw]
    exact Sample.isInvalid_encode _ _ _ _
  have hscan : b.scanSamples.length = 1 :=
    SimulatedBoard.length_scanSamples hfirst hlast hoversample (by decide)
  obtain ⟨b', hrun, hfifo⟩ := run_of_hidden .steady briefSettings (.steady 1 1 Nat.one_pos) b
    hfirst hlast hoversample (by decide) hcount hvalid rfl (by rw [hlength]; decide)
  refine ⟨⟨hfirst, hlast, hoversample, rfl, rfl, rfl⟩, _, b', hrun, ?_, ?_⟩
  · change (Readings.ofSamples _ ((List.replicate _ _).take 1)).channels.map _ = _
    rw [List.take_replicate]
    decide +kernel
  · rw [hfifo, List.length_append, List.length_drop, hlength, hscan]
    rfl

end Scan

end DaqServer
