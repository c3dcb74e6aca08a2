import DaqServer.Board.Simulated
import DaqServer.Proofs.Board.Access
import DaqServer.Proofs.Sample
import Mathlib.Data.List.Nodup
import Mathlib.Data.List.FinRange
import Mathlib.Data.List.GetD

/-!
# What the simulated board does

Reads of the FIFO, writes to plain registers, and the samples that a strobe produces. Main
statements: the samples of a scan depend on the inputs of the board alone
(`SameInputs.scanSamples`), there are as many as its channels and the limit allow
(`length_scanSamples`), those of one channel are found by their channel field
(`filter_flatMap_channelSamples`), and their counts are what the input shows
(`map_count_channelSamples`).
-/

namespace DaqServer

namespace SimulatedBoard

variable {clock : Clock} {b b' : SimulatedBoard}

/-! ### Accesses -/

theorem read_fifoCount (b : SimulatedBoard) :
    (port clock).read Register.fifoCount b = (.ok (UInt32.ofNat b.fifo.length), b) := rfl

theorem read_fifoData (b : SimulatedBoard) :
    (port clock).read Register.fifoData b =
      (.ok (b.fifo.headD Sample.invalid), { b with fifo := b.fifo.tail }) := rfl

theorem read_startChannel (b : SimulatedBoard) :
    (port clock).read Register.startChannel b = (.ok (b.peek Register.startChannel), b) := rfl

theorem read_endChannel (b : SimulatedBoard) :
    (port clock).read Register.endChannel b = (.ok (b.peek Register.endChannel), b) := rfl

theorem read_oversamples (b : SimulatedBoard) :
    (port clock).read Register.oversamples b = (.ok (b.peek Register.oversamples), b) := rfl

theorem write_of_checkWrite {offset : UInt8} {value : UInt32} {w : Width}
    (h : Register.checkWrite (fun _ => .ok ()) offset value = .ok w) :
    (port clock).write offset value b =
      (.ok (), { b with writes := b.writes ++ [(offset, value)] }.afterWrite offset value) := by
  change SimulatedBoard.write offset value b = _
  rw [SimulatedBoard.write, h]

/-- What an accepted write to a register leaves that is only stored. -/
def store (b : SimulatedBoard) (offset : UInt8) (value : UInt32) : SimulatedBoard :=
  { b with
    writes := b.writes ++ [(offset, value)]
    registers := b.registers.set offset value }

theorem write_reduction (value : UInt8) :
    (port clock).write Register.reduction value.toUInt32 b =
      (.ok (), b.store Register.reduction value.toUInt32) :=
  write_of_checkWrite (Register.checkWrite_eq_ok rfl rfl rfl (Width.fits_byte value))

theorem write_trigger {value : UInt32} (h : Width.byte.Fits value) :
    (port clock).write Register.trigger value b = (.ok (), b.store Register.trigger value) :=
  write_of_checkWrite (Register.checkWrite_eq_ok rfl rfl rfl h)

theorem peek_store_self (offset : UInt8) (value : UInt32) :
    (b.store offset value).peek offset = value :=
  RegisterFile.get_set_self _ _ _

theorem peek_store_of_ne {offset other : UInt8} (value : UInt32) (h : offset ≠ other) :
    (b.store offset value).peek other = b.peek other :=
  RegisterFile.get_set_of_ne _ _ h

/-! ### The samples of a scan -/

/-- A board with the inputs of another: its analog inputs, its limit and all registers that a scan
of the board looks at. -/
structure SameInputs (b b' : SimulatedBoard) : Prop where
  analog : b'.analog = b.analog
  scripts : b'.scripts = b.scripts
  scanLimit : b'.scanLimit = b.scanLimit
  peek : ∀ offset, offset ≠ Register.reduction → offset ≠ Register.trigger →
    b'.peek offset = b.peek offset

theorem SameInputs.refl (b : SimulatedBoard) : b.SameInputs b := ⟨rfl, rfl, rfl, fun _ _ _ => rfl⟩

theorem SameInputs.store (h : b.SameInputs b') {offset : UInt8} (value : UInt32)
    (hoffset : offset = Register.reduction ∨ offset = Register.trigger) :
    b.SameInputs (b'.store offset value) where
  analog := h.analog
  scripts := h.scripts
  scanLimit := h.scanLimit
  peek other hreduction htrigger := by
    have hne : offset ≠ other := by
      rcases hoffset with rfl | rfl
      · exact hreduction.symm
      · exact htrigger.symm
    rw [peek_store_of_ne value hne, h.peek other hreduction htrigger]

theorem SameInputs.withFifo (h : b.SameInputs b') (fifo : List UInt32) :
    b.SameInputs { b' with fifo := fifo } :=
  { h with peek := h.peek }

def primed (b : SimulatedBoard) : SimulatedBoard :=
  ((b.store Register.trigger Trigger.disabled).store Register.trigger
    Trigger.clear).store Register.trigger Trigger.software

theorem SameInputs.primed (h : b.SameInputs b') : b.SameInputs b'.primed :=
  ((h.store _ (.inr rfl)).store _ (.inr rfl)).store _ (.inr rfl)

theorem SameInputs.conversion (h : b.SameInputs b') (channel : Fin adcChannels) (n : Nat) :
    b'.conversion channel n = b.conversion channel n := by
  rw [SimulatedBoard.conversion, SimulatedBoard.conversion, h.scripts, h.analog]

theorem SameInputs.channelSamples (h : b.SameInputs b') (channel : Fin adcChannels) :
    b'.channelSamples channel = b.channelSamples channel := by
  have hrange : ∀ c : Fin adcChannels,
      Register.adcRange (UInt8.ofNat (c / 2)) ≠ Register.reduction ∧
      Register.adcRange (UInt8.ofNat (c / 2)) ≠ Register.trigger := by decide
  simp only [SimulatedBoard.channelSamples, h.conversion,
    h.peek _ (hrange channel).1 (hrange channel).2, h.peek Register.oversamples nofun nofun]

theorem SameInputs.scanSamples (h : b.SameInputs b') : b'.scanSamples = b.scanSamples := by
  have hchannels : b'.scanChannels = b.scanChannels := by
    rw [scanChannels, h.peek Register.startChannel nofun nofun,
      h.peek Register.endChannel nofun nofun, scanChannels]
  have hsamples : b'.channelSamples = b.channelSamples := funext h.channelSamples
  rw [SimulatedBoard.scanSamples, h.scanLimit, hchannels, hsamples, SimulatedBoard.scanSamples]

theorem filter_range (first last n : Nat) :
    (List.range n).filter (fun c => first ≤ c && c ≤ last) =
      List.range' first (min (last + 1) n - first) := by
  induction n with
  | zero => simp
  | succ n ih =>
      rw [List.range_succ, List.filter_append, ih]
      by_cases h : first ≤ n ∧ n ≤ last
      · have hlength : min (last + 1) (n + 1) - first = (min (last + 1) n - first) + 1 := by omega
        have hend : first + (min (last + 1) n - first) = n := by omega
        rw [hlength, List.range'_concat, Nat.one_mul, hend, List.filter_singleton]
        simp [h]
      · have hlength : min (last + 1) (n + 1) - first = min (last + 1) n - first := by omega
        have hout : (decide (first ≤ n) && decide (n ≤ last)) = false := by simpa using h
        rw [hlength, List.filter_singleton, hout]
        simp

/-- The channels of a scan are those from the first to the last that the board has. -/
theorem map_val_scanChannels {first last : UInt8}
    (hfirst : b.peek Register.startChannel = first.toUInt32)
    (hlast : b.peek Register.endChannel = last.toUInt32) :
    b.scanChannels.map Fin.val =
      List.range' first.toNat (min (last.toNat + 1) adcChannels - first.toNat) := by
  rw [← filter_range, ← List.map_coe_finRange_eq_range, List.filter_map, scanChannels, hfirst,
    hlast, UInt8.toUInt8_toUInt32, UInt8.toUInt8_toUInt32]
  rfl

theorem length_channelSamples {oversample : UInt8}
    (h : b.peek Register.oversamples = oversample.toUInt32) (channel : Fin adcChannels) :
    (b.channelSamples channel).length = oversample.toNat + 1 := by
  simp [channelSamples, h]

def rangeOf (b : SimulatedBoard) (channel : Fin adcChannels) : UInt32 :=
  b.peek (Register.adcRange (UInt8.ofNat (channel / 2)))

theorem eq_encode_of_mem_channelSamples {raw : UInt32} {channel : Fin adcChannels}
    (h : raw ∈ b.channelSamples channel) :
    ∃ count, raw = Sample.encode (UInt8.ofNat channel) (b.rangeOf channel &&& 0x3).toUInt8
      (b.rangeOf channel &&& 0x4 != 0) count := by
  obtain ⟨n, -, rfl⟩ := List.mem_map.mp h
  exact ⟨b.conversion channel n, rfl⟩

theorem channel_of_mem_channelSamples {raw : UInt32} {channel : Fin adcChannels}
    (h : raw ∈ b.channelSamples channel) : Sample.channel raw = UInt8.ofNat channel := by
  have hsix : ∀ c : Fin adcChannels, UInt8.ofNat c &&& 0x3F = UInt8.ofNat c := by decide
  obtain ⟨count, rfl⟩ := eq_encode_of_mem_channelSamples h
  rw [Sample.channel_encode, hsix]

/-- Every channel of a scan contributes as many samples. -/
theorem length_flatMap_channelSamples {first last oversample : UInt8}
    (hfirst : b.peek Register.startChannel = first.toUInt32)
    (hlast : b.peek Register.endChannel = last.toUInt32)
    (hoversample : b.peek Register.oversamples = oversample.toUInt32) :
    (b.scanChannels.flatMap b.channelSamples).length =
      (min (last.toNat + 1) adcChannels - first.toNat) * (oversample.toNat + 1) := by
  have hlength := congrArg List.length (map_val_scanChannels hfirst hlast)
  rw [List.length_map, List.length_range'] at hlength
  rw [List.length_flatMap]
  simp only [length_channelSamples hoversample, List.map_const', List.sum_replicate_nat, hlength]

/-- The samples of one channel are found among those of distinct channels by their channel field. -/
theorem filter_flatMap_channelSamples {channels : List (Fin adcChannels)}
    {channel : Fin adcChannels}
    (hnodup : channels.Nodup) (hmem : channel ∈ channels) :
    (channels.flatMap b.channelSamples).filter
      (fun raw => Sample.channel raw == UInt8.ofNat channel) = b.channelSamples channel := by
  have hinj : ∀ c d : Fin adcChannels, UInt8.ofNat c = UInt8.ofNat d → c = d := by decide
  have hown : (b.channelSamples channel).filter
      (fun raw => Sample.channel raw == UInt8.ofNat channel) = b.channelSamples channel :=
    List.filter_eq_self.mpr fun raw hraw => beq_iff_eq.mpr (channel_of_mem_channelSamples hraw)
  have hother : ∀ others : List (Fin adcChannels), channel ∉ others →
      (others.flatMap b.channelSamples).filter
        (fun raw => Sample.channel raw == UInt8.ofNat channel) = [] := by
    intro others hnot
    refine List.filter_eq_nil_iff.mpr fun raw hraw heq => hnot ?_
    obtain ⟨c, hc, hraw⟩ := List.mem_flatMap.mp hraw
    rw [beq_iff_eq, channel_of_mem_channelSamples hraw] at heq
    exact hinj c channel heq ▸ hc
  obtain ⟨before, after, rfl⟩ := List.append_of_mem hmem
  obtain ⟨-, hafter, hbefore⟩ := List.nodup_append.mp hnodup
  rw [List.flatMap_append, List.flatMap_cons, List.filter_append, List.filter_append, hown,
    hother before fun h => hbefore _ h _ List.mem_cons_self rfl,
    hother after (List.nodup_cons.mp hafter).1, List.nil_append, List.append_nil]

/-- The counts that an input shows in the conversions of one scan: those of its script over and
over, or its constant. -/
def shown (b : SimulatedBoard) (channel : Fin adcChannels) (conversions : Nat) : List UInt16 :=
  let script := b.scripts.get channel
  if h : script = [] then List.replicate conversions (b.analog.get channel)
  else (List.range conversions).map fun n =>
    script.get ⟨n % script.length, Nat.mod_lt n (List.length_pos_iff.mpr h)⟩

theorem map_count_channelSamples {oversample : UInt8}
    (h : b.peek Register.oversamples = oversample.toUInt32) (channel : Fin adcChannels) :
    (b.channelSamples channel).map Sample.count = b.shown channel (oversample.toNat + 1) := by
  have hcounts : (b.channelSamples channel).map Sample.count =
      (List.range (oversample.toNat + 1)).map (b.conversion channel) := by
    simp [channelSamples, h, Sample.count_encode, Function.comp_def]
  rw [hcounts, shown]
  split
  · rename_i hscript
    have hconstant : b.conversion channel = fun _ => b.analog.get channel := by
      funext n
      rw [conversion, hscript]
    rw [hconstant, List.map_const', List.length_range]
  · rename_i hscript
    refine List.map_congr_left fun n _ => ?_
    rw [conversion]
    split
    · rename_i hnil
      exact absurd hnil hscript
    · exact List.getD_eq_getElem _ _ _

/-- The samples that the board gives in a scan of the channels from the first to the last, up to its
limit. -/
def supply (b : SimulatedBoard) (first last oversample : UInt8) : Nat :=
  let all :=
    if 15 < first.toNat then 0
    else (min last.toNat 15 - first.toNat + 1) * (oversample.toNat + 1)
  match b.scanLimit with
  | none => all
  | some limit => min limit all

theorem supply_le (b : SimulatedBoard) (first last oversample : UInt8) :
    b.supply first last oversample ≤ (last.toNat - first.toNat + 1) * (oversample.toNat + 1) := by
  have hall : (if 15 < first.toNat then 0
      else (min last.toNat 15 - first.toNat + 1) * (oversample.toNat + 1)) ≤
        (last.toNat - first.toNat + 1) * (oversample.toNat + 1) := by
    split
    · exact Nat.zero_le _
    · exact Nat.mul_le_mul_right _ (by omega)
  rw [supply]
  split
  · exact hall
  · exact (Nat.min_le_right _ _).trans hall

theorem supply_lt (b : SimulatedBoard) (first last oversample : UInt8) :
    b.supply first last oversample < 2 ^ 32 := by
  have hcount := last.toNat_lt
  have hper := oversample.toNat_lt
  refine (b.supply_le first last oversample).trans_lt ?_
  calc (last.toNat - first.toNat + 1) * (oversample.toNat + 1)
      ≤ 256 * 256 := Nat.mul_le_mul (by omega) (by omega)
    _ < 2 ^ 32 := by decide

theorem length_scanSamples {first last oversample : UInt8}
    (hfirst : b.peek Register.startChannel = first.toUInt32)
    (hlast : b.peek Register.endChannel = last.toUInt32)
    (hoversample : b.peek Register.oversamples = oversample.toUInt32) (hordered : first ≤ last) :
    b.scanSamples.length = b.supply first last oversample := by
  have hchannels : (min (last.toNat + 1) adcChannels - first.toNat) * (oversample.toNat + 1) =
      if 15 < first.toNat then 0
      else (min last.toNat 15 - first.toNat + 1) * (oversample.toNat + 1) := by
    rw [UInt8.le_iff_toNat_le] at hordered
    change (min (last.toNat + 1) 16 - first.toNat) * _ = _
    split
    · rw [Nat.sub_eq_zero_of_le (by omega), Nat.zero_mul]
    · congr 1
      omega
  rw [scanSamples, supply]
  cases b.scanLimit with
  | none => rw [length_flatMap_channelSamples hfirst hlast hoversample, hchannels]
  | some limit =>
      rw [List.length_take, length_flatMap_channelSamples hfirst hlast hoversample, hchannels]

theorem scanSamples_isPrefix :
    b.scanSamples <+: b.scanChannels.flatMap b.channelSamples := by
  rw [scanSamples]
  split
  · exact List.prefix_rfl
  · exact List.take_prefix _ _

theorem isInvalid_of_mem_scanSamples {raw : UInt32} (h : raw ∈ b.scanSamples) :
    Sample.isInvalid raw = false := by
  obtain ⟨channel, -, hraw⟩ := List.mem_flatMap.mp (scanSamples_isPrefix.subset h)
  obtain ⟨count, rfl⟩ := eq_encode_of_mem_channelSamples hraw
  exact Sample.isInvalid_encode _ _ _ _

/-- A board that supplies all samples of a scan has all its channels, and its limit cuts off none
of them. -/
theorem scanSamples_of_supply {first last oversample : UInt8}
    (hfirst : b.peek Register.startChannel = first.toUInt32)
    (hlast : b.peek Register.endChannel = last.toUInt32)
    (hoversample : b.peek Register.oversamples = oversample.toUInt32) (hordered : first ≤ last)
    (hsupply : b.supply first last oversample =
      (last.toNat - first.toNat + 1) * (oversample.toNat + 1)) :
    last.toNat < adcChannels ∧ b.scanSamples = b.scanChannels.flatMap b.channelSamples := by
  have hlength := length_scanSamples hfirst hlast hoversample hordered
  have hall := length_flatMap_channelSamples hfirst hlast hoversample
  have hle : b.scanSamples.length ≤ (b.scanChannels.flatMap b.channelSamples).length :=
    scanSamples_isPrefix.length_le
  rw [UInt8.le_iff_toNat_le] at hordered
  rw [hlength, hall, hsupply] at hle
  have hcount := Nat.le_of_mul_le_mul_right hle (Nat.succ_pos _)
  have hlt : last.toNat < adcChannels := by omega
  refine ⟨hlt, scanSamples_isPrefix.eq_of_length ?_⟩
  rw [hlength, hall, hsupply, Nat.min_eq_left hlt, Nat.succ_sub hordered]

end SimulatedBoard

end DaqServer
