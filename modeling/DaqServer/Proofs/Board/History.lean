import DaqServer.Proofs.Board.Simulated
import DaqServer.Proofs.Board.Traffic

/-!
# What the simulated board has come to

Every access leaves all registers but few as they are: `peek_write` says which word a register holds
after a write to any offset. Main statement: from power-on on, whatever is read and written, each
register holds a word that it may hold, the log has the writes that were taken, and a register that
is only stored holds what was last written to it (`keeps_register_file`).
-/

namespace DaqServer

namespace Register

variable {offset : UInt8}

/-- A reset value strobes a subsystem by the bit for all of them or by its own. -/
def Strobes (value bit : UInt32) : Prop := value &&& 0x1 ≠ 0 ∨ value &&& bit ≠ 0

instance (value bit : UInt32) : Decidable (Strobes value bit) := inferInstanceAs (Decidable (_ ∨ _))

/-- The registers that a reset value sets back to zero. -/
def ClearedBy (value : UInt32) (offset : UInt8) : Prop :=
  Strobes value 0x2 ∧ offset = trigger ∨
  Strobes value 0x4 ∧ offset ∈ (List.finRange dacChannels).map (dacOutput <| UInt8.ofNat ·.val) ∨
  Strobes value 0x8 ∧ (offset = dioDirection ∨ offset = dioOutput)

instance (value : UInt32) (offset : UInt8) : Decidable (ClearedBy value offset) :=
  inferInstanceAs (Decidable (_ ∧ _ ∨ _ ∧ _ ∨ _ ∧ _))

/-- The registers that show something else than what they hold. -/
def live : List UInt8 := [fifoCount, fifoData, clockLow, clockHigh, dioInput]

theorem readOnly_of_mem_live (h : offset ∈ live) : offset ∈ readOnly := by
  have hsubset : live ⊆ readOnly := by decide
  exact hsubset h

theorem strobes_iff (value bit : UInt32) :
    (value &&& (0x1 ||| bit) != 0) = true ↔ Strobes value bit := by
  have hsplit : value &&& (0x1 ||| bit) = value &&& 0x1 ||| value &&& bit :=
    UInt32.eq_of_toBitVec_eq BitVec.and_or_distrib_left
  rw [bne_iff_ne, ne_eq, hsplit, UInt32.or_eq_zero_iff, not_and_or]
  rfl

end Register

namespace RegisterFile

theorem get_setAll (r : RegisterFile) (offsets : List UInt8) (value : UInt32) (offset : UInt8) :
    (r.setAll offsets value).get offset = if offset ∈ offsets then value else r.get offset := by
  induction offsets generalizing r with
  | nil => rfl
  | cons o offsets ih =>
      change ((r.set o value).setAll offsets value).get offset = _
      rw [ih]
      by_cases hmem : offset ∈ offsets
      · rw [if_pos hmem, if_pos (List.mem_cons_of_mem _ hmem)]
      · rw [if_neg hmem]
        by_cases hsame : o = offset
        · rw [hsame, get_set_self, if_pos List.mem_cons_self]
        · rw [get_set_of_ne r value hsame,
            if_neg (fun h => (List.mem_cons.mp h).elim (hsame ∘ Eq.symm) hmem)]

end RegisterFile

namespace SimulatedBoard

open Register

variable {clock : Clock} {b : SimulatedBoard} {offset : UInt8} {value : UInt32}

/-! ### Single accesses -/

def written (b : SimulatedBoard) (offset : UInt8) (value : UInt32) : SimulatedBoard :=
  { b with writes := b.writes ++ [(offset, value)] }.afterWrite offset value

theorem write_of_takes (h : Takes offset value) (b : SimulatedBoard) :
    (port clock).write offset value b = (.ok (), b.written offset value) :=
  write_of_checkWrite (checkWrite_of_takes h rfl)

theorem write_of_not_takes (h : ¬ Takes offset value) (b : SimulatedBoard) :
    (port clock).write offset value b = (.error (refusal offset value), b) := by
  change SimulatedBoard.write offset value b = _
  rw [SimulatedBoard.write, checkWrite_of_not_takes h fun _ => rfl]

theorem read_of_isRegister (h : IsRegister offset) (b : SimulatedBoard) :
    (port clock).read offset b = (.ok (b.observe clock offset), b.afterRead offset) := by
  change SimulatedBoard.read clock offset b = _
  rw [SimulatedBoard.read, width_of_isRegister h]

theorem read_of_not_isRegister (h : ¬ IsRegister offset) (b : SimulatedBoard) :
    (port clock).read offset b = (.error (.unaligned offset), b) := by
  change SimulatedBoard.read clock offset b = _
  rw [SimulatedBoard.read, width_of_not_isRegister h]

/-- A register that shows what it holds is read without any effect. -/
theorem read_of_not_live (h : IsRegister offset) (hlive : offset ∉ live) (b : SimulatedBoard) :
    (port clock).read offset b = (.ok (b.peek offset), b) := by
  have hne : ∀ special ∈ live, offset ≠ special := fun _ hmem heq => hlive (heq ▸ hmem)
  have hcount := hne fifoCount (by decide)
  have hdata := hne fifoData (by decide)
  have hlow := hne clockLow (by decide)
  have hhigh := hne clockHigh (by decide)
  have hinput := hne dioInput (by decide)
  rw [read_of_isRegister h, observe, if_neg hcount, if_neg hdata, if_neg hlow, if_neg hhigh,
    if_neg hinput, afterRead, if_neg hdata, if_neg (not_or.mpr ⟨hlow, hhigh⟩)]

theorem registers_afterRead (b : SimulatedBoard) (offset : UInt8) :
    (b.afterRead offset).registers = b.registers ∧ (b.afterRead offset).writes = b.writes := by
  rw [afterRead]
  split
  · exact ⟨rfl, rfl⟩
  · split <;> exact ⟨rfl, rfl⟩

/-- Reading leaves the registers and the log, whether it is refused or not. -/
theorem registers_read (clock : Clock) (b : SimulatedBoard) (offset : UInt8) :
    ((port clock).read offset b).2.registers = b.registers ∧
      ((port clock).read offset b).2.writes = b.writes := by
  by_cases h : IsRegister offset
  · rw [read_of_isRegister h]
    exact registers_afterRead b offset
  · rw [read_of_not_isRegister h]
    exact ⟨rfl, rfl⟩

/-! ### What a reset does -/

/-- A strobe of the ADC empties the FIFO; beside it, none changes anything but registers. -/
theorem strobeReset_eq (b : SimulatedBoard) (bits : ResetBits) :
    b.strobeReset bits = { b with
      registers := (b.strobeReset bits).registers, fifo := if bits.adc then [] else b.fifo } := by
  rcases bits with ⟨_ | _, _ | _, _ | _⟩ <;> rfl

theorem peek_strobeReset (b : SimulatedBoard) (bits : ResetBits) (offset : UInt8) :
    (b.strobeReset bits).peek offset =
      if bits.adc ∧ offset = trigger ∨ bits.dac ∧ offset ∈ [0, 1, 2, 3].map dacOutput ∨
        bits.dio ∧ offset ∈ [dioDirection, dioOutput] then 0 else b.peek offset := by
  have htrigger (r : RegisterFile) : (r.set trigger Trigger.disabled).get offset =
      if offset = trigger then 0 else r.get offset := by
    split
    · rename_i h
      rw [h, RegisterFile.get_set_self]
      rfl
    · rename_i h
      exact RegisterFile.get_set_of_ne r _ (Ne.symm h)
  rcases bits with ⟨_ | _, _ | _, _ | _⟩ <;>
    simp only [strobeReset, peek, RegisterFile.get_setAll, htrigger, Bool.false_eq_true, if_true,
      if_false, false_and, true_and, false_or, or_false] <;> grind

theorem clearedBy_iff (value : UInt32) (offset : UInt8) :
    ((ResetBits.ofValue value).adc ∧ offset = trigger ∨
      (ResetBits.ofValue value).dac ∧ offset ∈ [0, 1, 2, 3].map dacOutput ∨
      (ResetBits.ofValue value).dio ∧ offset ∈ [dioDirection, dioOutput]) ↔
      ClearedBy value offset := by
  have hchannels : [0, 1, 2, 3].map dacOutput =
      (List.finRange dacChannels).map (dacOutput <| UInt8.ofNat ·.val) := by decide
  have hlines : offset ∈ [dioDirection, dioOutput] ↔
      offset = dioDirection ∨ offset = dioOutput := by
    rw [List.mem_cons, List.mem_singleton]
  rw [hchannels, hlines, ClearedBy, ← strobes_iff value 0x2, ← strobes_iff value 0x4,
    ← strobes_iff value 0x8]
  rfl

/-! ### What a write does -/

theorem written_reset (b : SimulatedBoard) (value : UInt32) :
    ∃ registers, b.written reset value = { b with
        registers := registers
        fifo := if Strobes value 0x2 then [] else b.fifo
        writes := b.writes ++ [(reset, value)] } ∧
      ∀ offset, registers.get offset = if ClearedBy value offset then 0 else b.peek offset := by
  let logged : SimulatedBoard := { b with writes := b.writes ++ [(reset, value)] }
  refine ⟨(logged.strobeReset (.ofValue value)).registers, ?_, fun offset => ?_⟩
  · have heq := strobeReset_eq logged (.ofValue value)
    rw [written, afterWrite, if_pos rfl, heq]
    simp only [← strobes_iff]
    rfl
  · have hpeek := peek_strobeReset logged (.ofValue value) offset
    simp only [clearedBy_iff] at hpeek
    exact hpeek

/-- The software strobe fills the FIFO and stores nothing. -/
theorem written_softwareStart (b : SimulatedBoard) (value : UInt32) :
    ∃ fifo, b.written softwareStart value =
      { b with fifo := fifo, writes := b.writes ++ [(softwareStart, value)] } := by
  rw [written, afterWrite, if_neg (by decide), if_pos rfl]
  split <;> exact ⟨_, rfl⟩

theorem written_of_stored (hreset : offset ≠ reset) (hstart : offset ≠ softwareStart)
    (b : SimulatedBoard) : b.written offset value = b.store offset value := by
  rw [written, afterWrite, if_neg hreset, if_neg hstart]
  rfl

theorem writes_written (b : SimulatedBoard) (offset : UInt8) (value : UInt32) :
    (b.written offset value).writes = b.writes ++ [(offset, value)] := by
  by_cases hreset : offset = reset
  · subst hreset
    obtain ⟨registers, h, -⟩ := written_reset b value
    rw [h]
  · by_cases hstart : offset = softwareStart
    · subst hstart
      obtain ⟨fifo, h⟩ := written_softwareStart b value
      rw [h]
    · rw [written_of_stored hreset hstart]
      rfl

theorem peek_written (b : SimulatedBoard) (offset : UInt8) (value : UInt32) (other : UInt8) :
    (b.written offset value).peek other =
      if offset = reset then if ClearedBy value other then 0 else b.peek other
      else if offset ≠ softwareStart ∧ offset = other then value else b.peek other := by
  by_cases hreset : offset = reset
  · subst hreset
    obtain ⟨registers, h, hget⟩ := written_reset b value
    rw [if_pos rfl, h, peek, hget]
  · by_cases hstart : offset = softwareStart
    · -- The strobe goes to the FIFO and is not kept.
      subst hstart
      obtain ⟨fifo, h⟩ := written_softwareStart b value
      rw [if_neg hreset, if_neg (fun h => h.1 rfl), h]
      rfl
    · rw [written_of_stored hreset hstart, if_neg hreset]
      by_cases hsame : offset = other
      · rw [if_pos ⟨hstart, hsame⟩, ← hsame, peek_store_self]
      · rw [if_neg (fun h => hsame h.2), peek_store_of_ne value hsame]

end SimulatedBoard

/-! ### Any accesses -/

namespace PortEvent

def takenWrite? (event : PortEvent) : Option (UInt8 × UInt32) :=
  if event.isDone then event.write? else none

def Overwrites (event : PortEvent) (offset : UInt8) : Prop :=
  ∃ write ∈ event.takenWrite?,
    write.1 = offset ∨ write.1 = Register.reset ∧ Register.ClearedBy write.2 offset

instance (event : PortEvent) (offset : UInt8) : Decidable (event.Overwrites offset) :=
  inferInstanceAs (Decidable (∃ write ∈ event.takenWrite?, _))

end PortEvent

namespace SimulatedBoard

open Register

variable {clock : Clock} {b : SimulatedBoard}

/-- What an access can do to the registers and the log: a write that is taken is carried out and
logged, and every other access leaves both. -/
theorem perform_cases (clock : Clock) (b : SimulatedBoard) (access : PortAccess) :
    (∃ offset value, Takes offset value ∧ access = .write offset value ∧
      access.perform (port clock) b = (.ok 0, b.written offset value)) ∨
    (⟨access, (access.perform (port clock) b).1⟩ : PortEvent).takenWrite? = none ∧
      (access.perform (port clock) b).2.registers = b.registers ∧
      (access.perform (port clock) b).2.writes = b.writes := by
  cases access with
  | read offset =>
      refine .inr ⟨?_, registers_read clock b offset⟩
      rw [PortEvent.takenWrite?]
      split <;> rfl
  | write offset value =>
      by_cases htakes : Takes offset value
      · exact .inl ⟨offset, value, htakes, rfl,
          PortAccess.perform_write_of_ok (write_of_takes htakes b)⟩
      · rw [PortAccess.perform_write_of_error (write_of_not_takes htakes b)]
        exact .inr ⟨rfl, rfl, rfl⟩

/-- An access that is refused changes nothing. -/
theorem eq_of_perform_error {access : PortAccess} {e : BoardError}
    (h : (access.perform (port clock) b).1 = .error e) :
    (access.perform (port clock) b).2 = b := by
  cases access with
  | read offset =>
      by_cases hregister : IsRegister offset
      · have hread : (port clock).read offset b = _ := read_of_isRegister hregister b
        exact absurd (h.symm.trans (congrArg Prod.fst hread)) nofun
      · have hread : (port clock).read offset b = _ := read_of_not_isRegister hregister b
        exact congrArg Prod.snd hread
  | write offset value =>
      by_cases htakes : Takes offset value
      · rw [PortAccess.perform_write_of_ok (write_of_takes htakes b)] at h
        cases h
      · rw [PortAccess.perform_write_of_error (write_of_not_takes htakes b)]

/-- The words that a register may hold: a narrow one has eight bits, nothing is held where there is
no register or a strobe, and an identity register has its own. -/
structure Admits (offset : UInt8) (word : UInt32) : Prop where
  narrow : offset < 0x40 → word ≤ 0xFF
  absent : ¬ IsRegister offset → word = 0
  strobe : offset = reset ∨ offset = softwareStart → word = 0
  identity : ∀ entry ∈ SimulatedBoard.identity, entry.1 = offset → word = entry.2

theorem eq_of_mem_identity {entry : UInt8 × UInt32} (h : entry ∈ SimulatedBoard.identity) :
    entry = (deviceId, 0xA116) ∨ entry = (features, 0xF) ∨ entry = (firmware, 0x10200) := by
  rwa [SimulatedBoard.identity, List.mem_cons, List.mem_pair] at h

theorem readOnly_of_mem_identity {entry : UInt8 × UInt32} (h : entry ∈ SimulatedBoard.identity) :
    entry.1 ∈ readOnly := by
  rcases eq_of_mem_identity h with rfl | rfl | rfl <;> decide

theorem admits_zero {offset : UInt8} (h : offset ∉ readOnly) : Admits offset 0 where
  narrow _ := by decide
  absent _ := rfl
  strobe _ := rfl
  identity _ hmem heq := absurd (heq ▸ readOnly_of_mem_identity hmem) h

theorem writable_of_clearedBy {value : UInt32} {offset : UInt8} (h : ClearedBy value offset) :
    offset ∉ readOnly := by
  have hchannels : ∀ channel : Fin dacChannels, dacOutput (UInt8.ofNat channel) ∉ readOnly := by
    decide
  rcases h with ⟨-, rfl⟩ | ⟨-, hchannel⟩ | ⟨-, rfl | rfl⟩
  · decide
  · obtain ⟨channel, -, rfl⟩ := List.mem_map.mp hchannel
    exact hchannels channel
  · decide
  · decide

theorem admits_of_takes {offset : UInt8} {value : UInt32} (h : Takes offset value)
    (hreset : offset ≠ reset) (hstart : offset ≠ softwareStart) : Admits offset value where
  narrow := h.2.2
  absent hnot := absurd h.1 hnot
  strobe heq := (heq.elim hreset hstart).elim
  identity _ hmem heq := absurd (heq ▸ readOnly_of_mem_identity hmem) h.2.1

theorem peek_powerOn_identity {entry : UInt8 × UInt32} (h : entry ∈ SimulatedBoard.identity) :
    powerOn.peek entry.1 = entry.2 := by
  rcases eq_of_mem_identity h with rfl | rfl | rfl <;> decide +kernel

theorem peek_powerOn_of_not_identity {offset : UInt8}
    (h : ∀ entry ∈ SimulatedBoard.identity, entry.1 ≠ offset) : powerOn.peek offset = 0 := by
  have hdevice := h (deviceId, 0xA116) (by decide)
  have hfeatures := h (features, 0xF) (by decide)
  have hfirmware := h (firmware, 0x10200) (by decide)
  change (((RegisterFile.zero.set deviceId _).set features _).set firmware _).get offset = 0
  rw [RegisterFile.get_set_of_ne _ _ hfirmware, RegisterFile.get_set_of_ne _ _ hfeatures,
    RegisterFile.get_set_of_ne _ _ hdevice, RegisterFile.get_zero]

theorem admits_powerOn (offset : UInt8) : Admits offset (powerOn.peek offset) := by
  by_cases hidentity : ∃ entry ∈ SimulatedBoard.identity, entry.1 = offset
  · obtain ⟨entry, hmem, rfl⟩ := hidentity
    have hkind : ¬ entry.1 < 0x40 ∧ IsRegister entry.1 ∧ entry.1 ≠ reset ∧
        entry.1 ≠ softwareStart := by
      rcases eq_of_mem_identity hmem with rfl | rfl | rfl <;> decide
    have hsame (other) (hother : other ∈ SimulatedBoard.identity) (heq : other.1 = entry.1) :
        entry.2 = other.2 := by
      rw [← peek_powerOn_identity hmem, ← peek_powerOn_identity hother, heq]
    obtain ⟨hwide, hregister, hreset, hstart⟩ := hkind
    rw [peek_powerOn_identity hmem]
    exact ⟨fun h => absurd h hwide, fun h => absurd hregister h,
      fun h => (h.elim hreset hstart).elim, hsame⟩
  · have hnone : ∀ entry ∈ SimulatedBoard.identity, entry.1 ≠ offset := fun entry hmem heq =>
      hidentity ⟨entry, hmem, heq⟩
    rw [peek_powerOn_of_not_identity hnone]
    exact ⟨fun _ => by decide, fun _ => rfl, fun _ => rfl,
      fun entry hmem heq => absurd heq (hnone entry hmem)⟩

/-- An access leaves in each register a word that it may hold. -/
theorem admits_perform (clock : Clock) (access : PortAccess)
    (h : ∀ offset, Admits offset (b.peek offset)) (offset : UInt8) :
    Admits offset ((access.perform (port clock) b).2.peek offset) := by
  obtain ⟨target, value, htakes, rfl, hperform⟩ | ⟨-, hregisters, -⟩ :=
    perform_cases clock b access
  · rw [hperform, peek_written]
    split
    · split
      · exact admits_zero (writable_of_clearedBy ‹_›)
      · exact h offset
    · split
      · rename_i hreset hstored
        exact hstored.2 ▸ admits_of_takes htakes hreset hstored.1
      · exact h offset
  · rw [peek, hregisters]
    exact h offset

theorem writes_performAll (clock : Clock) (accesses : List PortAccess) (b : SimulatedBoard) :
    ((port clock).performAll accesses b).2.writes =
      b.writes ++ ((port clock).performAll accesses b).1.filterMap PortEvent.takenWrite? := by
  refine Port.performAll_induction
    (P := fun events (after : SimulatedBoard) =>
      after.writes = b.writes ++ events.filterMap PortEvent.takenWrite?)
    (List.append_nil _).symm (fun events b' access ih => ?_) accesses
  rw [List.filterMap_append, ← List.append_assoc, ← ih]
  obtain ⟨offset, value, -, rfl, hperform⟩ | ⟨hnone, -, hwrites⟩ := perform_cases clock b' access
  · rw [hperform, writes_written]
    rfl
  · rw [hwrites, List.filterMap_cons_none hnone, List.filterMap_nil, List.append_nil]

/-- A register keeps its word as long as nothing overwrites it. -/
theorem peek_performAll {offset : UInt8} (accesses : List PortAccess)
    (h : ∀ event ∈ ((port clock).performAll accesses b).1, ¬ event.Overwrites offset) :
    ((port clock).performAll accesses b).2.peek offset = b.peek offset := by
  induction accesses generalizing b with
  | nil => rfl
  | cons access rest ih =>
      rw [Port.performAll_cons] at h ⊢
      rw [ih fun event hmem => h event (List.mem_cons_of_mem _ hmem)]
      have hnot := h _ List.mem_cons_self
      obtain ⟨target, value, -, rfl, hperform⟩ | ⟨-, hregisters, -⟩ := perform_cases clock b access
      · have htaken : (⟨.write target value, ((PortAccess.write target value).perform
            (port clock) b).1⟩ : PortEvent).takenWrite? = some (target, value) := by
          rw [hperform]
          rfl
        have htarget : target ≠ offset := fun heq => hnot ⟨_, htaken, .inl heq⟩
        have hclear : target = reset → ¬ ClearedBy value offset := fun hreset hclear =>
          hnot ⟨_, htaken, .inr ⟨hreset, hclear⟩⟩
        rw [hperform, peek_written]
        split
        · rename_i hreset
          rw [if_neg (hclear hreset)]
        · rw [if_neg fun hstored => htarget hstored.2]
      · rw [peek, hregisters]
        rfl

theorem toUInt32_toUInt8_of_le {word : UInt32} (h : word ≤ 0xFF) :
    word.toUInt8.toUInt32 = word := by
  have hlt : word.toNat < 256 := Nat.lt_succ_of_le (UInt32.le_iff_toNat_le.mp h)
  rw [← UInt32.toNat_inj, UInt8.toNat_toUInt32, UInt32.toNat_toUInt8]
  exact Nat.mod_eq_of_lt hlt

/-- What the register file of the board is after any accesses since power-on. Every register holds a
word that it may hold, and narrow ones are read as a byte without loss; the log has the writes that
were taken, in their order. As for the next access: a write is taken just if there is a register
that takes writes and has room for the value; what is refused changes nothing; a write to a register
that is only stored changes no other register and is what is read there until something overwrites
it; a reset clears what its bits strobe and nothing else. -/
theorem keeps_register_file (clock : Clock) (accesses : List PortAccess) :
    let history := (port clock).performAll accesses powerOn
    let b := history.2
    (∀ offset, Admits offset (b.peek offset)) ∧
    (∀ offset < 0x40, (b.peek offset).toUInt8.toUInt32 = b.peek offset) ∧
    b.writes = history.1.filterMap PortEvent.takenWrite? ∧
    (∀ offset value, ((port clock).write offset value b).1 = .ok () ↔ Takes offset value) ∧
    (∀ (access : PortAccess) e, (access.perform (port clock) b).1 = .error e →
      (access.perform (port clock) b).2 = b) ∧
    (∀ offset value later, Takes offset value → offset ≠ reset → offset ≠ softwareStart →
      let stored := ((port clock).write offset value b).2
      let after := (port clock).performAll later stored
      (∀ other, other ≠ offset → stored.peek other = b.peek other) ∧
      ((∀ event ∈ after.1, ¬ event.Overwrites offset) →
        (port clock).read offset after.2 = (.ok value, after.2))) ∧
    (∀ value, Takes reset value → ∃ registers, ((port clock).write reset value b).2 = { b with
        registers := registers
        fifo := if Strobes value 0x2 then [] else b.fifo
        writes := b.writes ++ [(reset, value)] } ∧
      ∀ offset, registers.get offset = if ClearedBy value offset then 0 else b.peek offset) := by
  intro history b
  have hadmits : ∀ offset, Admits offset (b.peek offset) :=
    Port.performAll_induction
      (P := fun _ (b : SimulatedBoard) => ∀ offset, Admits offset (b.peek offset)) admits_powerOn
      (fun _ _ access ih => admits_perform clock access ih) accesses
  refine ⟨hadmits, fun offset hnarrow => toUInt32_toUInt8_of_le ((hadmits offset).narrow hnarrow),
    writes_performAll clock accesses powerOn, fun offset value => ?_,
    fun access e => eq_of_perform_error, ?_, ?_⟩
  · by_cases htakes : Takes offset value
    · exact iff_of_true (congrArg Prod.fst (write_of_takes htakes b)) htakes
    · refine iff_of_false (fun h => ?_) htakes
      rw [write_of_not_takes htakes b] at h
      cases h
  · intro offset value later htakes hreset hstart
    rw [write_of_takes htakes b]
    refine ⟨fun other hne => ?_, fun hkept => ?_⟩
    · rw [written_of_stored hreset hstart]
      exact peek_store_of_ne value hne.symm
    · rw [read_of_not_live htakes.1 (mt readOnly_of_mem_live htakes.2.1),
        peek_performAll later hkept, written_of_stored hreset hstart, peek_store_self]
  · intro value htakes
    rw [write_of_takes htakes b]
    exact written_reset b value

/-- The outputs keep their levels when the ADC and the DAC are reset and when too wide a value is
offered to a narrow register. -/
theorem outputs_survive_reset :
    let b := ((port .steady).performAll [.write dioOutput 1] powerOn).2
    let stored := ((port .steady).write dioOutput 5 b).2
    let after := (port .steady).performAll [.write reset 0x6, .write startChannel 0x100] stored
    Takes dioOutput 5 ∧ (∀ event ∈ after.1, ¬ event.Overwrites dioOutput) ∧
      (port .steady).read dioOutput after.2 = (.ok 5, after.2) := by
  have htakes : Takes dioOutput 5 := by decide
  have hkept : ∀ event ∈ ((port .steady).performAll [.write reset 0x6, .write startChannel 0x100]
      ((port .steady).write dioOutput 5
        ((port .steady).performAll [.write dioOutput 1] powerOn).2).2).1,
      ¬ event.Overwrites dioOutput := by decide +kernel
  obtain ⟨-, -, -, -, -, hstored, -⟩ := keeps_register_file .steady [.write dioOutput 1]
  exact ⟨htakes, hkept, (hstored dioOutput 5 _ htakes (by decide) (by decide)).2 hkept⟩

end SimulatedBoard

end DaqServer
