import DaqServer.Board.Window
import DaqServer.Proofs.Board.History

/-!
# Two boards with the same registers

A simulated board stores a word for each register, a mapped one has its registers as bytes in a
window on a file. Both refuse an access by its offset and value alone; a window refuses beside that
what it has no room for. `Mirrors` says that the bytes spell the words, and accesses to registers
that are only stored keep it so. Main statement: the two boards give the same answers as far as the
window reaches (`boards_agree`).
-/

namespace DaqServer

namespace Register

variable {offset other : UInt8} {value : UInt32}

def stop (offset : UInt8) : Nat := offset.toNat + (widthOf offset).bytes

theorem stop_cases (offset : UInt8) :
    offset.toNat < 0x40 ∧ stop offset = offset.toNat + 1 ∨
      0x40 ≤ offset.toNat ∧ stop offset = offset.toNat + 4 := by
  rw [stop, widthOf]
  by_cases hnarrow : offset < 0x40
  · rw [if_pos hnarrow]
    exact .inl ⟨UInt8.lt_iff_toNat_lt.mp hnarrow, rfl⟩
  · rw [if_neg hnarrow]
    exact .inr ⟨Nat.le_of_not_lt fun hlt => hnarrow (UInt8.lt_iff_toNat_lt.mpr hlt), rfl⟩

theorem aligned_of_isRegister (h : IsRegister offset) (hwide : 0x40 ≤ offset.toNat) :
    4 ∣ offset.toNat :=
  h.resolve_left fun hnarrow => absurd (UInt8.lt_iff_toNat_lt.mp hnarrow) (Nat.not_lt.mpr hwide)

theorem stop_le (h : IsRegister offset) : stop offset ≤ 256 := by
  have hlt := offset.toNat_lt
  rcases stop_cases offset with ⟨hnarrow, hstop⟩ | ⟨hwide, hstop⟩
  · omega
  · have hdvd := aligned_of_isRegister h hwide
    omega

theorem disjoint_of_ne (h : IsRegister offset) (hother : IsRegister other) (hne : offset ≠ other) :
    stop offset ≤ other.toNat ∨ stop other ≤ offset.toNat := by
  have hnat : offset.toNat ≠ other.toNat := mt UInt8.toNat_inj.mp hne
  rcases stop_cases offset with ⟨hnarrow, hstop⟩ | ⟨hwide, hstop⟩ <;>
    rcases stop_cases other with ⟨hnarrow', hstop'⟩ | ⟨hwide', hstop'⟩
  · omega
  · omega
  · omega
  · have hdvd := aligned_of_isRegister h hwide
    have hdvd' := aligned_of_isRegister hother hwide'
    omega

/-- A register whose window ends too early. -/
def Leaves (window : Nat) (offset : UInt8) : Prop := IsRegister offset ∧ window < stop offset

instance (window : Nat) (offset : UInt8) : Decidable (Leaves window offset) :=
  inferInstanceAs (Decidable (_ ∧ _))

theorem not_leaves_of_le {window : Nat} (h : 256 ≤ window) : ¬ Leaves window offset :=
  fun hleaves => absurd (Nat.lt_of_lt_of_le hleaves.2 (stop_le hleaves.1)) (Nat.not_lt.mpr h)

theorem lt_pow_of_takes (h : Takes offset value) :
    value.toNat < Nat.pow 256 (widthOf offset).bytes := by
  rw [widthOf]
  split
  · rename_i hnarrow
    exact Nat.lt_succ_of_le (UInt32.le_iff_toNat_le.mp (h.2.2 hnarrow))
  · exact value.toNat_lt

theorem bytes_widthOf_le (offset : UInt8) : (widthOf offset).bytes ≤ 4 := by
  cases widthOf offset <;> decide

def wordIn (bytes : Array UInt8) (offset : UInt8) : UInt32 :=
  Bytes.toUInt32 (bytes.extract offset.toNat (stop offset)).toList

end Register

namespace MappedBoard

theorem size_overwrite (bytes : Array UInt8) (index : Nat) (new : Bytes) :
    (overwrite bytes index new).size = bytes.size := by
  induction new generalizing bytes index with
  | nil => rfl
  | cons b new ih => rw [overwrite, ih, Array.size_setIfInBounds]

/-- Bytes outside what is overwritten stay. -/
theorem getElem?_overwrite_of_outside (bytes : Array UInt8) {index i : Nat} {new : Bytes}
    (h : i < index ∨ index + new.length ≤ i) : (overwrite bytes index new)[i]? = bytes[i]? := by
  induction new generalizing bytes index with
  | nil => rfl
  | cons b new ih =>
      rw [List.length_cons] at h
      rw [overwrite, ih _ (by omega), Array.getElem?_setIfInBounds, if_neg (by omega)]

theorem getElem?_overwrite (bytes : Array UInt8) {index i : Nat} {new : Bytes}
    (hsize : index + new.length ≤ bytes.size) (hi : i < new.length) :
    (overwrite bytes index new)[index + i]? = new[i]? := by
  induction new generalizing bytes index i with
  | nil => exact absurd hi (Nat.not_lt_zero i)
  | cons b new ih =>
      rw [List.length_cons] at hsize hi
      cases i with
      | zero =>
          rw [Nat.add_zero, overwrite,
            getElem?_overwrite_of_outside _ (.inl (Nat.lt_succ_self index)),
            Array.getElem?_setIfInBounds, if_pos rfl, if_pos (by omega)]
          rfl
      | succ i =>
          have hindex : index + (i + 1) = index + 1 + i := by omega
          have hsize' : (bytes.setIfInBounds index b).size = bytes.size :=
            Array.size_setIfInBounds
          rw [overwrite, hindex, ih _ (by omega) (by omega), List.getElem?_cons_succ]

theorem extract_overwrite (bytes : Array UInt8) {index : Nat} {new : Bytes}
    (hsize : index + new.length ≤ bytes.size) :
    ((overwrite bytes index new).extract index (index + new.length)).toList = new := by
  refine List.ext_getElem? fun i => ?_
  rw [Array.getElem?_toList, Array.getElem?_extract, size_overwrite, Nat.min_eq_left hsize,
    Nat.add_sub_cancel_left]
  split
  · exact getElem?_overwrite bytes hsize ‹_›
  · rw [List.getElem?_eq_none (Nat.le_of_not_lt ‹_›)]

theorem extract_overwrite_of_outside (bytes : Array UInt8) {index first last : Nat} {new : Bytes}
    (h : last ≤ index ∨ index + new.length ≤ first) :
    (overwrite bytes index new).extract first last = bytes.extract first last := by
  refine Array.ext_getElem? fun i => ?_
  rw [Array.getElem?_extract, Array.getElem?_extract, size_overwrite]
  split
  · exact getElem?_overwrite_of_outside bytes (by omega)
  · rfl

end MappedBoard

/-! ### Single accesses -/

namespace PortAccess

open Register

def verdict : PortAccess → Except BoardError Unit
  | read offset => if IsRegister offset then .ok () else .error (.unaligned offset)
  | write offset value => if Takes offset value then .ok () else .error (refusal offset value)

theorem takes_of_verdict {offset : UInt8} {value : UInt32}
    (h : (write offset value).verdict = .ok ()) : Takes offset value :=
  of_not_not fun hnot => nomatch (if_neg hnot).symm.trans h

theorem isRegister_of_verdict {access : PortAccess} (h : access.verdict = .ok ()) :
    IsRegister access.offset := by
  cases access with
  | read offset => exact of_not_not fun hnot => nomatch (if_neg hnot).symm.trans h
  | write offset value => exact (takes_of_verdict h).1

end PortAccess

namespace PortEvent

/-- The load or the store of an access that was accepted. -/
def touch? (event : PortEvent) : Option Touch :=
  if event.isDone then
    some ⟨event.access.offset.toNat, Register.widthOf event.access.offset⟩
  else none

theorem mem_touch? {event : PortEvent} {touch : Touch} :
    touch ∈ event.touch? ↔ event.isDone ∧
      touch = ⟨event.access.offset.toNat, Register.widthOf event.access.offset⟩ := by
  rw [touch?, Option.mem_def, Option.ite_none_right_eq_some, Option.some_inj,
    eq_comm (b := touch)]

end PortEvent

namespace Memory

open Register

variable {σ : Type} (memory : Memory σ) {window : Nat}

/-- The load or the store that an access asks for. -/
def carryOut : PortAccess → Access σ UInt32
  | .read offset => fun s =>
      let (word, s) := memory.load offset.toNat (widthOf offset) s
      (.ok word, s)
  | .write offset value => fun s => (.ok 0, memory.store offset.toNat (widthOf offset) value s)

theorem bounds_of_leaves {offset : UInt8} (h : Leaves window offset) :
    bounds window offset (widthOf offset) = .error (.unmapped offset) := if_pos h.2

theorem bounds_of_not_leaves {offset : UInt8} (h : ¬ Leaves window offset)
    (hregister : IsRegister offset) : bounds window offset (widthOf offset) = .ok () :=
  if_neg fun hlt => h ⟨hregister, hlt⟩

theorem port_read (offset : UInt8) (s : σ) :
    (memory.port window).read offset s =
      if Leaves window offset then (.error (.unmapped offset), s)
      else if IsRegister offset then memory.carryOut (.read offset) s
      else (.error (.unaligned offset), s) := by
  by_cases hregister : IsRegister offset
  · by_cases hleaves : Leaves window offset
    · simp only [port, width_of_isRegister hregister, bounds_of_leaves hleaves]
      exact (if_pos hleaves).symm
    · simp only [port, width_of_isRegister hregister, bounds_of_not_leaves hleaves hregister,
        if_neg hleaves, if_pos hregister]
      rfl
  · have hleaves : ¬ Leaves window offset := fun h => hregister h.1
    simp only [port, width_of_not_isRegister hregister, if_neg hleaves, if_neg hregister]

theorem port_write (offset : UInt8) (value : UInt32) (s : σ) :
    (memory.port window).write offset value s =
      if Leaves window offset then (.error (.unmapped offset), s)
      else if Takes offset value then (.ok (), memory.store offset.toNat (widthOf offset) value s)
      else (.error (refusal offset value), s) := by
  by_cases hleaves : Leaves window offset
  · simp only [port, checkWrite_of_bounds hleaves.1 (bounds_of_leaves hleaves), if_pos hleaves]
  · have hbounds := bounds_of_not_leaves hleaves
    by_cases htakes : Takes offset value
    · simp only [port, checkWrite_of_takes htakes (hbounds htakes.1), if_neg hleaves, if_pos htakes]
    · simp only [port, checkWrite_of_not_takes htakes hbounds, if_neg hleaves, if_neg htakes]

/-- An access to a window is refused for its end, or else for what any board refuses, or it is
carried out. -/
theorem perform_port (access : PortAccess) (s : σ) :
    access.perform (memory.port window) s =
      if Leaves window access.offset then (.error (.unmapped access.offset), s)
      else match access.verdict with
        | .error e => (.error e, s)
        | .ok () => memory.carryOut access s := by
  cases access with
  | read offset =>
      refine (port_read memory offset s).trans ?_
      rw [PortAccess.offset, PortAccess.verdict]
      by_cases hregister : IsRegister offset
      · rw [if_pos hregister, if_pos hregister]
      · rw [if_neg hregister, if_neg hregister]
  | write offset value =>
      have hwrite : (memory.port window).write offset value s = _ :=
        port_write memory offset value s
      rw [PortAccess.offset, PortAccess.verdict]
      by_cases hleaves : Leaves window offset
      · rw [if_pos hleaves] at hwrite ⊢
        exact PortAccess.perform_write_of_error hwrite
      · rw [if_neg hleaves] at hwrite ⊢
        by_cases htakes : Takes offset value
        · rw [if_pos htakes] at hwrite ⊢
          exact PortAccess.perform_write_of_ok hwrite
        · rw [if_neg htakes] at hwrite ⊢
          exact PortAccess.perform_write_of_error hwrite

/-- What watches memory is not seen from the port. -/
theorem perform_watched (access : PortAccess) (s : σ) (touches : List Touch) :
    access.perform (memory.watched.port window) (s, touches) =
      ((access.perform (memory.port window) s).1, (access.perform (memory.port window) s).2,
        touches ++ (⟨access, (access.perform (memory.port window) s).1⟩ : PortEvent).touch?.toList)
    := by
  rw [perform_port, perform_port]
  split
  · exact congrArg (fun l => (_, s, l)) (List.append_nil touches).symm
  · split
    · exact congrArg (fun l => (_, s, l)) (List.append_nil touches).symm
    · cases access <;> rfl

end Memory

namespace MappedBoard

open Register

theorem read_eq (offset : UInt8) (board : MappedBoard) :
    port.read offset board =
      (((Memory.file.port board.window).read offset board.file).1,
        { board with file := ((Memory.file.port board.window).read offset board.file).2 }) := by
  have hbounds : board.bounds offset = Memory.bounds board.window offset := rfl
  change MappedBoard.read offset board = _
  simp only [MappedBoard.read, Memory.port, hbounds]
  rcases width offset with e | w
  · rfl
  · simp only
    cases Memory.bounds board.window offset w <;> rfl

theorem write_eq (offset : UInt8) (value : UInt32) (board : MappedBoard) :
    port.write offset value board =
      (((Memory.file.port board.window).write offset value board.file).1, { board with
        file := ((Memory.file.port board.window).write offset value board.file).2 }) := by
  have hbounds : board.bounds offset = Memory.bounds board.window offset := rfl
  change MappedBoard.write offset value board = _
  simp only [MappedBoard.write, Memory.port, hbounds]
  cases checkWrite (Memory.bounds board.window offset) offset value <;> rfl

/-- A mapped board is a window on a file. -/
theorem perform_eq (access : PortAccess) (board : MappedBoard) :
    access.perform port board =
      ((access.perform (Memory.file.port board.window) board.file).1,
        { board with file := (access.perform (Memory.file.port board.window) board.file).2 }) := by
  cases access with
  | read offset => exact read_eq offset board
  | write offset value =>
      have hwrite := write_eq offset value board
      rcases hfile : (Memory.file.port board.window).write offset value board.file with
        ⟨e | _, file⟩
      · rw [hfile] at hwrite
        rw [PortAccess.perform_write_of_error hwrite, PortAccess.perform_write_of_error hfile]
      · rw [hfile] at hwrite
        rw [PortAccess.perform_write_of_ok hwrite, PortAccess.perform_write_of_ok hfile]

end MappedBoard

/-! ### The same registers twice -/

namespace Register

variable {offset other : UInt8} {value : UInt32} {bytes : Array UInt8}

/-- A register that is nothing but stored: it shows what it holds, and writing it does no more. -/
def IsStored (offset : UInt8) : Prop := offset ∉ reset :: softwareStart :: live

instance (offset : UInt8) : Decidable (IsStored offset) := inferInstanceAs (Decidable (_ ∉ _))

theorem IsStored.ne_reset (h : IsStored offset) : offset ≠ reset :=
  fun heq => h (heq ▸ List.mem_cons_self)

theorem IsStored.ne_softwareStart (h : IsStored offset) : offset ≠ softwareStart :=
  fun heq => h (heq ▸ List.mem_cons_of_mem _ List.mem_cons_self)

theorem IsStored.not_live (h : IsStored offset) : offset ∉ live :=
  fun hmem => h (List.mem_cons_of_mem _ (List.mem_cons_of_mem _ hmem))

/-- What is stored is read back. -/
theorem wordIn_store_self (hsize : stop offset ≤ bytes.size) (h : Takes offset value) :
    wordIn (Memory.file.store offset.toNat (widthOf offset) value bytes) offset = value := by
  have hroom : offset.toNat + (Bytes.ofNat (widthOf offset).bytes value.toNat).length ≤
      bytes.size := by rwa [Bytes.length_ofNat]
  have hextract := MappedBoard.extract_overwrite bytes hroom
  rw [Bytes.length_ofNat] at hextract
  exact (congrArg Bytes.toUInt32 hextract).trans
    (Bytes.toUInt32_ofNat (bytes_widthOf_le offset) (lt_pow_of_takes h))

theorem wordIn_store_of_ne (hregister : IsRegister offset) (hother : IsRegister other)
    (hne : other ≠ offset) :
    wordIn (Memory.file.store offset.toNat (widthOf offset) value bytes) other =
      wordIn bytes other := by
  have houtside := disjoint_of_ne hother hregister hne
  refine congrArg (fun part => Bytes.toUInt32 part.toList)
    (MappedBoard.extract_overwrite_of_outside bytes ?_)
  rwa [Bytes.length_ofNat]

/-- The bytes in a window spell the words that a board holds. -/
def Mirrors (window : Nat) (bytes : Array UInt8) (b : SimulatedBoard) : Prop :=
  ∀ offset, IsRegister offset → stop offset ≤ window → wordIn bytes offset = b.peek offset

theorem Mirrors.store {window : Nat} {b : SimulatedBoard} (h : Mirrors window bytes b)
    (hsize : stop offset ≤ bytes.size) (htakes : Takes offset value) :
    Mirrors window (Memory.file.store offset.toNat (widthOf offset) value bytes)
      (b.store offset value) := by
  intro other hother hstop
  by_cases hsame : other = offset
  · subst hsame
    rw [SimulatedBoard.peek_store_self]
    exact wordIn_store_self hsize htakes
  · rw [SimulatedBoard.peek_store_of_ne value (Ne.symm hsame)]
    exact (wordIn_store_of_ne htakes.1 hother hsame).trans (h other hother hstop)

end Register

namespace SimulatedBoard

open Register

variable {clock : Clock} {b : SimulatedBoard} {access : PortAccess}

theorem outcome_perform (clock : Clock) (access : PortAccess) (b : SimulatedBoard) :
    (access.perform (port clock) b).1.map (fun _ => ()) = access.verdict := by
  cases access with
  | read offset =>
      change ((port clock).read offset b).1.map _ = _
      rw [PortAccess.verdict]
      by_cases h : IsRegister offset
      · rw [read_of_isRegister h, if_pos h]
        rfl
      · rw [read_of_not_isRegister h, if_neg h]
        rfl
  | write offset value =>
      rw [PortAccess.verdict]
      by_cases h : Takes offset value
      · rw [PortAccess.perform_write_of_ok (write_of_takes h b), if_pos h]
        rfl
      · rw [PortAccess.perform_write_of_error (write_of_not_takes h b), if_neg h]
        rfl

theorem perform_of_verdict_error {e : BoardError} (h : access.verdict = .error e)
    (clock : Clock) (b : SimulatedBoard) : access.perform (port clock) b = (.error e, b) := by
  have houtcome := (outcome_perform clock access b).trans h
  have herror : (access.perform (port clock) b).1 = .error e := by
    cases hanswer : (access.perform (port clock) b).1 with
    | error e' =>
        rw [hanswer] at houtcome
        exact congrArg Except.error (Except.error.inj houtcome)
    | ok word =>
        rw [hanswer] at houtcome
        cases houtcome
  exact Prod.ext herror (eq_of_perform_error herror)

/-- An access to a register that is only stored leaves all others. -/
theorem peek_perform_of_ne (hstored : IsStored access.offset) {other : UInt8}
    (hne : other ≠ access.offset) :
    (access.perform (port clock) b).2.peek other = b.peek other := by
  obtain ⟨offset, value, -, rfl, hperform⟩ | ⟨-, hregisters, -⟩ := perform_cases clock b access
  · have hreset : offset ≠ reset := hstored.ne_reset
    rw [hperform, peek_written, if_neg hreset, if_neg fun h => hne h.2.symm]
  · rw [peek, hregisters]
    rfl

/-- A step of both boards: the answers are the same unless the register leaves the window, and the
bytes go on spelling the words. -/
theorem mirrors_perform (clock : Clock) {window : Nat} {bytes : Array UInt8}
    (h : Mirrors window bytes b) (hsize : window ≤ bytes.size) (hstored : IsStored access.offset) :
    let after := access.perform (Memory.file.port window) bytes
    (after.1 = if Leaves window access.offset then .error (.unmapped access.offset)
      else (access.perform (port clock) b).1) ∧
    Mirrors window after.2 (access.perform (port clock) b).2 := by
  intro after
  have hafter : after = _ := Memory.perform_port Memory.file access bytes
  by_cases hleaves : Leaves window access.offset
  · -- The simulated board may change here, but only at a register that the window does not show.
    rw [if_pos hleaves] at hafter
    rw [hafter, if_pos hleaves]
    refine ⟨rfl, fun other hregister hstop => ?_⟩
    have hne : other ≠ access.offset := fun heq => Nat.not_lt.mpr hstop (heq ▸ hleaves.2)
    rw [peek_perform_of_ne hstored hne]
    exact h other hregister hstop
  · rw [if_neg hleaves] at hafter
    rw [hafter, if_neg hleaves]
    cases hverdict : access.verdict with
    | error e =>
        rw [perform_of_verdict_error hverdict]
        exact ⟨rfl, h⟩
    | ok _ =>
        have hregister := PortAccess.isRegister_of_verdict hverdict
        have hstop : stop access.offset ≤ window :=
          Nat.not_lt.mp fun hlt => hleaves ⟨hregister, hlt⟩
        cases access with
        | read offset =>
            have hread : (PortAccess.read offset).perform (port clock) b = _ :=
              read_of_not_live hregister hstored.not_live b
            rw [hread]
            exact ⟨congrArg Except.ok (h offset hregister hstop), h⟩
        | write offset value =>
            have htakes := PortAccess.takes_of_verdict hverdict
            have hwritten : b.written offset value = b.store offset value :=
              written_of_stored hstored.ne_reset hstored.ne_softwareStart b
            rw [PortAccess.perform_write_of_ok (write_of_takes htakes b), hwritten]
            exact ⟨rfl, h.store (Nat.le_trans hstop hsize) htakes⟩

end SimulatedBoard

/-! ### Runs -/

namespace PortEvent

open Register

def outcome (event : PortEvent) : Except BoardError Unit := event.answer.map fun _ => ()

/-- What an event is behind a window. -/
def within (window : Nat) (event : PortEvent) : PortEvent :=
  if Leaves window event.access.offset then
    ⟨event.access, .error (.unmapped event.access.offset)⟩
  else event

end PortEvent

namespace Memory

open Register

variable {σ : Type} {memory : Memory σ} {window : Nat} {access : PortAccess}

theorem outcome_perform (window : Nat) (access : PortAccess) (s : σ) :
    (access.perform (memory.port window) s).1.map (fun _ => ()) =
      if Leaves window access.offset then .error (.unmapped access.offset) else access.verdict := by
  rw [perform_port]
  split
  · rfl
  · cases access.verdict with
    | error e => rfl
    | ok _ => cases access <;> rfl

theorem stop_le_of_perform_isOk {s : σ} (h : (access.perform (memory.port window) s).1.isOk) :
    stop access.offset ≤ window := by
  rw [perform_port] at h
  by_cases hleaves : Leaves window access.offset
  · rw [if_pos hleaves] at h
    cases h
  · rw [if_neg hleaves] at h
    cases hverdict : access.verdict with
    | error e =>
        rw [hverdict] at h
        cases h
    | ok _ =>
        exact Nat.not_lt.mp fun hlt => hleaves ⟨PortAccess.isRegister_of_verdict hverdict, hlt⟩

/-- The watch on a window sees what was accepted, and nothing behind the window. -/
theorem touches_performAll (memory : Memory σ) (window : Nat) (accesses : List PortAccess) (s : σ) :
    let watched := (memory.watched.port window).performAll accesses (s, [])
    watched.2.2 = watched.1.filterMap PortEvent.touch? ∧
      ∀ touch ∈ watched.2.2, touch.offset + touch.width.bytes ≤ window := by
  refine Port.performAll_induction (P := fun events (after : σ × List Touch) =>
    after.2 = events.filterMap PortEvent.touch? ∧
      ∀ touch ∈ after.2, touch.offset + touch.width.bytes ≤ window)
    ⟨rfl, fun _ hmem => absurd hmem List.not_mem_nil⟩
    (fun events ⟨s, touches⟩ access ⟨hseen, hwithin⟩ => ?_) accesses
  rw [perform_watched]
  refine ⟨?_, fun touch hmem => ?_⟩
  · rw [List.filterMap_append, ← hseen]
    rfl
  · rcases List.mem_append.mp hmem with hold | hnew
    · exact hwithin touch hold
    · obtain ⟨hdone, rfl⟩ := PortEvent.mem_touch?.mp (Option.mem_toList.mp hnew)
      exact stop_le_of_perform_isOk hdone

/-- An access leaves the bytes behind the window, and their number. -/
theorem file_perform (window : Nat) (access : PortAccess) (bytes : Array UInt8) :
    let after := (access.perform (file.port window) bytes).2
    after.size = bytes.size ∧ ∀ i, window ≤ i → after[i]? = bytes[i]? := by
  intro after
  have hafter : after = _ := congrArg Prod.snd (perform_port file access bytes)
  by_cases hleaves : Leaves window access.offset
  · rw [hafter, if_pos hleaves]
    exact ⟨rfl, fun _ _ => rfl⟩
  · rw [hafter, if_neg hleaves]
    cases hverdict : access.verdict with
    | error e => exact ⟨rfl, fun _ _ => rfl⟩
    | ok _ =>
        have hregister := PortAccess.isRegister_of_verdict hverdict
        cases access with
        | read offset => exact ⟨rfl, fun _ _ => rfl⟩
        | write offset value =>
            have hstop : stop offset ≤ window := Nat.not_lt.mp fun hlt => hleaves ⟨hregister, hlt⟩
            refine ⟨MappedBoard.size_overwrite bytes _ _, fun i hi => ?_⟩
            refine MappedBoard.getElem?_overwrite_of_outside bytes (.inr ?_)
            rw [Bytes.length_ofNat]
            exact Nat.le_trans hstop hi

end Memory

namespace MappedBoard

theorem performAll_eq (accesses : List PortAccess) (board : MappedBoard) :
    port.performAll accesses board =
      (((Memory.file.port board.window).performAll accesses board.file).1, { board with
        file := ((Memory.file.port board.window).performAll accesses board.file).2 }) :=
  Port.performAll_of_map (f := fun bytes => (⟨bytes, board.window⟩ : MappedBoard))
    (fun access bytes => perform_eq access ⟨bytes, board.window⟩) accesses board.file

end MappedBoard

open Register

theorem map_outcome_performAll {σ : Type} {port : Port σ}
    {answer : PortAccess → Except BoardError Unit}
    (h : ∀ access s, (PortAccess.perform port access s).1.map (fun _ => ()) = answer access)
    (accesses : List PortAccess) (s : σ) :
    (port.performAll accesses s).1.map PortEvent.outcome = accesses.map answer := by
  induction accesses generalizing s with
  | nil => rfl
  | cons access rest ih =>
      rw [Port.performAll_cons, List.map_cons, ih, List.map_cons, ← h access s]
      rfl

theorem SimulatedBoard.mirrors_performAll (clock : Clock) {window : Nat}
    (accesses : List PortAccess) {bytes : Array UInt8} {b : SimulatedBoard}
    (h : Mirrors window bytes b) (hsize : window ≤ bytes.size)
    (hstored : ∀ access ∈ accesses, IsStored access.offset) :
    let mapped := (Memory.file.port window).performAll accesses bytes
    let simulated := (SimulatedBoard.port clock).performAll accesses b
    mapped.1 = simulated.1.map (PortEvent.within window) ∧ Mirrors window mapped.2 simulated.2 := by
  induction accesses generalizing bytes b with
  | nil => exact ⟨rfl, h⟩
  | cons access rest ih =>
      obtain ⟨hanswer, hmirrors⟩ := mirrors_perform clock h hsize
        (hstored access List.mem_cons_self)
      have hsize' := (Memory.file_perform window access bytes).1
      obtain ⟨hevents, hafter⟩ := ih hmirrors (hsize'.symm ▸ hsize)
        (fun access hmem => hstored access (List.mem_cons_of_mem _ hmem))
      rw [Port.performAll_cons, Port.performAll_cons]
      refine ⟨?_, hafter⟩
      rw [List.map_cons, hevents, PortEvent.within, hanswer]
      refine congrArg (· :: _) ?_
      split <;> rfl

/-- A simulated board and a mapped one say the same to any accesses, in the same order and for the
same reasons, as far as the window reaches: what leaves the window is refused as such, and without a
look at the memory. When the accesses are of registers that are only stored, and the bytes in the
window spell the words of the board, all answers are the same. Whatever is accessed, only accepted
accesses touch the memory, each once and within the window, and the bytes behind it stay. -/
theorem boards_agree (clock : Clock) (accesses : List PortAccess) (b : SimulatedBoard)
    (board : MappedBoard) :
    let window := board.window
    let simulated := (SimulatedBoard.port clock).performAll accesses b
    let mapped := MappedBoard.port.performAll accesses board
    let watched := (Memory.file.watched.port window).performAll accesses (board.file, [])
    simulated.1.map PortEvent.outcome = accesses.map PortAccess.verdict ∧
    mapped.1.map PortEvent.outcome = accesses.map (fun access =>
      if Leaves window access.offset then .error (.unmapped access.offset) else access.verdict) ∧
    (256 ≤ window → mapped.1.map PortEvent.outcome = simulated.1.map PortEvent.outcome) ∧
    (window ≤ board.file.size → Mirrors window board.file b →
      (∀ access ∈ accesses, IsStored access.offset) →
        mapped.1 = simulated.1.map (PortEvent.within window) ∧
        Mirrors window mapped.2.file simulated.2 ∧
        (256 ≤ window → mapped.1 = simulated.1)) ∧
    watched.1 = mapped.1 ∧ mapped.2 = ⟨watched.2.1, window⟩ ∧
    watched.2.2 = mapped.1.filterMap PortEvent.touch? ∧
    (∀ touch ∈ watched.2.2, touch.offset + touch.width.bytes ≤ window) ∧
    mapped.2.file.size = board.file.size ∧
    (∀ i, window ≤ i → mapped.2.file[i]? = board.file[i]?) := by
  intro window simulated mapped watched
  -- The bytes alone: between the board, which has its window with them, and the watched file.
  let filed := (Memory.file.port window).performAll accesses board.file
  have hmapped : mapped = (filed.1, ⟨filed.2, window⟩) := MappedBoard.performAll_eq accesses board
  have hfiled : filed = (watched.1, watched.2.1) :=
    Port.performAll_of_map (f := Prod.fst)
      (fun access s => by rw [Memory.perform_watched]; rfl) accesses (board.file, [])
  have hevents : watched.1 = mapped.1 := by rw [hmapped, hfiled]
  have hverdicts : simulated.1.map PortEvent.outcome = accesses.map PortAccess.verdict :=
    map_outcome_performAll (SimulatedBoard.outcome_perform clock) accesses b
  have hcut : mapped.1.map PortEvent.outcome = accesses.map (fun access =>
      if Leaves window access.offset then .error (.unmapped access.offset)
      else access.verdict) := by
    rw [hmapped]
    exact map_outcome_performAll (Memory.outcome_perform window) accesses board.file
  have hnone (hwide : 256 ≤ window) : ∀ offset, ¬ Leaves window offset := fun _ =>
    not_leaves_of_le hwide
  obtain ⟨htouches, hinside⟩ := Memory.touches_performAll Memory.file window accesses board.file
  obtain ⟨hsize, hbehind⟩ : filed.2.size = board.file.size ∧
      ∀ i, window ≤ i → filed.2[i]? = board.file[i]? :=
    Port.performAll_induction (P := fun _ (bytes : Array UInt8) =>
      bytes.size = board.file.size ∧ ∀ i, window ≤ i → bytes[i]? = board.file[i]?)
      ⟨rfl, fun _ _ => rfl⟩ (fun _ bytes access ⟨hsize, hbehind⟩ =>
        have hstep := Memory.file_perform window access bytes
        ⟨hstep.1.trans hsize, fun i hi => (hstep.2 i hi).trans (hbehind i hi)⟩) accesses
  refine ⟨hverdicts, hcut, fun hwide => ?_, fun hroom hmirrors hstored => ?_, hevents,
    by rw [hmapped, hfiled], hevents ▸ htouches, hinside, by rw [hmapped]; exact hsize,
    by rw [hmapped]; exact hbehind⟩
  · rw [hcut, hverdicts]
    exact List.map_congr_left fun access _ => if_neg (hnone hwide access.offset)
  · obtain ⟨hsame, hafter⟩ :=
      SimulatedBoard.mirrors_performAll clock accesses hmirrors hroom hstored
    rw [hmapped]
    refine ⟨hsame, hafter, fun hwide => hsame.trans ?_⟩
    exact (List.map_congr_left fun event _ => if_neg (hnone hwide event.access.offset)).trans
      (List.map_id _)

/-- A file of the identity registers mirrors a board that was just powered on, and the two go on
agreeing when a register is written, two writes are refused and the register is read. -/
theorem boards_agree_from_powerOn :
    let file := SimulatedBoard.identity.foldl (fun file entry =>
      MappedBoard.overwrite file entry.1.toNat (Bytes.ofUInt32 entry.2)) (Array.replicate 256 0)
    let accesses : List PortAccess :=
      [.write dioOutput 0xDEADBEEF, .write deviceId 1, .write startChannel 0x100, .read dioOutput]
    256 ≤ file.size ∧ Mirrors 256 file SimulatedBoard.powerOn ∧
      (∀ access ∈ accesses, IsStored access.offset) ∧
      (MappedBoard.port.performAll accesses ⟨file, 256⟩).1 =
        ((SimulatedBoard.port .steady).performAll accesses SimulatedBoard.powerOn).1 := by
  intro file accesses
  have hsize : 256 ≤ file.size := by decide +kernel
  have hmirrors : Mirrors 256 file SimulatedBoard.powerOn := by
    have hall : ∀ i : Fin 256, IsRegister (UInt8.ofFin i) → stop (UInt8.ofFin i) ≤ 256 →
        wordIn file (UInt8.ofFin i) = SimulatedBoard.powerOn.peek (UInt8.ofFin i) := by
      decide +kernel
    exact fun offset => hall offset.toFin
  have hstored : ∀ access ∈ accesses, IsStored access.offset := by decide
  clear_value file accesses
  obtain ⟨-, -, -, hsame, -⟩ :=
    boards_agree .steady accesses SimulatedBoard.powerOn ⟨file, 256⟩
  exact ⟨hsize, hmirrors, hstored, (hsame hsize hmirrors hstored).2.2 (Nat.le_refl 256)⟩

end DaqServer
