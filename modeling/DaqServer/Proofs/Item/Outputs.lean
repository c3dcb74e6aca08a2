import DaqServer.Proofs.Item.Failure
import DaqServer.Proofs.Item.Turns

/-!
# Digital outputs, line by line

Single outputs are driven by items of their own, all of them at once by others, and the items that
write a named register reach the latch of the outputs as well. `Item.drive` is what each does to the
levels of the lines. Main statement: after any such items the levels are those that the items have
made of them one after another, nothing else has changed, driving one line is as good as setting or
clearing its bit, and different lines are driven in any order (`Item.outputs_compose`).
-/

namespace DaqServer

/-- A level for each of the digital lines. -/
abbrev Levels := Fin dioLines → Bool

namespace Levels

def ofWord (word : UInt32) : Levels := fun line => word.toNat.testBit line

/-- The levels that bytes spell, eight lines each; lines that no byte is left for are low. -/
def ofBytes (bytes : Bytes) : Levels := fun line =>
  (bytes.getD (line / 8) 0).toNat.testBit (line % 8)

theorem ofWord_injective {word word' : UInt32} (h : ofWord word = ofWord word') : word = word' := by
  refine UInt32.toNat_inj.mp (Nat.eq_of_testBit_eq fun line => ?_)
  by_cases hline : line < 32
  · exact congrFun h ⟨line, hline⟩
  · have hhigh (w : UInt32) : w.toNat.testBit line = false :=
      Nat.testBit_lt_two_pow (Nat.lt_of_lt_of_le w.toNat_lt
        (Nat.pow_le_pow_right (by decide) (Nat.not_lt.mp hline)))
    rw [hhigh, hhigh]

theorem ofWord_or (word mask : UInt32) :
    ofWord (word ||| mask) = fun line => ofWord word line || ofWord mask line := by
  funext line
  rw [ofWord, UInt32.toNat_or, Nat.testBit_or]
  rfl

theorem ofWord_and_not (word mask : UInt32) :
    ofWord (word &&& ~~~mask) = fun line => ofWord word line && !ofWord mask line := by
  funext line
  have hline : line.val < 32 := line.isLt
  have hmask : (~~~mask).toNat = 2 ^ 32 - (mask.toNat + 1) := by
    rw [UInt32.toNat_not, Nat.add_comm, Nat.sub_add_eq]
    rfl
  rw [ofWord, UInt32.toNat_and, Nat.testBit_and, hmask,
    Nat.testBit_two_pow_sub_succ mask.toNat_lt, decide_eq_true hline, Bool.true_and]
  rfl

theorem ofWord_xor (word mask : UInt32) :
    ofWord (word ^^^ mask) = fun line => ofWord word line ^^ ofWord mask line := by
  funext line
  rw [ofWord, UInt32.toNat_xor, Nat.testBit_xor]
  rfl

theorem ofWord_line (bit : Fin dioLines) :
    ofWord (1 <<< UInt32.ofNat bit) = fun line => decide (line = bit) := by
  have hpower : ∀ bit : Fin dioLines, (1 <<< UInt32.ofNat bit : UInt32).toNat = 2 ^ bit.val := by
    decide
  funext line
  rw [ofWord, hpower, Nat.testBit_two_pow]
  exact decide_eq_decide.mpr ⟨fun h => (Fin.ext h).symm, fun h => congrArg Fin.val h.symm⟩

end Levels

theorem Bytes.testBit_toNat (bytes : Bytes) (line : Nat) :
    (toNat bytes).testBit line = (bytes.getD (line / 8) 0).toNat.testBit (line % 8) := by
  induction bytes generalizing line with
  | nil => simp
  | cons b bytes ih =>
      have hb : b.toNat < 2 ^ 8 := b.toNat_lt
      rw [toNat_cons, Nat.add_comm, show (256 : Nat) = 2 ^ 8 from rfl,
        Nat.testBit_two_pow_mul_add _ hb]
      split
      · rename_i hlow
        rw [Nat.div_eq_of_lt hlow, Nat.mod_eq_of_lt hlow]
        rfl
      · rename_i hhigh
        obtain ⟨k, rfl⟩ := Nat.exists_eq_add_of_le (Nat.not_lt.mp hhigh)
        rw [Nat.add_sub_cancel_left, ih, Nat.add_div_left _ (by decide), Nat.add_mod_left]
        rfl

theorem Bytes.LittleEndian.ofWord_eq {bytes : Bytes} {word : UInt32} (h : LittleEndian bytes word) :
    Levels.ofWord word = Levels.ofBytes bytes := by
  funext line
  rw [Levels.ofWord, h.2, testBit_toNat]
  rfl

namespace SimulatedBoard

variable {clock : Clock}

theorem write_output (value : UInt32) (b : SimulatedBoard) :
    (port clock).write Register.dioOutput value b =
      (.ok (), b.store Register.dioOutput value) :=
  write_of_checkWrite (Register.checkWrite_eq_ok rfl rfl rfl (Width.fits_dword value))

theorem modify_output (f : UInt32 → UInt32) (b : SimulatedBoard) :
    (port clock).modify Register.dioOutput f b =
      (.ok (), b.store Register.dioOutput (f (b.peek Register.dioOutput))) := by
  have hread : (port clock).read Register.dioOutput b =
      (.ok (b.peek Register.dioOutput), b) := rfl
  rw [Port.modify, bind_of_ok hread, write_output]

end SimulatedBoard

namespace ItemId

def naming : List ItemId := [registerWrite, registerClear, registerSet, registerToggle]

def driving (level : Bool) : ItemId := if level then registerSet else registerClear

end ItemId

namespace Item

/-- Whether an item was read that drives digital outputs, under its own kind or through the register
that holds their latch. -/
def IsOutput (i : Item) : Prop :=
  i.IsRead ∧ ∃ id, i.id? = some id ∧ (id = .dioOutput ∨ id = .dioOutputs ∨
    id ∈ ItemId.naming ∧ i.payload.head? = some Register.dioOutput)

/-- The levels after an item that drives outputs, from those before it. -/
def drive (i : Item) (levels : Levels) : Levels :=
  match i.id?, i.payload with
  | some .dioOutput, [bit, level] =>
      fun line => if line.val = bit.toNat then level == 1 else levels line
  | some .dioOutputs, word => .ofBytes word
  | some .registerWrite, _ :: word => .ofBytes word
  | some .registerSet, _ :: mask => fun line => levels line || Levels.ofBytes mask line
  | some .registerClear, _ :: mask => fun line => levels line && !Levels.ofBytes mask line
  | some .registerToggle, _ :: mask => fun line => levels line ^^ Levels.ofBytes mask line
  | _, _ => levels

end Item

/-- The latch of the outputs after a request that drives them, from what it was before. -/
def Request.latch : Request → UInt32 → UInt32
  | dioOutput bit true, word => word ||| 1 <<< UInt32.ofNat bit
  | dioOutput bit false, word => word &&& ~~~(1 <<< UInt32.ofNat bit)
  | command (.dioOutputs value), _ => value
  | command (.write _ value), _ => value
  | command (.setBits _ mask), word => word ||| mask
  | command (.clearBits _ mask), word => word &&& ~~~mask
  | command (.toggleBits _ mask), word => word ^^^ mask
  | _, word => word

theorem RegisterFile.ext_get {r r' : RegisterFile} (h : ∀ offset, r.get offset = r'.get offset) :
    r = r' := by
  obtain ⟨words⟩ := r
  obtain ⟨words'⟩ := r'
  refine congrArg RegisterFile.mk (Vector.ext fun k hk => ?_)
  have hoffset : (UInt8.ofNat k).toNat = k := UInt8.toNat_ofNat_of_lt hk
  have hword := h (UInt8.ofNat k)
  simp only [get, hoffset] at hword
  exact hword

namespace Instrument

variable {δ : Type} {x y z : Instrument SimulatedBoard δ}

def levels (x : Instrument SimulatedBoard δ) : Levels :=
  .ofWord (x.board.peek Register.dioOutput)

def latched (x : Instrument SimulatedBoard δ) (word : UInt32) : Instrument SimulatedBoard δ :=
  { x with board := x.board.store Register.dioOutput word }

/-- An instrument of which at most the latch of the outputs has changed, and the log of writes. -/
structure SameButLatch (x y : Instrument SimulatedBoard δ) : Prop where
  rest : y = { x with board := { x.board with
    registers := y.board.registers
    writes := y.board.writes } }
  registers : ∀ offset, offset ≠ Register.dioOutput → y.board.peek offset = x.board.peek offset

theorem SameButLatch.refl (x : Instrument SimulatedBoard δ) : x.SameButLatch x :=
  ⟨rfl, fun _ _ => rfl⟩

theorem SameButLatch.trans (h : x.SameButLatch y) (h' : y.SameButLatch z) : x.SameButLatch z where
  rest := by
    rw [h'.rest, h.rest]
  registers offset hoffset := (h'.registers offset hoffset).trans (h.registers offset hoffset)

theorem sameButLatch_latched (x : Instrument SimulatedBoard δ) (word : UInt32) :
    x.SameButLatch (x.latched word) :=
  ⟨rfl, fun _ hoffset => SimulatedBoard.peek_store_of_ne word (Ne.symm hoffset)⟩

/-- The levels tell instruments apart that differ at most in the latch, up to the log. -/
theorem SameButLatch.eq_of_levels (hy : x.SameButLatch y) (hz : x.SameButLatch z)
    (h : y.levels = z.levels) :
    z = { y with board := { y.board with writes := z.board.writes } } := by
  have hregisters : z.board.registers = y.board.registers := by
    refine RegisterFile.ext_get fun offset => ?_
    by_cases hoffset : offset = Register.dioOutput
    · rw [hoffset]
      exact Levels.ofWord_injective h.symm
    · exact (hz.registers offset hoffset).trans (hy.registers offset hoffset).symm
  rw [hz.rest, hy.rest, hregisters]

end Instrument

namespace Item

open Catalogue (construct)

variable {δ : Type} {setup : Setup SimulatedBoard δ} {clock : Clock} {i : Item}

/-- What an item that drives outputs asks for. -/
inductive Drives : ItemId → Bytes → Request → Prop
  | line (bit : Fin dioLines) (level : Bool) :
      Drives .dioOutput [UInt8.ofNat bit, level.toUInt8] (.dioOutput bit level)
  | all {word : Bytes} {value : UInt32} (h : Bytes.LittleEndian word value) :
      Drives .dioOutputs word (.command (.dioOutputs value))
  | write {word : Bytes} {value : UInt32} (h : Bytes.LittleEndian word value) :
      Drives .registerWrite (Register.dioOutput :: word)
        (.command (.write Register.dioOutput value))
  | set {mask : Bytes} {value : UInt32} (h : Bytes.LittleEndian mask value) :
      Drives .registerSet (Register.dioOutput :: mask)
        (.command (.setBits Register.dioOutput value))
  | clear {mask : Bytes} {value : UInt32} (h : Bytes.LittleEndian mask value) :
      Drives .registerClear (Register.dioOutput :: mask)
        (.command (.clearBits Register.dioOutput value))
  | toggle {mask : Bytes} {value : UInt32} (h : Bytes.LittleEndian mask value) :
      Drives .registerToggle (Register.dioOutput :: mask)
        (.command (.toggleBits Register.dioOutput value))

theorem IsOutput.exists_ofRequest (h : i.IsOutput) :
    ∃ id payload request, Drives id payload request ∧ i = .ofRequest id payload request := by
  obtain ⟨hread, id, hkind, hid⟩ := h
  obtain ⟨id', payload, request, hasks, rfl⟩ := hread.exists_ofRequest
  obtain rfl : id' = id := Option.some_inj.mp ((id?_ofRequest _ _ _).symm.trans hkind)
  refine ⟨id', payload, request, ?_, rfl⟩
  rcases hid with rfl | rfl | ⟨hnaming, hhead⟩
  · cases hasks
    exact .line _ _
  · cases hasks with
    | dioOutputs h => exact .all h
  · cases hasks with
    | write offset h =>
        obtain rfl : offset = Register.dioOutput := Option.some_inj.mp hhead
        exact .write h
    | setBits offset h =>
        obtain rfl : offset = Register.dioOutput := Option.some_inj.mp hhead
        exact .set h
    | clearBits offset h =>
        obtain rfl : offset = Register.dioOutput := Option.some_inj.mp hhead
        exact .clear h
    | toggleBits offset h =>
        obtain rfl : offset = Register.dioOutput := Option.some_inj.mp hhead
        exact .toggle h
    | _ => exact absurd hnaming (by decide)

theorem drive_line (bit : Fin dioLines) (level : Bool) (request : Request) (levels : Levels) :
    (ofRequest .dioOutput [UInt8.ofNat bit, level.toUInt8] request).drive levels =
      fun line => if line = bit then level else levels line := by
  have hbit : (UInt8.ofNat bit).toNat = bit := toNat_ofNat_fin (by decide) bit
  have hlevel : (level.toUInt8 == 1) = level := by cases level <;> rfl
  funext line
  change (if line.val = (UInt8.ofNat bit).toNat then level.toUInt8 == 1 else levels line) = _
  rw [hbit, hlevel]
  exact if_congr Fin.ext_iff.symm rfl rfl

/-- The request changes the latch just as the item changes the levels. -/
theorem Drives.ofWord_latch {id : ItemId} {payload : Bytes} {request : Request}
    (h : Drives id payload request) (word : UInt32) :
    Levels.ofWord (request.latch word) =
      (ofRequest id payload request).drive (Levels.ofWord word) := by
  cases h with
  | line bit level =>
      rw [drive_line]
      funext line
      cases level with
      | false =>
          rw [Request.latch, Levels.ofWord_and_not, Levels.ofWord_line]
          split <;> simp [*]
      | true =>
          rw [Request.latch, Levels.ofWord_or, Levels.ofWord_line]
          split <;> simp [*]
  | all h | write h => exact h.ofWord_eq
  | set h =>
      rw [Request.latch, Levels.ofWord_or, h.ofWord_eq]
      rfl
  | clear h =>
      rw [Request.latch, Levels.ofWord_and_not, h.ofWord_eq]
      rfl
  | toggle h =>
      rw [Request.latch, Levels.ofWord_xor, h.ofWord_eq]
      rfl

/-- The latch is read and written again, or only written. -/
theorem Drives.execute (hport : setup.port = SimulatedBoard.port clock) {id : ItemId}
    {payload : Bytes} {request : Request} (h : Drives id payload request)
    (connection : ConnectionId) (x : Instrument SimulatedBoard δ) :
    ∃ done, (ofRequest id payload request).execute setup connection x =
      ((.ok (), done), x.latched (request.latch (x.board.peek Register.dioOutput))) := by
  cases h with
  | line bit level =>
      refine ⟨⟨_, _, _, .done ()⟩, execute_of_run ?_⟩
      rw [Request.run, hport, Port.driveOutput]
      refine (ItemAction.board_of_ok (SimulatedBoard.modify_output _ _)).trans ?_
      cases level <;> rfl
  | all | write =>
      refine ⟨⟨_, _, _, .done ()⟩, execute_of_run ?_⟩
      rw [Request.run, hport]
      exact ItemAction.board_of_ok (SimulatedBoard.write_output _ _)
  | set | clear | toggle =>
      refine ⟨⟨_, _, _, .done ()⟩, execute_of_run ?_⟩
      rw [Request.run, hport]
      exact ItemAction.board_of_ok (SimulatedBoard.modify_output _ _)

theorem IsOutput.execute (hport : setup.port = SimulatedBoard.port clock) (h : i.IsOutput)
    (connection : ConnectionId) (x : Instrument SimulatedBoard δ) :
    ∃ done y, i.execute setup connection x = ((.ok (), done), y) ∧ x.SameButLatch y ∧
      y.levels = i.drive x.levels := by
  obtain ⟨id, payload, request, hdrives, rfl⟩ := h.exists_ofRequest
  obtain ⟨done, hexecute⟩ := hdrives.execute hport connection x
  refine ⟨done, _, hexecute, x.sameButLatch_latched _, ?_⟩
  exact (congrArg Levels.ofWord (SimulatedBoard.peek_store_self _ _)).trans (hdrives.ofWord_latch _)

theorem levels_carryOut (hport : setup.port = SimulatedBoard.port clock)
    {sent : List (ConnectionId × Item)} (h : ∀ s ∈ sent, s.2.IsOutput)
    (x : Instrument SimulatedBoard δ) :
    x.SameButLatch (x.carryOut setup sent) ∧
      (x.carryOut setup sent).levels =
        sent.foldl (fun levels s => s.2.drive levels) x.levels := by
  induction sent generalizing x with
  | nil => exact ⟨.refl x, rfl⟩
  | cons s rest ih =>
      obtain ⟨done, y, hexecute, hsame, hlevels⟩ := (h s List.mem_cons_self).execute hport s.1 x
      obtain ⟨hrest, hfold⟩ := ih (fun later hmem => h later (List.mem_cons_of_mem _ hmem)) y
      rw [Instrument.carryOut, hexecute, List.foldl_cons, ← hlevels]
      exact ⟨hsame.trans hrest, hfold⟩

theorem exists_line_of_construct {bit value : UInt8}
    (h : construct ItemId.dioOutput.code [bit, value] = .ok i) :
    ∃ (line : Fin dioLines) (level : Bool), bit = UInt8.ofNat line ∧ value = level.toUInt8 ∧
      i = .ofRequest .dioOutput [bit, value] (.dioOutput line level) := by
  obtain ⟨id, request, hcode, hasks, rfl⟩ := exists_of_construct h
  obtain rfl := ItemId.code_injective hcode
  generalize hpayload : [bit, value] = payload at hasks
  cases hasks with
  | dioOutput line level =>
      obtain ⟨hbit, hvalue⟩ := List.cons_eq_cons.mp hpayload
      exact ⟨line, level, hbit, (List.cons_eq_cons.mp hvalue).1, rfl⟩

theorem drives_of_driving {level : Bool} {mask : Bytes}
    (h : construct (ItemId.driving level).code (Register.dioOutput :: mask) = .ok i) :
    ∃ request, Drives (ItemId.driving level) (Register.dioOutput :: mask) request ∧
      i = .ofRequest (ItemId.driving level) (Register.dioOutput :: mask) request ∧
      ∀ word, request.latch word = if level then word ||| Bytes.toUInt32 mask
        else word &&& ~~~Bytes.toUInt32 mask := by
  obtain ⟨id, request, hcode, hasks, rfl⟩ := exists_of_construct h
  obtain rfl := ItemId.code_injective hcode
  refine ⟨request, ?_⟩
  cases level with
  | false =>
      cases hasks with
      | clearBits _ hmask => exact ⟨.clear hmask, rfl, fun word => by rw [hmask.toUInt32_eq]; rfl⟩
  | true =>
      cases hasks with
      | setBits _ hmask => exact ⟨.set hmask, rfl, fun word => by rw [hmask.toUInt32_eq]; rfl⟩

/-- To drive one line is to set or to clear its bit. -/
theorem execute_line_eq (hport : setup.port = SimulatedBoard.port clock) {bit : UInt8}
    {level : Bool} {mask : Bytes} {single masked : Item}
    (hsingle : construct ItemId.dioOutput.code [bit, level.toUInt8] = .ok single)
    (hmask : Bytes.toUInt32 mask = 1 <<< bit.toUInt32)
    (hmasked : construct (ItemId.driving level).code (Register.dioOutput :: mask) = .ok masked)
    (connection other : ConnectionId) (x : Instrument SimulatedBoard δ) :
    (masked.execute setup other x).2 = (single.execute setup connection x).2 := by
  obtain ⟨line, level', rfl, hlevel, rfl⟩ := exists_line_of_construct hsingle
  obtain rfl : level' = level := by
    cases level <;> cases level' <;> first | rfl | cases hlevel
  obtain ⟨request, hdrives, rfl, hlatch⟩ := drives_of_driving hmasked
  obtain ⟨_, hline⟩ := (Drives.line line level').execute hport connection x
  obtain ⟨_, hmaskedrun⟩ := hdrives.execute hport other x
  have hbit : ∀ line : Fin dioLines, (UInt8.ofNat line).toUInt32 = UInt32.ofNat line := by decide
  rw [hline, hmaskedrun, hlatch, hmask, hbit]
  cases level' <;> rfl

/-- Items that drive different lines one at a time have the same effect in either order. -/
theorem drive_comm {b c l m : UInt8} {first second : Item} (hne : b ≠ c)
    (hfirst : construct ItemId.dioOutput.code [b, l] = .ok first)
    (hsecond : construct ItemId.dioOutput.code [c, m] = .ok second) (levels : Levels) :
    first.drive (second.drive levels) = second.drive (first.drive levels) := by
  obtain ⟨bit, low, rfl, rfl, rfl⟩ := exists_line_of_construct hfirst
  obtain ⟨other, high, rfl, rfl, rfl⟩ := exists_line_of_construct hsecond
  rw [drive_line, drive_line, drive_line, drive_line]
  funext line
  by_cases hbit : line = bit
  · have hother : line ≠ other := fun hother => hne (by rw [← hbit, hother])
    simp only [hbit, if_neg (hbit ▸ hother)]
  · simp only [if_neg hbit]

/-- Items that drive digital outputs succeed on a simulated board in any state. After any of them
the levels are those that they have made of the levels before, one after another; of everything else
only the log of writes has changed. An item that drives one line does just what one does that sets
or clears the bit of the line, wherever it stands among others. Two that drive different lines may
change places, which is seen in the log alone. -/
theorem outputs_compose (hport : setup.port = SimulatedBoard.port clock)
    {sent : List (ConnectionId × Item)} (hsent : ∀ s ∈ sent, s.2.IsOutput)
    (x : Instrument SimulatedBoard δ) :
    (∀ s ∈ sent, ∀ y, ∃ done z, s.2.execute setup s.1 y = ((.ok (), done), z)) ∧
    x.SameButLatch (x.carryOut setup sent) ∧
    (x.carryOut setup sent).levels = sent.foldl (fun levels s => s.2.drive levels) x.levels ∧
    (∀ before after connection other bit level mask single masked,
      sent = before ++ (connection, single) :: after →
      construct ItemId.dioOutput.code [bit, Bool.toUInt8 level] = .ok single →
      Bytes.toUInt32 mask = 1 <<< bit.toUInt32 →
      construct (ItemId.driving level).code (Register.dioOutput :: mask) = .ok masked →
      x.carryOut setup (before ++ (other, masked) :: after) = x.carryOut setup sent) ∧
    (∀ before after first second b c l m,
      sent = before ++ first :: second :: after → b ≠ c →
      construct ItemId.dioOutput.code [b, l] = .ok first.2 →
      construct ItemId.dioOutput.code [c, m] = .ok second.2 →
      let ordered := x.carryOut setup sent
      let swapped := x.carryOut setup (before ++ second :: first :: after)
      swapped = { ordered with
        board := { ordered.board with writes := swapped.board.writes } }) := by
  obtain ⟨hsame, hlevels⟩ := levels_carryOut hport hsent x
  refine ⟨fun s hs y => ?_, hsame, hlevels, ?_, ?_⟩
  · obtain ⟨done, z, hexecute, -⟩ := (hsent s hs).execute hport s.1 y
    exact ⟨done, z, hexecute⟩
  · rintro before after connection other bit level mask single masked rfl hsingle hmask hmasked
    rw [Instrument.carryOut_append, Instrument.carryOut_append, Instrument.carryOut,
      Instrument.carryOut, execute_line_eq hport hsingle hmask hmasked connection other]
  · rintro before after first second b c l m rfl hne hfirst hsecond ordered swapped
    have hswapped : ∀ s ∈ before ++ second :: first :: after, s.2.IsOutput := fun s hs =>
      hsent s (((List.Perm.swap first second after).append_left before).mem_iff.mp hs)
    obtain ⟨hsame', hlevels'⟩ := levels_carryOut hport hswapped x
    -- Each order leaves the same levels, and the levels tell all that may differ.
    refine hsame.eq_of_levels hsame' ?_
    rw [hlevels, hlevels', List.foldl_append, List.foldl_append, List.foldl_cons, List.foldl_cons,
      List.foldl_cons, List.foldl_cons, drive_comm hne hfirst hsecond]

/-- All lines are driven, then two of them, and the lowest four are toggled with a mask of one
byte. -/
theorem outputs_compose_from_powerOn :
    let all := ofRequest .dioOutputs [0x20, 0, 0, 0x80] (.command (.dioOutputs 0x80000020))
    let third := ofRequest .dioOutput [3, 1] (.dioOutput 3 true)
    let fifth := ofRequest .dioOutput [5, 0] (.dioOutput 5 false)
    let toggled := ofRequest .registerToggle [0xE8, 0x0F]
      (.command (.toggleBits Register.dioOutput 0x0F))
    let masked := ofRequest .registerSet [0xE8, 8] (.command (.setBits Register.dioOutput 8))
    let sent : List (ConnectionId × Item) :=
      [(⟨1⟩, all), (⟨1⟩, third), (⟨2⟩, fifth), (⟨1⟩, toggled)]
    let setup := Setup.around (SimulatedBoard.port .steady)
    let x : Instrument SimulatedBoard SimulatedDma := .idle .powerOn .powerOn
    let ordered := x.carryOut setup sent
    let swapped := x.carryOut setup [(⟨1⟩, all), (⟨2⟩, fifth), (⟨1⟩, third), (⟨1⟩, toggled)]
    (∀ s ∈ sent, s.2.IsOutput) ∧ ordered.levels = Levels.ofWord 0x80000007 ∧
      x.carryOut setup [(⟨1⟩, all), (⟨3⟩, masked), (⟨2⟩, fifth), (⟨1⟩, toggled)] = ordered ∧
      swapped = { ordered with
        board := { ordered.board with writes := swapped.board.writes } } := by
  intro all third fifth toggled masked sent setup x ordered swapped
  have hsent : ∀ s ∈ sent, s.2.IsOutput :=
    List.forall_mem_cons.mpr ⟨⟨rfl, .dioOutputs, rfl, by decide⟩,
      List.forall_mem_cons.mpr ⟨⟨rfl, .dioOutput, rfl, by decide⟩,
        List.forall_mem_cons.mpr ⟨⟨rfl, .dioOutput, rfl, by decide⟩,
          List.forall_mem_singleton.mpr ⟨rfl, .registerToggle, rfl, by decide⟩⟩⟩⟩
  obtain ⟨-, -, hlevels, hmasked, hswapped⟩ :=
    outputs_compose (rfl : setup.port = SimulatedBoard.port .steady) hsent x
  refine ⟨hsent, hlevels.trans ?_, ?_, ?_⟩
  · funext line
    revert line
    decide
  · exact hmasked [_] [_, _] _ ⟨3⟩ 3 true [8] third masked rfl rfl rfl rfl
  · exact hswapped [_] [_] _ _ 3 5 1 0 rfl (by decide) rfl rfl

end Item

end DaqServer
