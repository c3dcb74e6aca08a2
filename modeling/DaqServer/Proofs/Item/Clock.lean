import DaqServer.Proofs.Message.Execution
import DaqServer.Proofs.Scan.Steps

/-!
# What the board clock is told to be

The two words of the clock are read one after the other, each at an instant of its own, and joined
to one number. Main statements: the number is not below the clock at the first of the two reads, and
it is not above the clock at the second one unless the low word went down in between
(`clock_ticks_bounded`); a clock that does so is told to be where it never was, and to have run
backwards by the next item (`carry_between_reads`).
-/

namespace DaqServer

/-- The low word of a clock goes down from one instant to the next. -/
def Clock.Carries (clock : Clock) (instant : Nat) : Prop :=
  clock.reading (instant + 1) % 0x100000000 < clock.reading instant % 0x100000000

instance (clock : Clock) (instant : Nat) : Decidable (clock.Carries instant) :=
  inferInstanceAs (Decidable (_ < _))

/-- A clock whose readings fit in two words. -/
def Clock.IsWide (clock : Clock) : Prop := ∀ instant, clock.reading instant < UInt64.size

def Item.ticks? : Item → Option UInt64
  | ⟨_, _, .clock, .done ticks⟩ => some ticks
  | _ => none

section Words

variable {clock : Clock} {instant : Nat}

/-- A low and a high word as one number. -/
theorem toNat_joined (low high : UInt32) :
    (high.toUInt64 <<< 32 ||| low.toUInt64).toNat = high.toNat * 0x100000000 + low.toNat := by
  have hlow := low.toNat_lt
  have hhigh : high.toNat <<< 32 < 2 ^ 64 := by
    rw [Nat.shiftLeft_eq]
    have := high.toNat_lt
    omega
  rw [UInt64.toNat_or, UInt64.toNat_shiftLeft, UInt32.toNat_toUInt64, UInt32.toNat_toUInt64]
  change (high.toNat <<< 32 % 2 ^ 64) ||| low.toNat = _
  rw [Nat.mod_eq_of_lt hhigh, ← Nat.shiftLeft_add_eq_or_of_lt hlow, Nat.shiftLeft_eq]

/-- What is read from an instant on: the low word of that instant and the high word of the next. -/
def Clock.told (clock : Clock) (instant : Nat) : Nat :=
  clock.reading (instant + 1) / 0x100000000 * 0x100000000 + clock.reading instant % 0x100000000

theorem Clock.reading_le_told (clock : Clock) (instant : Nat) :
    clock.reading instant ≤ clock.told instant := by
  have hsplit := Nat.div_add_mod' (clock.reading instant) 0x100000000
  have hhigh :
      clock.reading instant / 0x100000000 ≤ clock.reading (instant + 1) / 0x100000000 :=
    Nat.div_le_div_right (clock.monotone instant)
  calc clock.reading instant
      = clock.reading instant / 0x100000000 * 0x100000000 +
          clock.reading instant % 0x100000000 := hsplit.symm
    _ ≤ clock.told instant := Nat.add_le_add_right (Nat.mul_le_mul_right _ hhigh) _

theorem Clock.told_le_iff (clock : Clock) (instant : Nat) :
    clock.told instant ≤ clock.reading (instant + 1) ↔ ¬ clock.Carries instant := by
  have hsplit := Nat.div_add_mod' (clock.reading (instant + 1)) 0x100000000
  rw [told, Carries]
  omega

/-- The two reads of the clock, at successive instants. -/
theorem readClock_eq (hwide : clock.IsWide) (b : SimulatedBoard) :
    ∃ ticks : UInt64, ticks.toNat = clock.told b.instant ∧
      (SimulatedBoard.port clock).readClock b =
        (.ok ticks, { b with instant := b.instant + 2 }) := by
  refine ⟨(UInt32.ofNat (clock.reading (b.instant + 1) / 0x100000000)).toUInt64 <<< 32 |||
    (UInt32.ofNat (clock.reading b.instant)).toUInt64, ?_, rfl⟩
  have hhigh : clock.reading (b.instant + 1) / 0x100000000 < 2 ^ 32 :=
    Nat.div_lt_of_lt_mul (hwide (b.instant + 1))
  rw [toNat_joined, UInt32.toNat_ofNat', UInt32.toNat_ofNat', Nat.mod_eq_of_lt hhigh]
  rfl

end Words

/-! ### No access turns the clock back -/

section Forward

variable {ε α γ : Type} (clock : Clock)

def Forward (x : ExceptT ε (StateM SimulatedBoard) α) : Prop := ∀ b, b.instant ≤ (x b).2.instant

theorem chains_forward : Chains fun (b : SimulatedBoard) _ b' => b.instant ≤ b'.instant where
  refl _ := Nat.le_refl _
  trans := Nat.le_trans

theorem forward_pure (a : α) : Forward (pure a : ExceptT ε (StateM SimulatedBoard) α) :=
  chains_forward.pure a

theorem Forward.bind {x : ExceptT ε (StateM SimulatedBoard) α}
    {f : α → ExceptT ε (StateM SimulatedBoard) γ} (hx : Forward x) (hf : ∀ a, Forward (f a)) :
    Forward (x >>= f) := chains_forward.bind hx hf

theorem forward_read (offset : UInt8) : Forward ((SimulatedBoard.port clock).read offset) := by
  intro b
  change b.instant ≤ (SimulatedBoard.read clock offset b).2.instant
  unfold SimulatedBoard.read SimulatedBoard.afterRead
  split
  · exact Nat.le_refl _
  · dsimp only
    split
    · exact Nat.le_refl _
    · split
      · exact Nat.le_succ _
      · exact Nat.le_refl _

theorem instant_strobeReset (b : SimulatedBoard) (bits : ResetBits) :
    (b.strobeReset bits).instant = b.instant := by
  rcases bits with ⟨_ | _, _ | _, _ | _⟩ <;> rfl

theorem instant_afterWrite (b : SimulatedBoard) (offset : UInt8) (value : UInt32) :
    (b.afterWrite offset value).instant = b.instant := by
  unfold SimulatedBoard.afterWrite
  split
  · exact instant_strobeReset b _
  · split
    · split <;> rfl
    · rfl

theorem forward_write (offset : UInt8) (value : UInt32) :
    Forward ((SimulatedBoard.port clock).write offset value) := by
  intro b
  change b.instant ≤ (SimulatedBoard.write offset value b).2.instant
  unfold SimulatedBoard.write
  split
  · exact Nat.le_refl _
  · have hinstant :=
      instant_afterWrite { b with writes := b.writes ++ [(offset, value)] } offset value
    exact Nat.le_of_eq hinstant.symm

theorem forward_modify (offset : UInt8) (f : UInt32 → UInt32) :
    Forward ((SimulatedBoard.port clock).modify offset f) :=
  (forward_read clock offset).bind fun _ => forward_write clock _ _

theorem forward_forM {ι : Type} {f : ι → ExceptT ε (StateM SimulatedBoard) PUnit}
    (hf : ∀ i, Forward (f i)) (xs : List ι) : Forward (xs.forM f) :=
  chains_forward.forM fun i _ => hf i

theorem forward_option_forM {ι : Type} {f : ι → ExceptT ε (StateM SimulatedBoard) PUnit}
    (hf : ∀ i, Forward (f i)) (value : Option ι) : Forward (value.forM f) := by
  cases value with
  | none => exact forward_pure _
  | some i => exact hf i

theorem forward_ofFnM {n : Nat} {f : Fin n → ExceptT ε (StateM SimulatedBoard) α}
    (hf : ∀ i, Forward (f i)) : Forward (Vector.ofFnM f) := chains_forward.ofFnM hf

theorem forward_command (c : Command) : Forward (c.run (SimulatedBoard.port clock)) := by
  cases c with
  | resetBoard => exact forward_write clock _ _
  | write offset value => exact forward_write clock _ _
  | clearBits offset mask => exact forward_modify clock _ _
  | setBits offset mask => exact forward_modify clock _ _
  | toggleBits offset mask => exact forward_modify clock _ _
  | dacOutput channel value => exact forward_write clock _ _
  | dioDirection value => exact forward_write clock _ _
  | dioOutputs value => exact forward_write clock _ _

theorem instant_le_of_leads {y : ExceptT ε (StateM Replay) α} {answers : List PortAnswer}
    {b b' : SimulatedBoard} {result : Except ε α}
    (h : Leads (SimulatedBoard.port clock) y answers b result b') : b.instant ≤ b'.instant := by
  induction h with
  | done _ => exact Nat.le_refl _
  | @ask _ b _ _ _ access _ _ _ hperform _ ih =>
      have hforward : Forward (access.perform (SimulatedBoard.port clock)) := by
        cases access with
        | read offset => exact forward_read clock offset
        | write offset value =>
            exact (forward_write clock offset value).bind fun _ => forward_pure _
      have hstep := hforward b
      rw [hperform] at hstep
      exact Nat.le_trans hstep ih

end Forward

namespace Instrument

variable {δ : Type} {setup : Setup SimulatedBoard δ} {clock : Clock}

theorem instant_le_scan (hport : setup.port = SimulatedBoard.port clock)
    (x : Instrument SimulatedBoard δ) : x.board.instant ≤ (x.scan setup).2.board.instant := by
  rw [scan, Scan.run, hport]
  rcases x.arbiter.beginScan with e | held
  · exact Nat.le_refl _
  · exact instant_le_of_leads clock (Scan.replays_measure _ setup.scan setup.watch x.board)

theorem board_startStream {β : Type} (setup : Setup β δ) (id : ConnectionId) (x : Instrument β δ) :
    (x.startStream setup id).2.board = x.board := by
  unfold startStream
  split
  · rfl
  · split
    · rfl
    · dsimp only
      split <;> rfl

theorem board_requestStop {β : Type} (setup : Setup β δ) (x : Instrument β δ) :
    (x.requestStop setup).board = x.board := by
  unfold requestStop
  split <;> rfl

end Instrument

section Items

variable {δ : Type} {setup : Setup SimulatedBoard δ} {clock : Clock}

/-- No request turns the clock back. -/
theorem Request.instant_le_run (hport : setup.port = SimulatedBoard.port clock) (r : Request)
    (connection : ConnectionId) (x : Instrument SimulatedBoard δ) :
    x.board.instant ≤ (r.run setup connection x).2.board.instant := by
  have hscan := Instrument.instant_le_scan hport x
  obtain ⟨port, dma, scan, watch, stream⟩ := setup
  obtain rfl : port = SimulatedBoard.port clock := hport
  -- What an access does to the instant, it does on behalf of an item too.
  have hboard : ∀ {α : Type} (access : Access SimulatedBoard α), Forward access →
      x.board.instant ≤ (ItemAction.board access x).2.board.instant := fun _ h => h x.board
  cases r with
  | invalid => exact Nat.le_refl _
  | diagnostic kind message => exact Nat.le_refl _
  | reboot => exact Nat.le_refl _
  | connectionId => exact Nat.le_refl _
  | streamStatus => exact Nat.le_refl _
  | scan view => exact hscan
  | streamStart target => exact Nat.le_of_eq (congrArg _ (Instrument.board_startStream _ _ x)).symm
  | streamStop => exact Nat.le_of_eq (congrArg _ (Instrument.board_requestStop _ x)).symm
  | command c => exact hboard _ (forward_command clock c)
  | readback offset => exact hboard _ (forward_read clock offset)
  | registerRead offset => exact hboard _ (forward_read clock offset)
  | clock =>
      exact hboard _ ((forward_read clock _).bind fun _ => (forward_read clock _).bind fun _ =>
        forward_pure _)
  | dacRange channel value => exact hboard _ (forward_write clock _ _)
  | adcRange group value => exact hboard _ (forward_write clock _ _)
  | adcRanges values =>
      exact hboard _ ((forward_option_forM (fun v => forward_forM (fun g =>
        forward_write clock _ _) _) values).bind fun _ =>
          forward_ofFnM fun g => forward_read clock _)
  | calibration group value =>
      exact hboard _ ((forward_option_forM (fun c => (forward_write clock _ _).bind fun _ =>
        forward_write clock _ _) value).bind fun _ => (forward_read clock _).bind fun _ =>
          (forward_read clock _).bind fun _ => forward_pure _)
  | scanSetup value =>
      exact hboard _ ((forward_option_forM (fun s => (forward_write clock _ _).bind fun _ =>
        (forward_write clock _ _).bind fun _ => forward_write clock _ _) value).bind fun _ =>
          (forward_read clock _).bind fun _ => (forward_read clock _).bind fun _ =>
            (forward_read clock _).bind fun _ => forward_pure _)
  | dioInput bit =>
      exact hboard ((SimulatedBoard.port clock).readInput bit)
        ((forward_read clock _).bind fun _ => forward_pure _)
  | dioOutput bit level =>
      exact hboard ((SimulatedBoard.port clock).driveOutput bit level) (forward_modify clock _ _)

/-- An item whose turn it is: who sent it, and the instrument that it finds. -/
structure ItemTurn (δ : Type) where
  connection : ConnectionId
  item : Item
  before : Instrument SimulatedBoard δ

namespace ItemTurn

variable (setup) in
def outcome (t : ItemTurn δ) : Item × Instrument SimulatedBoard δ :=
  let executed := t.item.execute setup t.connection t.before
  (executed.1.2, executed.2)

def AsksClock (t : ItemTurn δ) : Prop := t.item.request = .clock ∧ t.item.status = .pending

variable (setup) in
/-- A turn begins no earlier on the clock than another one ends. -/
def Precedes (t u : ItemTurn δ) : Prop :=
  (t.outcome setup).2.board.instant ≤ u.before.board.instant

variable {t u : ItemTurn δ}

theorem instant_le_outcome (hport : setup.port = SimulatedBoard.port clock) (t : ItemTurn δ) :
    t.before.board.instant ≤ (t.outcome setup).2.board.instant := by
  rcases h : t.item.execute setup t.connection t.before with ⟨⟨_ | ⟨⟩, item⟩, x⟩
  · obtain ⟨-, e, hrun, -⟩ := Item.fails_of_execute h
    have hrequest := Request.instant_le_run hport t.item.request t.connection t.before
    rw [hrun] at hrequest
    rwa [outcome, h]
  · rw [outcome, h]
    rcases Item.passes_of_execute h with ⟨-, result, hrun, -⟩ | ⟨-, -, hx⟩
    · have hrequest := Request.instant_le_run hport t.item.request t.connection t.before
      rwa [hrun] at hrequest
    · exact Nat.le_of_eq (congrArg (fun y => y.board.instant) hx).symm

theorem Precedes.trans (hport : setup.port = SimulatedBoard.port clock) {v : ItemTurn δ}
    (htu : t.Precedes setup u) (huv : u.Precedes setup v) : t.Precedes setup v :=
  calc (t.outcome setup).2.board.instant
      ≤ u.before.board.instant := htu
    _ ≤ (u.outcome setup).2.board.instant := instant_le_outcome hport u
    _ ≤ v.before.board.instant := huv

/-- A request for the clock is answered by two reads. -/
theorem outcome_of_asksClock (hport : setup.port = SimulatedBoard.port clock)
    (hwide : clock.IsWide) (h : t.AsksClock) :
    ∃ ticks : UInt64, (t.outcome setup).1.ticks? = some ticks ∧
      ticks.toNat = clock.told t.before.board.instant ∧
      (t.outcome setup).2.board.instant = t.before.board.instant + 2 := by
  obtain ⟨connection, ⟨code, payload, request, status⟩, before⟩ := t
  obtain ⟨rfl, hpending⟩ := h
  obtain rfl : status = .pending := hpending
  obtain ⟨ticks, hticks, hread⟩ := readClock_eq hwide before.board
  have hrun : Request.run setup connection .clock before =
      (.ok ticks, { before with
        board := { before.board with instant := before.board.instant + 2 } }) := by
    simp only [Request.run, hport, ItemAction.board, Instrument.onBoard, hread]
    rfl
  refine ⟨ticks, ?_, hticks, ?_⟩ <;> simp only [outcome, Item.execute, hrun]
  rfl

end ItemTurn

/-- What items tell of a clock in two words, whoever sends them and whatever happens in between. A
request for the clock is answered with a number that is not below the clock at the first of its two
reads; it is not above the clock at the second one just if the low word does not go down from the
one to the other. Such an answer is not above a later one. -/
theorem clock_ticks_bounded (hport : setup.port = SimulatedBoard.port clock) (hwide : clock.IsWide)
    {turns : List (ItemTurn δ)} (hturns : turns.IsChain (ItemTurn.Precedes setup)) :
    (∀ t ∈ turns, t.AsksClock → ∃ ticks : UInt64,
      (t.outcome setup).1.ticks? = some ticks ∧
      (t.outcome setup).2.board.instant = t.before.board.instant + 2 ∧
      clock.reading t.before.board.instant ≤ ticks.toNat ∧
      (ticks.toNat ≤ clock.reading (t.before.board.instant + 1) ↔
        ¬ clock.Carries t.before.board.instant)) ∧
    turns.Pairwise fun t u => t.AsksClock → u.AsksClock → ¬ clock.Carries t.before.board.instant →
      ∃ ticks later, (t.outcome setup).1.ticks? = some ticks ∧
        (u.outcome setup).1.ticks? = some later ∧ ticks ≤ later := by
  constructor
  · intro t _ hasks
    obtain ⟨ticks, hreports, htold, hinstant⟩ := ItemTurn.outcome_of_asksClock hport hwide hasks
    refine ⟨ticks, hreports, hinstant, ?_, ?_⟩
    · rw [htold]
      exact clock.reading_le_told _
    · rw [htold]
      exact clock.told_le_iff _
  · have : Trans (ItemTurn.Precedes setup) (ItemTurn.Precedes setup) (ItemTurn.Precedes setup) :=
      ⟨fun htu huv => htu.trans hport huv⟩
    refine hturns.pairwise.imp fun {t u} hprecedes ht hu hcarries => ?_
    obtain ⟨ticks, hticks, htold, hinstant⟩ := ItemTurn.outcome_of_asksClock hport hwide ht
    obtain ⟨later, hlater, hlaterTold, -⟩ := ItemTurn.outcome_of_asksClock hport hwide hu
    refine ⟨ticks, later, hticks, hlater, UInt64.le_iff_toNat_le.mpr ?_⟩
    have hbetween : t.before.board.instant + 1 ≤ u.before.board.instant := by
      rw [ItemTurn.Precedes, hinstant] at hprecedes
      omega
    calc ticks.toNat
        = clock.told t.before.board.instant := htold
      _ ≤ clock.reading (t.before.board.instant + 1) := (clock.told_le_iff _).mpr hcarries
      _ ≤ clock.reading u.before.board.instant := clock.reading_le hbetween
      _ ≤ clock.told u.before.board.instant := clock.reading_le_told _
      _ = later.toNat := hlaterTold.symm

def Clock.countingFrom (start : Nat) : Clock :=
  ⟨fun instant => min (start + instant) (UInt64.size - 1), fun instant => by omega⟩

theorem Clock.isWide_countingFrom (start : Nat) : (countingFrom start).IsWide := fun _ =>
  Nat.lt_of_le_of_lt (Nat.min_le_right _ _) (by decide)

def Setup.onClock (clock : Clock) : Setup SimulatedBoard SimulatedDma :=
  ⟨SimulatedBoard.port clock, SimulatedDma.engine, ⟨0, ⟨0⟩, ⟨0⟩, ⟨0⟩, ⟨0⟩⟩,
    .steady 1 0 Nat.one_pos, ⟨1, 1, ⟨0⟩⟩⟩

def ItemTurn.forClock (connection : ConnectionId) (instant : Nat) : ItemTurn SimulatedDma :=
  ⟨connection, .ofRequest .boardClock [] .clock,
    .idle { SimulatedBoard.powerOn with instant := instant } .powerOn⟩

/-- The low word is full after the two reads of one client and empty before those of the next. -/
theorem carry_between_items :
    let setup := Setup.onClock (.countingFrom 0xFFFFFFFE)
    let turns := [ItemTurn.forClock ⟨1⟩ 0, ItemTurn.forClock ⟨2⟩ 2]
    setup.port = SimulatedBoard.port (.countingFrom 0xFFFFFFFE) ∧
    (Clock.countingFrom 0xFFFFFFFE).IsWide ∧ turns.IsChain (ItemTurn.Precedes setup) ∧
    ∃ ticks later, (turns.map fun t => (t.outcome setup).1.ticks?) = [some ticks, some later] ∧
      ticks ≤ later := by
  have hchain : [ItemTurn.forClock ⟨1⟩ 0, ItemTurn.forClock ⟨2⟩ 2].IsChain
      (ItemTurn.Precedes (Setup.onClock (.countingFrom 0xFFFFFFFE))) := by
    refine .cons_cons ?_ (.singleton _)
    exact Nat.le_refl 2
  refine ⟨rfl, Clock.isWide_countingFrom _, hchain, ?_⟩
  have hbounded := clock_ticks_bounded rfl (Clock.isWide_countingFrom _) hchain
  obtain ⟨ticks, later, hticks, hlater, hle⟩ :=
    (List.pairwise_pair.mp hbounded.2) ⟨rfl, rfl⟩ ⟨rfl, rfl⟩ (by decide)
  exact ⟨ticks, later, by rw [List.map_cons, List.map_singleton, hticks, hlater], hle⟩

/-- The low word is full at the first read and empty at the second one: the clock is told to be
where it will be after another round of the low word, and by the next item to be back. -/
theorem carry_between_reads :
    ∃ ticks later,
      ((executeItems (Setup.onClock (.countingFrom 0xFFFFFFFF)) ⟨1⟩
        [.ofRequest .boardClock [] .clock, .ofRequest .boardClock [] .clock]
        (.idle .powerOn .powerOn)).1.map Item.ticks?) = [some ticks, some later] ∧
      (Clock.countingFrom 0xFFFFFFFF).reading 1 < ticks.toNat ∧ later < ticks := by
  refine ⟨0x1FFFFFFFF, 0x100000001, ?_, ?_, ?_⟩ <;> decide +kernel

end Items

end DaqServer
