import DaqServer.Proofs.Board.Series
import DaqServer.Proofs.Item.Catalogue
import DaqServer.Proofs.Message.Execution

/-!
# What a failed item leaves behind

Items that write registers can fail on the way, and there is no way back. `Writing` has what such
items ask for. Main statement: the board is as before, but for two things that are not taken back:
the sample that a refused change of the FIFO has read, and the writes of a row that were done before
one that failed (`leaves_of_failure`).
-/

namespace DaqServer

open Register

/-! ### Requests that write registers -/

namespace ItemId

def writing : List ItemId :=
  [registerWrite, registerClear, registerSet, registerToggle, dacOutput, dacRange, adcRange,
    adcRanges, adcCalibration, scanSetup, dioConfigure, dioOutput, dioOutputs]

/-- A change of the register that the FIFO is read from. -/
def Pops (id : ItemId) (payload : Bytes) : Prop :=
  id ∈ [registerClear, registerSet, registerToggle] ∧ payload.head? = some fifoData

instance (id : ItemId) (payload : Bytes) : Decidable (id.Pops payload) :=
  inferInstanceAs (Decidable (_ ∧ _))

end ItemId

/-- The writes of a request that makes several, in their order. -/
def Request.series : Request → List (UInt8 × UInt32)
  | adcRanges (some values) => (List.finRange adcGroups).map fun g => (rangeOf g, values.get g)
  | calibration group (some c) => [(scaleOf group, c.scale), (offsetOf group, c.offset)]
  | scanSetup (some s) =>
      [(startChannel, s.first.toUInt32), (endChannel, s.last.toUInt32),
        (oversamples, s.oversample.toUInt32)]
  | _ => []

namespace Catalogue

/-- What items that write registers ask for. -/
inductive Writing : ItemId → Bytes → Request → Prop
  | command {id : ItemId} {payload : Bytes} {c : Command} (h : Spells id payload c) :
      Writing id payload (.command c)
  | dacRange (payload : Bytes) (channel : Fin dacChannels) (value : UInt32) :
      Writing .dacRange payload (.dacRange channel value)
  | adcRange (payload : Bytes) (group : Fin adcGroups) (value : UInt32) :
      Writing .adcRange payload (.adcRange group value)
  | adcRanges (payload : Bytes) (values : Option (Vector UInt32 adcGroups)) :
      Writing .adcRanges payload (.adcRanges values)
  | calibration (payload : Bytes) (group : Fin adcGroups) (value : Option Calibration) :
      Writing .adcCalibration payload (.calibration group value)
  | scanSetup (payload : Bytes) (value : Option ScanSetup) :
      Writing .scanSetup payload (.scanSetup value)
  | dioOutput (payload : Bytes) (bit : Fin dioLines) (level : Bool) :
      Writing .dioOutput payload (.dioOutput bit level)

theorem writing_of_decode {id : ItemId} {payload : Bytes} {r : Request} (hid : id ∈ ItemId.writing)
    (h : decode id payload = .ok r) : Writing id payload r := by
  cases id with
  | registerWrite | registerClear | registerSet | registerToggle =>
      cases payload with
      | nil => cases h
      | cons offset word =>
          cases h
          exact .command (by constructor)
  | dacOutput =>
      cases payload with
      | nil => cases h
      | cons channel value =>
          obtain ⟨i, -, hcommand⟩ := ok_of_bind h
          cases hcommand
          exact .command (spells_of_decode h)
  | dioConfigure | dioOutputs =>
      cases h
      exact .command (by constructor)
  | dacRange =>
      cases payload with
      | nil => cases h
      | cons channel value =>
          obtain ⟨i, -, h⟩ := ok_of_bind h
          cases h
          exact .dacRange _ i _
  | adcRange =>
      cases payload with
      | nil => cases h
      | cons group value =>
          obtain ⟨i, -, h⟩ := ok_of_bind h
          cases h
          exact .adcRange _ i _
  | adcRanges =>
      simp only [decode, decodeRanges] at h
      split at h
      · cases h
        exact .adcRanges payload none
      · split at h <;> cases h
        exact .adcRanges payload _
  | adcCalibration =>
      simp only [decode, decodeCalibration] at h
      split at h
      · obtain ⟨i, -, h⟩ := ok_of_bind h
        cases h
        exact .calibration _ i none
      · obtain ⟨i, -, h⟩ := ok_of_bind h
        cases h
        exact .calibration _ i _
      · cases h
  | scanSetup =>
      simp only [decode, decodeScanSetup] at h
      split at h
      · cases h
        exact .scanSetup _ none
      · obtain ⟨_, -, h⟩ := ok_of_bind h
        split at h <;> cases h
        exact .scanSetup _ _
      · cases h
  | dioOutput =>
      rcases payload with _ | ⟨bit, _ | ⟨value, _ | _⟩⟩
      · cases h
      · cases h
      · obtain ⟨i, -, h⟩ := ok_of_bind h
        obtain ⟨level, -, h⟩ := ok_of_bind h
        cases h
        exact .dioOutput _ i level
      · cases h
  | _ => exact absurd hid (by decide)

theorem Writing.series_eq_nil {id : ItemId} {payload : Bytes} {r : Request}
    (h : Writing id payload r) (hid : id ∉ [.adcRanges, .adcCalibration, .scanSetup]) :
    r.series = [] := by
  cases h with
  | command | dacRange | adcRange | dioOutput => rfl
  | adcRanges | calibration | scanSetup => exact absurd (by decide) hid

end Catalogue

/-! ### Writes in a row -/

namespace Register

theorem takes_of_wide {offset : UInt8} (value : UInt32)
    (h : IsRegister offset ∧ offset ∉ readOnly ∧ ¬ offset < 0x40) : Takes offset value :=
  ⟨h.1, h.2.1, fun hnarrow => absurd hnarrow h.2.2⟩

theorem takes_of_narrow {offset : UInt8} (value : UInt8)
    (h : IsRegister offset ∧ offset ∉ readOnly) : Takes offset value.toUInt32 :=
  ⟨h.1, h.2, fun _ => Width.fits_byte value⟩

theorem takes_rangeOf (group : Fin adcGroups) (value : UInt32) : Takes (rangeOf group) value := by
  refine takes_of_wide value ?_
  revert group
  decide

theorem takes_scaleOf (group : Fin adcGroups) (value : UInt32) : Takes (scaleOf group) value := by
  refine takes_of_wide value ?_
  revert group
  decide

theorem takes_offsetOf (group : Fin adcGroups) (value : UInt32) : Takes (offsetOf group) value := by
  refine takes_of_wide value ?_
  revert group
  decide

end Register

namespace Request

/-- The board alone refuses none of the writes of a row. -/
theorem takes_of_mem_series {r : Request} {store : UInt8 × UInt32} (h : store ∈ r.series) :
    Takes store.1 store.2 := by
  unfold series at h
  split at h
  · obtain ⟨g, -, rfl⟩ := List.mem_map.mp h
    exact takes_rangeOf g _
  · rcases List.mem_pair.mp h with rfl | rfl
    · exact takes_scaleOf _ _
    · exact takes_offsetOf _ _
  · have hfirst : IsRegister startChannel ∧ startChannel ∉ readOnly := by decide
    have hlast : IsRegister endChannel ∧ endChannel ∉ readOnly := by decide
    have hover : IsRegister oversamples ∧ oversamples ∉ readOnly := by decide
    simp only [List.mem_cons, List.not_mem_nil, or_false] at h
    rcases h with rfl | rfl | rfl
    · exact takes_of_narrow _ hfirst
    · exact takes_of_narrow _ hlast
    · exact takes_of_narrow _ hover
  · cases h

theorem series_ascends (r : Request) :
    r.series.Pairwise fun first later => stop first.1 ≤ stop later.1 := by
  unfold series
  split
  · rename_i values
    have hgroups : (List.finRange adcGroups).Pairwise fun g g' =>
        stop (rangeOf g) ≤ stop (rangeOf g') := by decide
    exact List.pairwise_map.mpr hgroups
  · rename_i group c
    have hgroup : ∀ g : Fin adcGroups, stop (scaleOf g) ≤ stop (offsetOf g) := by decide
    exact List.pairwise_pair.mpr (hgroup group)
  · obtain ⟨hend, hoversamples, hlast⟩ : stop startChannel ≤ stop endChannel ∧
        stop startChannel ≤ stop oversamples ∧ stop endChannel ≤ stop oversamples := by decide
    refine .cons (fun later hlater => ?_) (List.pairwise_pair.mpr hlast)
    rcases List.mem_pair.mp hlater with rfl | rfl
    · exact hend
    · exact hoversamples
  · exact .nil

end Request

/-! ### What becomes of the boards -/

namespace Port

variable {σ : Type} (port : Port σ)

theorem forM_writeRanges (values : Option (Vector UInt32 adcGroups)) :
    values.forM port.writeRanges = port.writeAll (Request.adcRanges values).series := by
  cases values with
  | none => rfl
  | some values =>
      exact (List.forM_map (l := List.finRange adcGroups) (g := fun g => (rangeOf g, values.get g))
        (f := fun store => port.write store.1 store.2)).symm

theorem forM_writeCalibration (group : Fin adcGroups) (value : Option Calibration) :
    value.forM (port.writeCalibration group) =
      port.writeAll (Request.calibration group value).series := by
  cases value with
  | none => rfl
  | some c =>
      change _ = (port.write (scaleOf group) c.scale >>= fun _ =>
        port.write (offsetOf group) c.offset >>= fun _ => pure ())
      rw [bind_pure_unit]
      rfl

theorem forM_writeScanSetup (value : Option ScanSetup) :
    value.forM port.writeScanSetup = port.writeAll (Request.scanSetup value).series := by
  cases value with
  | none => rfl
  | some s =>
      change _ = (port.write startChannel s.first.toUInt32 >>= fun _ =>
        port.write endChannel s.last.toUInt32 >>= fun _ =>
          port.write oversamples s.oversample.toUInt32 >>= fun _ => pure ())
      rw [bind_pure_unit]
      rfl

end Port

namespace SimulatedBoard

variable {clock : Clock} {α : Type}

/-- A failure leaves the board as it was, but for what reading a register does. -/
def FailsAfter (pops : Prop) [Decidable pops] (x : Access SimulatedBoard α) : Prop :=
  ∀ b e b', x b = (.error e, b') →
    b' = { b with fifo := if pops then b.fifo.tail else b.fifo, instant := b'.instant }

variable {pops : Prop} [Decidable pops]

theorem failsAfter_write (clock : Clock) (h : ¬ pops) (offset : UInt8) (value : UInt32) :
    FailsAfter pops ((port clock).write offset value) := fun b e b' hwrite => by
  rw [eq_of_write_error hwrite, if_neg h]

theorem failsAfter_modify {offset : UInt8} (h : pops ↔ offset = fifoData) (f : UInt32 → UInt32) :
    FailsAfter pops ((port clock).modify offset f) := fun b e b' hmodify => by
  rw [if_congr h rfl rfl]
  exact eq_of_modify_error hmodify

theorem failsAfter_of_total {x : Access SimulatedBoard α} (h : Total x) : FailsAfter pops x :=
  fun b e b' hx => by
    have htotal := h b
    rw [hx] at htotal
    cases htotal

/-- What is read from registers behind a row of writes is read. -/
theorem failsAfter_row {stores : List (UInt8 × UInt32)} {x : Access SimulatedBoard α}
    (htakes : ∀ store ∈ stores, Takes store.1 store.2) (hx : Total x) :
    FailsAfter pops ((port clock).writeAll stores >>= fun _ => x) :=
  failsAfter_of_total (chains_total.bind (total_writeAll htakes) fun _ => hx)

theorem total_readRanges : Total (port clock).readRanges :=
  chains_total.ofFnM fun g => total_read (takes_rangeOf g 0).1

theorem total_readCalibration (group : Fin adcGroups) :
    Total ((port clock).readCalibration group) :=
  chains_total.bind (total_read (takes_scaleOf group 0).1) fun _ =>
    chains_total.bind (total_read (takes_offsetOf group 0).1) fun _ => chains_total.pure _

theorem total_readScanSetup : Total (port clock).readScanSetup :=
  chains_total.bind (total_read (by decide)) fun _ => chains_total.bind (total_read (by decide))
    fun _ => chains_total.bind (total_read (by decide)) fun _ => chains_total.pure _

end SimulatedBoard

namespace MappedBoard

theorem silent_readRanges : Silent port.readRanges :=
  chains_silent.ofFnM fun _ => silent_read _

theorem silent_readCalibration (group : Fin adcGroups) : Silent (port.readCalibration group) :=
  chains_silent.bind (silent_read _) fun _ => chains_silent.bind (silent_read _) fun _ =>
    chains_silent.pure _

theorem silent_readScanSetup : Silent port.readScanSetup :=
  chains_silent.bind (silent_read _) fun _ => chains_silent.bind (silent_read _) fun _ =>
    chains_silent.bind (silent_read _) fun _ => chains_silent.pure _

/-- The board on which the writes of a row have been done that its window has room for. -/
def afterRow (board : MappedBoard) (stores : List (UInt8 × UInt32)) : MappedBoard :=
  { board with
    file := storeAll board.file (stores.filter fun store => stop store.1 ≤ board.window) }

theorem state_row {α : Type} {r : Request} {x : Access MappedBoard α} (hx : Silent x)
    (board : MappedBoard) :
    ((port.writeAll r.series >>= fun _ => x) board).2 = board.afterRow r.series :=
  (state_bind_of_silent (fun _ => hx) board).trans
    (writeAll_eq (fun _ => r.takes_of_mem_series) r.series_ascends board)

end MappedBoard

section Requests

open Catalogue

variable {β δ : Type}

theorem ItemAction.board_error {α : Type} {access : Access β α} {x x' : Instrument β δ}
    {e : ItemError} (h : ItemAction.board access x = (.error e, x')) :
    ∃ e' board, access x.board = (.error e', board) ∧ x' = { x with board := board } := by
  rcases haccess : access x.board with ⟨e' | a, board⟩ <;>
    simp only [ItemAction.board, Instrument.onBoard, haccess] at h <;> cases h
  exact ⟨e', board, rfl, rfl⟩

theorem Command.failsAfter {clock : Clock} {id : ItemId} {payload : Bytes} {c : Command}
    (h : Spells id payload c) :
    SimulatedBoard.FailsAfter (id.Pops payload) (c.run (SimulatedBoard.port clock)) := by
  have hpops {id : ItemId} {offset : UInt8} {mask : Bytes}
      (hid : id ∈ [.registerClear, .registerSet, .registerToggle]) :
      id.Pops (offset :: mask) ↔ offset = fifoData :=
    ⟨fun h => Option.some_inj.mp h.2, fun h => ⟨hid, congrArg some h⟩⟩
  cases h with
  | clearBits | setBits | toggleBits =>
      exact SimulatedBoard.failsAfter_modify (hpops (by decide)) _
  | resetBoard | write | dacOutput | dioDirection | dioOutputs =>
      exact SimulatedBoard.failsAfter_write clock (fun hpop => absurd hpop.1 (by decide)) _ _

theorem Command.eq_of_error {c : Command} {board board' : MappedBoard} {e : BoardError}
    (h : c.run MappedBoard.port board = (.error e, board')) : board' = board := by
  cases c with
  | clearBits | setBits | toggleBits => exact MappedBoard.eq_of_modify_error h
  | resetBoard | write | dacOutput | dioDirection | dioOutputs =>
      exact MappedBoard.eq_of_write_error h

namespace Request

variable {connection : ConnectionId} {id : ItemId} {payload : Bytes} {r : Request} {e : ItemError}

theorem run_adcRanges (setup : Setup β δ) (values : Option (Vector UInt32 adcGroups)) :
    run setup connection (.adcRanges values) = ItemAction.board
      (setup.port.writeAll (adcRanges values).series >>= fun _ => setup.port.readRanges) := by
  rw [← Port.forM_writeRanges]
  rfl

theorem run_calibration (setup : Setup β δ) (group : Fin adcGroups) (value : Option Calibration) :
    run setup connection (.calibration group value) = ItemAction.board
      (setup.port.writeAll (calibration group value).series >>= fun _ =>
        setup.port.readCalibration group) := by
  rw [← Port.forM_writeCalibration]
  rfl

theorem run_scanSetup (setup : Setup β δ) (value : Option ScanSetup) :
    run setup connection (.scanSetup value) = ItemAction.board
      (setup.port.writeAll (scanSetup value).series >>= fun _ => setup.port.readScanSetup) := by
  rw [← Port.forM_writeScanSetup]
  rfl

theorem simulated_after_error {setup : Setup SimulatedBoard δ} {clock : Clock}
    (hport : setup.port = SimulatedBoard.port clock) (hwriting : Writing id payload r)
    {x x' : Instrument SimulatedBoard δ} (h : r.run setup connection x = (.error e, x')) :
    x' = { x with board := { x.board with
      fifo := if id.Pops payload then x.board.fifo.tail else x.board.fifo
      instant := x'.board.instant } } := by
  have hboard {α : Type} (access : Access SimulatedBoard α)
      (h : ItemAction.board access x = (.error e, x'))
      (hfails : SimulatedBoard.FailsAfter (id.Pops payload) access) :
      x' = { x with board := { x.board with
        fifo := if id.Pops payload then x.board.fifo.tail else x.board.fifo
        instant := x'.board.instant } } := by
    obtain ⟨e', board, haccess, rfl⟩ := ItemAction.board_error h
    exact congrArg (fun board => { x with board := board }) (hfails _ _ _ haccess)
  cases hwriting with
  | command hspells =>
      refine hboard _ h ?_
      rw [hport]
      exact Command.failsAfter hspells
  | dacRange | adcRange =>
      refine hboard _ h ?_
      rw [hport]
      exact SimulatedBoard.failsAfter_write clock (fun hpops => absurd hpops.1 (by decide)) _ _
  | adcRanges payload values =>
      rw [run_adcRanges, hport] at h
      exact hboard _ h (SimulatedBoard.failsAfter_row (fun _ => takes_of_mem_series)
        SimulatedBoard.total_readRanges)
  | calibration payload group value =>
      rw [run_calibration, hport] at h
      exact hboard _ h (SimulatedBoard.failsAfter_row (fun _ => takes_of_mem_series)
        (SimulatedBoard.total_readCalibration group))
  | scanSetup payload value =>
      rw [run_scanSetup, hport] at h
      exact hboard _ h (SimulatedBoard.failsAfter_row (fun _ => takes_of_mem_series)
        SimulatedBoard.total_readScanSetup)
  | dioOutput payload bit level =>
      have hpops : ItemId.dioOutput.Pops payload ↔ Register.dioOutput = fifoData :=
        iff_of_false (fun hpops => absurd hpops.1 (by decide)) (by decide)
      refine hboard (setup.port.driveOutput bit level) h ?_
      rw [hport]
      exact SimulatedBoard.failsAfter_modify hpops _

theorem mapped_after_error {setup : Setup MappedBoard δ} (hport : setup.port = MappedBoard.port)
    (hwriting : Writing id payload r) {x x' : Instrument MappedBoard δ}
    (h : r.run setup connection x = (.error e, x')) :
    x' = { x with board := x.board.afterRow r.series } := by
  have hboard {α : Type} (access : Access MappedBoard α)
      (h : ItemAction.board access x = (.error e, x'))
      (hfails : ∀ {e board}, access x.board = (.error e, board) →
        board = x.board.afterRow r.series) :
      x' = { x with board := x.board.afterRow r.series } := by
    obtain ⟨e', board, haccess, rfl⟩ := ItemAction.board_error h
    rw [hfails haccess]
  -- Reading has no effect on a file, so it does not matter whether a write or a read has failed.
  have hrow {α : Type} {read : Access MappedBoard α} (hread : Silent read) {e : BoardError}
      {board : MappedBoard}
      (h : (MappedBoard.port.writeAll r.series >>= fun _ => read) x.board = (.error e, board)) :
      board = x.board.afterRow r.series :=
    (congrArg Prod.snd h).symm.trans (MappedBoard.state_row hread x.board)
  cases hwriting with
  | command hspells =>
      refine hboard _ h fun haccess => ?_
      rw [hport] at haccess
      exact Command.eq_of_error haccess
  | dacRange | adcRange =>
      refine hboard _ h fun haccess => ?_
      rw [hport] at haccess
      exact MappedBoard.eq_of_write_error haccess
  | dioOutput payload bit level =>
      refine hboard (setup.port.driveOutput bit level) h fun haccess => ?_
      rw [hport] at haccess
      exact MappedBoard.eq_of_modify_error haccess
  | adcRanges payload values =>
      rw [run_adcRanges, hport] at h
      exact hboard _ h (hrow MappedBoard.silent_readRanges)
  | calibration payload group value =>
      rw [run_calibration, hport] at h
      exact hboard _ h (hrow (MappedBoard.silent_readCalibration group))
  | scanSetup payload value =>
      rw [run_scanSetup, hport] at h
      exact hboard _ h (hrow MappedBoard.silent_readScanSetup)

end Request

/-- What an item that writes registers leaves behind when it fails. On a simulated board all is as
it was, apart from how often the clock has been read; only when the item was to change bits of the
register that the FIFO is read from, the oldest sample is gone. On a mapped board those writes of a
row have been done that the window has room for, and the file is otherwise as it was; items that do
not write a row leave all as it was. -/
theorem Item.leaves_of_failure {id : ItemId} {payload : Bytes} {item : Item}
    (hid : id ∈ ItemId.writing) (hitem : construct id.code payload = .ok item)
    (connection : ConnectionId) :
    (∀ (setup : Setup SimulatedBoard δ) clock x e item' x', setup.port = SimulatedBoard.port clock →
      item.execute setup connection x = ((.error e, item'), x') →
      x' = { x with board := { x.board with
        fifo := if id.Pops payload then x.board.fifo.tail else x.board.fifo
        instant := x'.board.instant } }) ∧
    (∀ (setup : Setup MappedBoard δ) x e item' x', setup.port = MappedBoard.port →
      item.execute setup connection x = ((.error e, item'), x') →
      x' = { x with board := x.board.afterRow item.request.series } ∧
      (id ∉ [.adcRanges, .adcCalibration, .scanSetup] → x' = x)) := by
  obtain ⟨id', request, hcode, -, hdecode, rfl⟩ := construct_cases hitem
  obtain rfl : id' = id := Option.some_inj.mp
    ((ItemId.ofCode?_code id').symm.trans (hcode ▸ ItemId.ofCode?_code id))
  have hwriting := writing_of_decode hid hdecode
  refine ⟨fun setup clock x e item' x' hport h => ?_, fun setup x e item' x' hport h => ?_⟩
  · obtain ⟨-, e', hrun, -⟩ := fails_of_execute h
    exact Request.simulated_after_error hport hwriting hrun
  · obtain ⟨-, e', hrun, -⟩ := fails_of_execute h
    have hafter := Request.mapped_after_error hport hwriting hrun
    refine ⟨hafter, fun hrow => ?_⟩
    rw [hafter, hwriting.series_eq_nil hrow]
    rfl

def Setup.around (port : Port β) : Setup β SimulatedDma :=
  ⟨port, SimulatedDma.engine, ⟨0, ⟨0⟩, ⟨0⟩, ⟨0⟩, ⟨0⟩⟩, .steady 1 0 Nat.one_pos, ⟨1, 1, ⟨0⟩⟩⟩

/-- Bits of the FIFO are to be set, on a simulated board and on a mapped one. -/
theorem Item.leaves_of_refused_set :
    let item := Item.ofRequest .registerSet [0x5C, 1] (.command (.setBits fifoData 1))
    let simulated : Instrument SimulatedBoard SimulatedDma :=
      .idle { SimulatedBoard.powerOn with fifo := [1, 2] } .powerOn
    let mapped : Instrument MappedBoard SimulatedDma :=
      .idle ⟨Array.replicate 0x60 0, 0x60⟩ .powerOn
    construct ItemId.registerSet.code [0x5C, 1] = .ok item ∧
      (∃ e item' x', item.execute (.around (SimulatedBoard.port .steady)) ⟨1⟩ simulated =
        ((.error e, item'), x') ∧ x'.board.fifo = [2] ∧
          x'.board.registers = simulated.board.registers) ∧
      (∃ e item' x', item.execute (.around MappedBoard.port) ⟨1⟩ mapped = ((.error e, item'), x') ∧
        x' = mapped) := by
  intro item simulated mapped
  have hitem : construct ItemId.registerSet.code [0x5C, 1] = .ok item := rfl
  obtain ⟨hsimulated, hmapped⟩ :=
    @Item.leaves_of_failure SimulatedDma _ _ _ (by decide) hitem ⟨1⟩
  refine ⟨hitem, ?_, ?_⟩
  · have hexecute : item.execute (.around (SimulatedBoard.port .steady)) ⟨1⟩ simulated =
      ((.error (.board (.readOnly fifoData)), _), _) := rfl
    have hafter := hsimulated _ .steady _ _ _ _ rfl hexecute
    exact ⟨_, _, _, hexecute, congrArg (fun x => x.board.fifo) hafter,
      congrArg (fun x => x.board.registers) hafter⟩
  · have hexecute : item.execute (.around MappedBoard.port) ⟨1⟩ mapped =
      ((.error (.board (.readOnly fifoData)), _), _) := rfl
    exact ⟨_, _, _, hexecute, (hmapped _ _ _ _ _ rfl hexecute).2 (by decide)⟩

/-- A refused change of the FIFO has taken a sample from it. A calibration of which the window has
half has been written by half. -/
theorem Item.failure_stays :
    (∃ item e item' x',
      construct ItemId.registerSet.code [0x5C, 1] = .ok item ∧
      item.execute (.around (SimulatedBoard.port .steady)) ⟨1⟩
        (.idle { SimulatedBoard.powerOn with fifo := [1, 2] } SimulatedDma.powerOn) =
          ((.error e, item'), x') ∧
      x'.board.fifo = [2]) ∧
    (∃ item e item' x',
      construct ItemId.adcCalibration.code [0, 1, 2, 3, 4, 5, 6, 7, 8] = .ok item ∧
      item.execute (.around MappedBoard.port) ⟨1⟩
        (.idle ⟨Array.replicate 0x88 0, 0x84⟩ SimulatedDma.powerOn) = ((.error e, item'), x') ∧
      x'.board.file = Array.replicate 0x80 0 ++ #[1, 2, 3, 4, 0, 0, 0, 0]) := by
  refine ⟨⟨_, _, _, _, rfl, rfl, rfl⟩, ⟨_, _, _, _, rfl, rfl, ?_⟩⟩
  decide +kernel

end Requests

end DaqServer
