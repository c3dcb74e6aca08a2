import DaqServer.Item.Raw
import DaqServer.Proofs.Item.Catalogue
import DaqServer.Proofs.Scan.Buckets
import DaqServer.Proofs.Stream.Session
import DaqServer.Proofs.Text.Boundary

/-!
# No item stops at a trap

Raw items do what guarded ones do: the length bounds and field checks of the catalogue keep every
index, slice, offset and shift of a raw item in range, whatever bytes it was read from. An equation
for every step says so, from reading (`RawKind.readsAs_decode`) over carrying out
(`Request.run_raw`) to writing and reporting; `Item.never_traps` puts them together.
-/

namespace DaqServer

/-! ### Registers -/

namespace Checked

/-- As long as the last register of a group has an offset, so have the others. -/
theorem register_fin {n : Nat} {base stride : UInt8} (hn : n ≤ UInt8.size)
    (h : base.toNat + stride.toNat * (n - 1) < UInt8.size) (index : Fin n) :
    register base stride (UInt8.ofNat index) = .ok (base + stride * UInt8.ofNat index) := by
  refine register_of_lt (Nat.lt_of_le_of_lt (Nat.add_le_add_left ?_ _) h)
  rw [toNat_ofNat_fin hn]
  exact Nat.mul_le_mul_left _ (Nat.le_pred_of_lt index.isLt)

theorem adcRange_eq (group : Fin adcGroups) :
    adcRange (UInt8.ofNat group) = .ok (Register.rangeOf group) :=
  register_fin (by decide) (by decide) group

/-- Only a group that exists has an offset for sure. -/
example : adcRange 40 = .error .overflow := rfl

theorem calibrationScale_eq (group : Fin adcGroups) :
    calibrationScale (UInt8.ofNat group) = .ok (Register.scaleOf group) :=
  register_fin (by decide) (by decide) group

theorem calibrationOffset_eq (group : Fin adcGroups) :
    calibrationOffset (UInt8.ofNat group) = .ok (Register.offsetOf group) := by
  have hscale : register 0x80 8 (UInt8.ofNat group) = _ := calibrationScale_eq group
  have hlast : ∀ g : Fin adcGroups,
      (Register.scaleOf g).toNat + (4 : UInt8).toNat < UInt8.size := by decide
  rw [calibrationOffset, hscale]
  exact if_pos (hlast group)

theorem dacOutput_eq (channel : Fin dacChannels) :
    dacOutput (UInt8.ofNat channel) = .ok (Register.dacOutput (UInt8.ofNat channel)) :=
  register_fin (by decide) (by decide) channel

theorem dacRange_eq (channel : Fin dacChannels) :
    dacRange (UInt8.ofNat channel) = .ok (Register.dacRange (UInt8.ofNat channel)) :=
  register_fin (by decide) (by decide) channel

end Checked

/-! ### Reading -/

namespace RawKind

/-- A payload that is read into a raw item as it is into a request. -/
def ReadsAs (x : Decoding RawKind) (y : Except ItemError Request) : Prop :=
  x = ExceptT.mk (.ok (y.map (·.raw none)))

theorem readsAs_ok (r : Request) : ReadsAs (pure (r.raw none)) (.ok r) := rfl

theorem ReadsAs.checkIndex {id : ItemId} {field : String} {limit : Nat} {value : UInt8}
    {x : Decoding RawKind} {f : Fin limit → Except ItemError Request}
    (h : ∀ i : Fin limit, value = UInt8.ofNat i → ReadsAs x (f i)) :
    ReadsAs (checkIndex id field value limit >>= fun _ => x)
      (Catalogue.index id field limit value >>= f) := by
  rw [RawKind.checkIndex, Catalogue.index]
  split
  · exact h ⟨value.toNat, ‹_›⟩ (UInt8.ofNat_toNat).symm
  · rfl

theorem toUInt32_take (bs : Bytes) : Bytes.toUInt32 (bs.take 4) = Bytes.toUInt32 bs := by
  rw [Bytes.toUInt32, List.take_take]
  rfl

theorem wordAt_of_le {payload : Bytes} {first : Nat} (h : first + 4 ≤ payload.length) :
    wordAt payload first = pure (Bytes.toUInt32 (payload.drop first)) := by
  rw [wordAt, Checked.slice_of_le (Nat.le_add_right _ _) h, List.drop_take, Nat.add_sub_cancel_left]
  change ExceptT.lift (Checked.word _) = _
  rw [Checked.word_eq, toUInt32_take]
  rfl

theorem readsAs_ranges (payload : Bytes) :
    ReadsAs (decode payload .adcRanges) (Catalogue.decodeRanges payload) := by
  rw [decode, exactLength, Catalogue.decodeRanges]
  by_cases hempty : payload.length = 0
  · rw [if_pos (.inl hempty), if_pos hempty, List.length_eq_zero_iff.mp hempty]
    rfl
  · have hcons : payload.isEmpty = false := by
      rw [List.isEmpty_eq_false_iff, ← List.length_pos_iff]
      exact Nat.pos_of_ne_zero hempty
    rw [if_neg hempty, hcons]
    by_cases hall : payload.length = 32
    · rw [if_pos (.inr hall), if_pos hall]
      rfl
    · rw [if_neg (not_or.mpr ⟨hempty, hall⟩), if_neg hall]
      rfl

theorem readsAs_calibration {payload : Bytes} (hleast : 1 ≤ payload.length)
    (hmost : payload.length ≤ 9) :
    ReadsAs (decode payload .adcCalibration) (Catalogue.decodeCalibration payload) := by
  match payload with
  | [] => exact absurd hleast (by decide)
  | [group] =>
      refine ReadsAs.checkIndex fun i hi => ?_
      subst hi
      exact readsAs_ok (.calibration i none)
  | [group, s0, s1, s2, s3, o0, o1, o2, o3] =>
      refine ReadsAs.checkIndex fun i hi => ?_
      subst hi
      exact readsAs_ok
        (.calibration i (some ⟨Bytes.toUInt32 [s0, s1, s2, s3], Bytes.toUInt32 [o0, o1, o2, o3]⟩))
  | [_, _] | [_, _, _] | [_, _, _, _] | [_, _, _, _, _] | [_, _, _, _, _, _]
  | [_, _, _, _, _, _, _] | [_, _, _, _, _, _, _, _] => rfl
  | _ :: _ :: _ :: _ :: _ :: _ :: _ :: _ :: _ :: _ :: _ =>
      exact absurd hmost (by simp)

theorem readsAs_scanSetup {payload : Bytes} (hmost : payload.length ≤ 3) :
    ReadsAs (decode payload .scanSetup) (Catalogue.decodeScanSetup payload) := by
  match payload with
  | [] | [_] | [_, _] => rfl
  | [first, last, oversample] =>
      refine ReadsAs.checkIndex fun _ _ => ?_
      split <;> rfl
  | _ :: _ :: _ :: _ :: _ => exact absurd hmost (by simp)

theorem readsAs_dioOutput {payload : Bytes} (hlength : payload.length = 2) :
    ReadsAs (decode payload .dioOutput) (Catalogue.decode .dioOutput payload) := by
  obtain ⟨bit, value, rfl⟩ := List.length_eq_two.mp hlength
  refine ReadsAs.checkIndex fun i hi => ?_
  subst hi
  change ReadsAs (ExceptT.mk (pure (Catalogue.level value)) >>= fun level =>
    pure (.dioOutput (UInt8.ofNat i) level)) (Catalogue.level value >>= fun level => _)
  cases Catalogue.level value <;> rfl

/-- Within the bounds of its kind a payload is read without traps. -/
theorem readsAs_decode {id : ItemId} {payload : Bytes}
    (hleast : id.descriptor.least ≤ payload.length)
    (hmost : payload.length ≤ id.descriptor.most) :
    ReadsAs (decode payload id) (Catalogue.decode id payload) := by
  cases id with
  | dacOutput =>
      match payload with
      | [] => exact absurd hleast (by decide)
      | channel :: value =>
          refine ReadsAs.checkIndex fun i hi => ?_
          exact readsAs_ok (.command (.dacOutput i (Bytes.toUInt32 value)))
  | dacRange =>
      match payload with
      | [] => exact absurd hleast (by decide)
      | channel :: value =>
          refine ReadsAs.checkIndex fun i hi => ?_
          change ReadsAs (wordAt (channel :: value) 1 >>= fun w => pure (.dacRange channel w)) _
          rw [wordAt_of_le hleast, hi]
          exact readsAs_ok (.dacRange i (Bytes.toUInt32 value))
  | adcRange =>
      match payload with
      | [] => exact absurd hleast (by decide)
      | group :: value =>
          refine ReadsAs.checkIndex fun i hi => ?_
          change ReadsAs (wordAt (group :: value) 1 >>= fun w => pure (.adcRange group w)) _
          rw [wordAt_of_le hleast, hi]
          exact readsAs_ok (.adcRange i (Bytes.toUInt32 value))
  | adcRanges => exact readsAs_ranges payload
  | adcCalibration => exact readsAs_calibration hleast hmost
  | scanSetup => exact readsAs_scanSetup hmost
  | registerRead =>
      obtain ⟨offset, rfl⟩ := List.length_eq_one_iff.mp (Nat.le_antisymm hmost hleast)
      rfl
  | registerWrite | registerClear | registerSet | registerToggle =>
      match payload with
      | [] => exact absurd hleast (by decide)
      | offset :: value => rfl
  | streamStart =>
      rw [decode, Checked.word_eq]
      rfl
  | dioInput =>
      obtain ⟨bit, rfl⟩ := List.length_eq_one_iff.mp (Nat.le_antisymm hmost hleast)
      refine ReadsAs.checkIndex fun i hi => ?_
      subst hi
      exact readsAs_ok (.dioInput i)
  | dioOutput => exact readsAs_dioOutput (Nat.le_antisymm hmost hleast)
  | diagnostic => cases payload <;> rfl
  | _ => rfl

end RawKind

namespace RawItem

/-- Whatever the code and the payload are, reading an item does not trap. -/
theorem construct_eq (code : UInt16) (payload : Bytes) :
    construct code payload =
      ExceptT.mk (.ok ((Catalogue.construct code payload).map Item.raw)) := by
  rw [construct, Catalogue.construct]
  cases hid : Catalogue.validateLength code payload.length with
  | error e => rfl
  | ok id =>
      obtain ⟨rfl, hleast, hmost⟩ := Catalogue.validateLength_cases hid
      have hreads : RawKind.decode payload id = _ := RawKind.readsAs_decode hleast hmost
      change (RawKind.decode payload id >>= fun kind => _) = ExceptT.mk (.ok
        ((Catalogue.decode id payload >>= fun request => _).map Item.raw))
      rw [hreads]
      cases Catalogue.decode id payload <;> rfl

theorem constructOrReject_eq (code : UInt16) (payload : Bytes) :
    constructOrReject code payload = .ok (Catalogue.constructOrReject code payload).raw := by
  rw [constructOrReject, construct_eq, Catalogue.constructOrReject]
  cases Catalogue.construct code payload <;> rfl

theorem diagnostic_eq (kind : ErrorKind) (message : String) :
    diagnostic kind message = .ok (Item.diagnostic kind message).raw := by
  rw [diagnostic, Utf8.cutToFit_eq]
  rfl

end RawItem

/-! ### Words and bytes -/

theorem toString_ofNat_fin {n : Nat} (hn : n ≤ UInt8.size) (i : Fin n) :
    toString (UInt8.ofNat i.val) = toString i :=
  congrArg toString (toNat_ofNat_fin hn i)

namespace Request

theorem detail_raw (payload : Bytes) (r : Request) (result : Option r.Result) :
    (r.raw result).detail payload = r.detail payload := by
  cases r with
  | dacRange channel value =>
      rw [raw, RawKind.detail, toString_ofNat_fin (by decide)]
      rfl
  | adcRange group value =>
      rw [raw, RawKind.detail, toString_ofNat_fin (by decide)]
      rfl
  | adcRanges write => cases write <;> rfl
  | calibration group write =>
      cases write <;> rw [raw, RawKind.detail, toString_ofNat_fin (by decide)] <;> rfl
  | scanSetup write => cases write <;> rfl
  | dioInput bit =>
      rw [raw, RawKind.detail, toString_ofNat_fin (by decide)]
      rfl
  | dioOutput bit level =>
      rw [raw, RawKind.detail, toString_ofNat_fin (by decide)]
      rfl
  | diagnostic kind message => cases kind <;> rfl
  | _ => rfl

theorem resultDetail_raw (payload : Bytes) (r : Request) (result : r.Result) :
    (r.raw (some result)).resultDetail payload = .ok (r.resultDetail payload result) := by
  cases r with
  | dacRange channel value =>
      rw [raw, RawKind.resultDetail, Checked.dacRange_eq, toString_ofNat_fin (by decide)]
      rfl
  | adcRange group value =>
      rw [raw, RawKind.resultDetail, Checked.adcRange_eq, toString_ofNat_fin (by decide)]
      rfl
  | calibration group write =>
      rw [raw, RawKind.resultDetail, toString_ofNat_fin (by decide)]
      rfl
  | scan view =>
      cases view with
      | volts =>
          rw [raw, RawKind.resultDetail, Readings.tableVolts_eq]
          rfl
      | _ => rfl
  | streamStop => cases result <;> rfl
  | streamStatus =>
      obtain ⟨active, blocksSent⟩ := result
      cases active <;> rfl
  | dioInput bit =>
      rw [raw, RawKind.resultDetail, toString_ofNat_fin (by decide)]
      rfl
  | dioOutput bit level =>
      rw [raw, RawKind.resultDetail, toString_ofNat_fin (by decide)]
      rfl
  | diagnostic kind message => exact congrArg Except.ok (detail_raw payload _ (some result))
  | _ => rfl

theorem replyBytes_raw (r : Request) (result : r.Result) :
    (r.raw (some result)).replyBytes = .ok (r.replyBytes result) := by
  cases r with
  | scan view =>
      cases view with
      | volts =>
          rw [raw, RawKind.replyBytes, Readings.tableVolts_eq]
          rfl
      | _ => rfl
  | _ => rfl

end Request

namespace Item

theorem describe_raw (i : Item) (asReply : Bool) :
    i.raw.describe asReply = .ok (i.describe asReply) := by
  obtain ⟨code, payload, request, status⟩ := i
  cases status with
  | pending =>
      rw [raw, RawItem.describe]
      dsimp only
      rw [Request.detail_raw]
      rfl
  | failed fault => rfl
  | done result =>
      rw [raw, RawItem.describe]
      dsimp only
      rw [Request.resultDetail_raw, Request.detail_raw]
      cases asReply <;> rfl

theorem wirePayload_raw (i : Item) (asReply : Bool) :
    i.raw.wirePayload asReply = .ok (i.wirePayload asReply) := by
  obtain ⟨code, payload, request, status⟩ := i
  cases status with
  | pending | failed fault => rfl
  | done result =>
      cases asReply with
      | false => rfl
      | true =>
          rw [raw, RawItem.wirePayload]
          dsimp only
          rw [if_pos rfl, Request.replyBytes_raw]
          rfl

theorem encode_raw (i : Item) (asReply : Bool) :
    i.raw.encode asReply = .ok (i.encode asReply) := by
  have hcode : i.raw.code = i.code := by
    rw [raw]
    split <;> rfl
  rw [RawItem.encode, wirePayload_raw, hcode]
  rfl

theorem report_raw (i : Item) :
    i.raw.report = .ok ((i.fault?.map fun fault =>
      Item.diagnostic fault.kind (i.describe false)).map Item.raw) := by
  have hdescribe := i.describe_raw false
  obtain ⟨code, payload, request, status⟩ := i
  cases status with
  | pending | done result => rfl
  | failed fault =>
      change (RawItem.describe _ false >>= fun text =>
        RawItem.diagnostic fault.kind text >>= fun reported => pure (some reported)) = _
      rw [hdescribe]
      change (RawItem.diagnostic fault.kind _ >>= fun reported => pure (some reported)) = _
      rw [RawItem.diagnostic_eq]
      rfl

end Item

/-! ### Carrying out -/

section

variable {σ : Type} (port : Port σ)

open Trapping (total check)

/-- The payload behind its first byte. -/
theorem Checked.slice_one (b : UInt8) (rest : Bytes) :
    slice (b :: rest) 1 (b :: rest).length = .ok rest := by
  rw [List.length_cons, slice_of_le (Nat.le_add_left 1 _) (Nat.le_of_eq List.length_cons.symm),
    List.take_succ_cons, List.take_length]
  rfl

theorem RawKind.modify_eq (offset : UInt8) (mask : Bytes) (f : UInt32 → UInt32 → UInt32) :
    modify port (offset :: mask) f =
      total (port.modify offset fun current => f current (Bytes.toUInt32 mask)) := by
  rw [modify, Checked.slice_one, Port.modify, Trapping.total_bind]
  simp only [Trapping.check_ok, pure_bind, Checked.word_eq]
  rfl

/-- A raw command finds in its payload what was checked when it was read. -/
theorem RawKind.action_eq {id : ItemId} {payload : Bytes} {c : Command}
    (h : Catalogue.Spells id payload c) (hleast : id.descriptor.least ≤ payload.length) :
    action port payload id = some (total (c.run port)) := by
  cases h with
  | resetBoard => rfl
  | write offset value =>
      rw [action, Checked.slice_one]
      simp only [Trapping.check_ok, pure_bind, Checked.word_eq]
      rfl
  | clearBits offset mask => exact congrArg some (modify_eq port offset mask _)
  | setBits offset mask => exact congrArg some (modify_eq port offset mask _)
  | toggleBits offset mask => exact congrArg some (modify_eq port offset mask _)
  | dacOutput channel value =>
      have hslice : Checked.slice (UInt8.ofNat channel :: value) 1 5 = .ok (value.take 4) :=
        Checked.slice_of_le (by decide) hleast
      rw [action, Checked.element_of_getElem? rfl]
      simp only [Trapping.check_ok, pure_bind, Checked.dacOutput_eq, hslice, Checked.word_eq,
        toUInt32_take]
      rfl
  | dioDirection value =>
      rw [action, Checked.word_eq]
      rfl
  | dioOutputs value =>
      rw [action, Checked.word_eq]
      rfl

theorem RawKind.writeRanges_eq (values : Vector UInt32 adcGroups) :
    writeRanges port values = total (port.writeRanges values) := by
  rw [writeRanges, Port.writeRanges, Trapping.total_forM]
  simp only [Checked.adcRange_eq, Trapping.check_ok, pure_bind]

theorem RawKind.readRanges_eq : readRanges port = total port.readRanges := by
  rw [readRanges, Port.readRanges, Trapping.total_ofFnM]
  simp only [Checked.adcRange_eq, Trapping.check_ok, pure_bind]

theorem RawKind.exchangeRanges_eq (write : Option (Vector UInt32 adcGroups)) :
    (do write.forM (writeRanges port); readRanges port) =
      total (do write.forM port.writeRanges; port.readRanges) := by
  cases write with
  | none => exact readRanges_eq port
  | some values =>
      change (writeRanges port values >>= fun _ => readRanges port) =
        total (port.writeRanges values >>= fun _ => port.readRanges)
      rw [writeRanges_eq, readRanges_eq, Trapping.total_bind]

theorem RawKind.writeCalibration_eq (group : Fin adcGroups) (c : Calibration) :
    writeCalibration port (UInt8.ofNat group) c = total (port.writeCalibration group c) := by
  rw [writeCalibration, Port.writeCalibration, Trapping.total_bind]
  simp only [Checked.calibrationScale_eq, Checked.calibrationOffset_eq, Trapping.check_ok,
    pure_bind]

theorem RawKind.readCalibration_eq (group : Fin adcGroups) :
    readCalibration port (UInt8.ofNat group) = total (port.readCalibration group) := by
  rw [readCalibration, Port.readCalibration]
  simp only [Checked.calibrationScale_eq, Checked.calibrationOffset_eq, Trapping.check_ok,
    pure_bind, Trapping.total_bind, Trapping.total_pure]

theorem RawKind.exchangeCalibration_eq (group : Fin adcGroups) (write : Option Calibration) :
    (do write.forM (writeCalibration port (UInt8.ofNat group))
        readCalibration port (UInt8.ofNat group)) =
      total (do write.forM (port.writeCalibration group); port.readCalibration group) := by
  cases write with
  | none => exact readCalibration_eq port group
  | some c =>
      change (writeCalibration port _ c >>= fun _ => readCalibration port _) =
        total (port.writeCalibration group c >>= fun _ => port.readCalibration group)
      rw [writeCalibration_eq, readCalibration_eq, Trapping.total_bind]

/-- The number of a digital line is less than the width of a word. -/
theorem bit_lt (bit : Fin dioLines) : UInt8.ofNat bit < 32 := by
  rw [UInt8.lt_iff_toNat_lt, toNat_ofNat_fin (by decide)]
  exact bit.isLt

theorem toUInt32_bit (bit : Fin dioLines) :
    (UInt8.ofNat bit).toUInt32 = UInt32.ofNat bit :=
  UInt8.toUInt32_ofNat' (Nat.lt_trans bit.isLt (by decide))

theorem RawKind.readInput_eq (bit : Fin dioLines) :
    readInput port (UInt8.ofNat bit) = total (port.readInput bit) := by
  rw [readInput, Port.readInput, Trapping.total_bind]
  simp only [Checked.shiftRight_of_lt _ (bit_lt bit), toUInt32_bit, Trapping.check_ok, pure_bind,
    Trapping.total_pure]

theorem RawKind.driveOutput_eq (bit : Fin dioLines) (level : Bool) :
    driveOutput port (UInt8.ofNat bit) level = total (port.driveOutput bit level) := by
  rw [driveOutput, Port.driveOutput, Port.modify, Trapping.total_bind]
  simp only [Checked.shiftLeft_of_lt _ (bit_lt bit), toUInt32_bit, Trapping.check_ok, pure_bind]

end

open Trapping (total)

variable {setup : Setup β δ} {connection : ConnectionId} {code : UInt16} {payload : Bytes}

/-- The time for a scan, whatever its plan, can be summed up. -/
def Setup.FitsTimeouts (setup : Setup β δ) : Prop :=
  ∀ plan : ScanPlan, (setup.scan.timeoutFor plan.totalSamples).isSome

/-- The time for a scan can be summed up if that for the longest scan can. -/
theorem Setup.fitsTimeouts_of_le (h : setup.scan.timeoutFloor.nanoseconds +
      setup.scan.timeoutPerSample.nanoseconds * (UInt8.size * UInt8.size) ≤
        Span.largest.nanoseconds) : setup.FitsTimeouts := by
  intro plan
  rw [ScanSettings.timeoutFor_totalSamples h plan]
  rfl

theorem RawKind.runScan_eq (h : setup.FitsTimeouts) :
    runScan setup = total (ItemAction.acquisition (Instrument.scan setup)) := by
  funext x
  rw [runScan, Scan.runBuckets_eq setup.port setup.watch h]
  rfl

/-- What a request spells as a command is what the action of its payload does. -/
def Request.Backed (setup : Setup β δ) (code : UInt16) (payload : Bytes) (r : Request) : Prop :=
  ∀ c, r = .command c → ∃ id, ItemId.ofCode? code = some id ∧
    RawKind.action setup.port payload id = some (total (c.run setup.port))

theorem Request.run_raw (r : Request) (h : setup.FitsTimeouts)
    (hbacked : r.Backed setup code payload) :
    (r.raw none).run setup connection code payload =
      total (r.run setup connection) >>= fun result => pure (r.raw (some result)) := by
  cases r with
  | command c =>
      obtain ⟨id, hid, haction⟩ := hbacked c rfl
      rw [raw, RawKind.run, hid]
      dsimp only
      rw [haction]
      rfl
  | dacRange channel value =>
      rw [raw, RawKind.run, Checked.dacRange_eq]
      rfl
  | adcRange group value =>
      rw [raw, RawKind.run, Checked.adcRange_eq]
      rfl
  | adcRanges write =>
      rw [raw, RawKind.run, RawKind.exchangeRanges_eq]
      rfl
  | calibration group write =>
      rw [raw, RawKind.run, RawKind.exchangeCalibration_eq]
      rfl
  | scan view =>
      rw [raw, RawKind.run, RawKind.runScan_eq h]
      rfl
  | dioInput bit =>
      rw [raw, RawKind.run, RawKind.readInput_eq]
      rfl
  | dioOutput bit level =>
      rw [raw, RawKind.run, RawKind.driveOutput_eq]
      rfl
  | _ => rfl

/-- An item does as a raw one what it does as it is, and the line for the log is written. -/
theorem Item.execute_raw (i : Item) (h : setup.FitsTimeouts)
    (hbacked : i.status = .pending → i.request.Backed setup i.code i.payload) (x : Instrument β δ) :
    i.raw.execute setup connection x =
      .ok (((i.execute setup connection x).1.1, (i.execute setup connection x).1.2.raw),
        (i.execute setup connection x).2) := by
  obtain ⟨code, payload, request, status⟩ := i
  cases status with
  | pending =>
      have hrun : (request.raw none).run setup connection code payload x = .ok
          ((request.run setup connection x).map (Except.map fun result =>
            request.raw (some result)) id) := by
        rw [request.run_raw h (hbacked rfl)]
        simp only [total, bind, ExceptT.bind, ExceptT.mk, StateT.bind, Except.bind]
        obtain ⟨result | e, y⟩ := request.run setup connection x <;> rfl
      rw [raw, RawItem.execute, Item.execute]
      dsimp only
      rw [hrun]
      obtain ⟨e | result, y⟩ := request.run setup connection x
      · rfl
      · have hdescribe := describe_raw ⟨code, payload, request, .done result⟩ true
        change (RawItem.describe (raw ⟨code, payload, request, .done result⟩) true >>= _) = _
        rw [hdescribe]
        rfl
  | done result => rfl
  | failed fault => rfl

/-- A constructed item finds in its payload what it was read from. -/
theorem Catalogue.backed_of_construct {i : Item} (h : construct code payload = .ok i) :
    i.request.Backed setup i.code i.payload := by
  obtain ⟨id, hid, hrest⟩ := ok_of_bind h
  obtain ⟨request, hrequest, hitem⟩ := ok_of_bind hrest
  obtain ⟨rfl, hleast, -⟩ := validateLength_cases hid
  cases hitem
  rintro c rfl
  exact ⟨id, ItemId.ofCode?_code id,
    RawKind.action_eq setup.port (spells_of_decode hrequest) hleast⟩

theorem Catalogue.backed_of_constructOrReject (code : UInt16) (payload : Bytes)
    (h : (constructOrReject code payload).status = .pending) :
    (constructOrReject code payload).request.Backed setup
      (constructOrReject code payload).code (constructOrReject code payload).payload := by
  rw [constructOrReject] at h ⊢
  cases hitem : construct code payload with
  | ok item => exact backed_of_construct hitem
  | error e =>
      rw [hitem] at h
      cases h

/-- No bytes stop the path of an item. Reading them, carrying out what they ask for, writing the
item before or after and reporting why it failed, with every index, slice, shift and register offset
taken unguarded, come to their end and give what they give on guarded fields. -/
theorem Item.never_traps (h : setup.FitsTimeouts) (connection : ConnectionId) (code : UInt16)
    (payload : Bytes) (x : Instrument β δ) :
    RawItem.construct code payload =
        ExceptT.mk (.ok ((Catalogue.construct code payload).map Item.raw)) ∧
      RawItem.constructOrReject code payload =
        .ok (Catalogue.constructOrReject code payload).raw ∧
      (∃ result done y,
        (Catalogue.constructOrReject code payload).execute setup connection x =
            ((result, done), y) ∧
          (Catalogue.constructOrReject code payload).raw.execute setup connection x =
            .ok ((result, done.raw), y)) ∧
      ∀ (item : Item) (asReply : Bool),
        item.raw.wirePayload asReply = .ok (item.wirePayload asReply) ∧
          item.raw.encode asReply = .ok (item.encode asReply) ∧
          item.raw.describe asReply = .ok (item.describe asReply) ∧
          item.raw.report = .ok ((item.fault?.map fun fault =>
            Item.diagnostic fault.kind (item.describe false)).map Item.raw) := by
  refine ⟨RawItem.construct_eq code payload, RawItem.constructOrReject_eq code payload,
    ⟨_, _, _, rfl, Item.execute_raw _ h (Catalogue.backed_of_constructOrReject code payload) x⟩,
    fun item asReply => ⟨item.wirePayload_raw asReply, item.encode_raw asReply,
      item.describe_raw asReply, item.report_raw⟩⟩

/-- The last digital output is driven by the widest shift. -/
theorem Item.last_output_driven :
    Instrument.smallSetup.FitsTimeouts ∧
      ∃ item done y, RawItem.constructOrReject ItemId.dioOutput.code [31, 1] = .ok item ∧
        item.execute Instrument.smallSetup ⟨1⟩ (.idle .powerOn .powerOn) =
          .ok ((.ok (), done), y) ∧
        done.encode true = .ok [0x03, 0x20, 0x02, 0x00, 31, 1] := by
  have hfits : Instrument.smallSetup.FitsTimeouts := Setup.fitsTimeouts_of_le (by decide)
  obtain ⟨-, hread, ⟨result, done, y, hexecute, hraw⟩, hwritten⟩ :=
    Item.never_traps hfits ⟨1⟩ ItemId.dioOutput.code [31, 1] (.idle .powerOn .powerOn)
  cases hexecute
  refine ⟨hfits, _, _, _, hread, hraw, ?_⟩
  rw [(hwritten _ true).2.1]
  rfl

end DaqServer
