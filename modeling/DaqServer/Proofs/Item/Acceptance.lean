import DaqServer.Proofs.Item.Catalogue
import Mathlib.Data.List.Basic

/-!
# The language of the catalogue

A payload is accepted under a code just if a kind of item has the code, the kind admits the length
and the fields of the payload are legal. The request of the item then has the fields that the
payload spells. Otherwise the first of these three that fails is the error.
-/

namespace DaqServer

def Bytes.LittleEndian (bytes : Bytes) (word : UInt32) : Prop :=
  bytes.length ≤ 4 ∧ word.toNat = toNat bytes

theorem Bytes.toNat_lt (bytes : Bytes) : toNat bytes < Nat.pow 256 bytes.length := by
  rw [← ofNat_toNat bytes, toNat_ofNat, length_ofNat]
  exact Nat.mod_lt _ (Nat.pow_pos (by decide))

theorem Bytes.littleEndian_toUInt32 {bytes : Bytes} (h : bytes.length ≤ 4) :
    LittleEndian bytes (toUInt32 bytes) := by
  have hlt : toNat bytes < 2 ^ 32 :=
    Nat.lt_of_lt_of_le (toNat_lt bytes) (Nat.pow_le_pow_right (n := 256) (by decide) h)
  refine ⟨h, ?_⟩
  rw [toUInt32, List.take_of_length_le h, UInt32.toNat_ofNat', Nat.mod_eq_of_lt hlt]

namespace Bytes

variable {bytes : Bytes} {word : UInt32}

theorem LittleEndian.toUInt32_eq (h : LittleEndian bytes word) : toUInt32 bytes = word := by
  rw [toUInt32, List.take_of_length_le h.1, ← h.2, UInt32.ofNat_toNat]

theorem LittleEndian.ofUInt32_eq (h : LittleEndian bytes word) (hlength : bytes.length = 4) :
    ofUInt32 word = bytes := by
  rw [ofUInt32, h.2, ← hlength, ofNat_toNat]

theorem toUInt32_singleton (b : UInt8) : toUInt32 [b] = b.toUInt32 := by
  have hlength : [b].length ≤ 4 := by
    rw [List.length_singleton]
    decide
  rw [← UInt32.toNat_inj, (littleEndian_toUInt32 hlength).2, UInt8.toNat_toUInt32, toNat_cons,
    toNat_nil]
  omega

end Bytes

namespace Catalogue

def Bounded (id : ItemId) (length : Nat) : Prop :=
  id.descriptor.least ≤ length ∧ length ≤ id.descriptor.most

/-- The lengths that a payload of a kind may have: those within its bounds, of which some kinds
only have the two ends. -/
def Admits (id : ItemId) (length : Nat) : Prop :=
  Bounded id length ∧
    match id with
    | .adcRanges => length = 0 ∨ length = 32
    | .adcCalibration => length = 1 ∨ length = 9
    | .scanSetup => length = 0 ∨ length = 3
    | _ => True

/-- Whether all indices of a payload lie below their limits, the channels of a scan are in order,
and a level is low or high. -/
def Legal : ItemId → Bytes → Prop
  | .dacOutput, channel :: _ => channel.toNat < 4
  | .dacRange, channel :: _ => channel.toNat < 4
  | .adcRange, group :: _ => group.toNat < 8
  | .adcCalibration, group :: _ => group.toNat < 8
  | .scanSetup, first :: last :: _ => first ≤ last ∧ last.toNat < 16
  | .dioInput, bit :: _ => bit.toNat < 32
  | .dioOutput, bit :: level :: _ => bit.toNat < 32 ∧ (level = 0 ∨ level = 1)
  | _, _ => True

/-- The first field of a payload that is not legal, and why. -/
inductive Violates : ItemId → Bytes → FieldFault → Prop
  | dacOutput {channel : UInt8} (value : Bytes) (h : 4 ≤ channel.toNat) :
      Violates .dacOutput (channel :: value) (.outOfRange "channel" channel 4)
  | dacRange {channel : UInt8} (value : Bytes) (h : 4 ≤ channel.toNat) :
      Violates .dacRange (channel :: value) (.outOfRange "channel" channel 4)
  | adcRange {group : UInt8} (value : Bytes) (h : 8 ≤ group.toNat) :
      Violates .adcRange (group :: value) (.outOfRange "group" group 8)
  | calibration {group : UInt8} (value : Bytes) (h : 8 ≤ group.toNat) :
      Violates .adcCalibration (group :: value) (.outOfRange "group" group 8)
  | endChannel (first : UInt8) {last : UInt8} (rest : Bytes) (h : 16 ≤ last.toNat) :
      Violates .scanSetup (first :: last :: rest) (.outOfRange "end channel" last 16)
  | reversed {first last : UInt8} (rest : Bytes) (hlast : last.toNat < 16) (h : last < first) :
      Violates .scanSetup (first :: last :: rest) (.reversedChannels first last)
  | dioInput {bit : UInt8} (rest : Bytes) (h : 32 ≤ bit.toNat) :
      Violates .dioInput (bit :: rest) (.outOfRange "bit" bit 32)
  | dioOutput {bit : UInt8} (level : UInt8) (rest : Bytes) (h : 32 ≤ bit.toNat) :
      Violates .dioOutput (bit :: level :: rest) (.outOfRange "bit" bit 32)
  | level {bit level : UInt8} (rest : Bytes) (hbit : bit.toNat < 32) (hlow : level ≠ 0)
      (hhigh : level ≠ 1) : Violates .dioOutput (bit :: level :: rest) (.badLevel level)

open Bytes (LittleEndian littleEndian_toUInt32)

/-- What a payload of a kind asks for. -/
inductive Asks : ItemId → Bytes → Request → Prop
  | resetBoard (payload : Bytes) : Asks .boardReset payload (.command .resetBoard)
  | deviceId (payload : Bytes) : Asks .boardDeviceId payload (.readback Register.deviceId)
  | features (payload : Bytes) : Asks .boardFeatures payload (.readback Register.features)
  | firmware (payload : Bytes) : Asks .boardFirmware payload (.readback Register.firmware)
  | clock (payload : Bytes) : Asks .boardClock payload .clock
  | reboot (payload : Bytes) : Asks .boardReboot payload .reboot
  | registerRead (offset : UInt8) : Asks .registerRead [offset] (.registerRead offset)
  | write (offset : UInt8) {value : Bytes} {word : UInt32} (h : LittleEndian value word) :
      Asks .registerWrite (offset :: value) (.command (.write offset word))
  | clearBits (offset : UInt8) {mask : Bytes} {word : UInt32} (h : LittleEndian mask word) :
      Asks .registerClear (offset :: mask) (.command (.clearBits offset word))
  | setBits (offset : UInt8) {mask : Bytes} {word : UInt32} (h : LittleEndian mask word) :
      Asks .registerSet (offset :: mask) (.command (.setBits offset word))
  | toggleBits (offset : UInt8) {mask : Bytes} {word : UInt32} (h : LittleEndian mask word) :
      Asks .registerToggle (offset :: mask) (.command (.toggleBits offset word))
  | dacOutput (channel : Fin dacChannels) {value : Bytes} {word : UInt32}
      (h : LittleEndian value word) :
      Asks .dacOutput (UInt8.ofNat channel :: value) (.command (.dacOutput channel word))
  | dacRange (channel : Fin dacChannels) {value : Bytes} {word : UInt32}
      (h : LittleEndian value word) :
      Asks .dacRange (UInt8.ofNat channel :: value) (.dacRange channel word)
  | adcRange (group : Fin adcGroups) {value : Bytes} {word : UInt32} (h : LittleEndian value word) :
      Asks .adcRange (UInt8.ofNat group :: value) (.adcRange group word)
  | readRanges : Asks .adcRanges [] (.adcRanges none)
  | writeRanges {payload : Bytes} (hlength : payload.length = 32) {ranges : Vector UInt32 adcGroups}
      (h : ∀ g : Fin adcGroups, LittleEndian ((payload.drop (4 * g.val)).take 4) ranges[g]) :
      Asks .adcRanges payload (.adcRanges (some ranges))
  | readCalibration (group : Fin adcGroups) :
      Asks .adcCalibration [UInt8.ofNat group] (.calibration group none)
  | writeCalibration (group : Fin adcGroups) {scale offset : Bytes} {c : Calibration}
      (hlength : scale.length = 4) (hscale : LittleEndian scale c.scale)
      (hoffset : LittleEndian offset c.offset) :
      Asks .adcCalibration (UInt8.ofNat group :: (scale ++ offset)) (.calibration group (some c))
  | readScanSetup : Asks .scanSetup [] (.scanSetup none)
  | writeScanSetup (first last oversample : UInt8) :
      Asks .scanSetup [first, last, oversample] (.scanSetup (some ⟨first, last, oversample⟩))
  | scanRaw (payload : Bytes) : Asks .scanRaw payload (.scan .raw)
  | scanCounts (payload : Bytes) : Asks .scanCounts payload (.scan .counts)
  | scanVolts (payload : Bytes) : Asks .scanVolts payload (.scan .volts)
  | streamStart {payload : Bytes} {word : UInt32} (h : LittleEndian payload word) :
      Asks .streamStart payload (.streamStart ⟨word &&& 0x7FFFFFFF⟩)
  | streamStop (payload : Bytes) : Asks .streamStop payload .streamStop
  | streamStatus (payload : Bytes) : Asks .streamStatus payload .streamStatus
  | dioDirection {payload : Bytes} {word : UInt32} (h : LittleEndian payload word) :
      Asks .dioConfigure payload (.command (.dioDirection word))
  | dioInput (bit : Fin dioLines) : Asks .dioInput [UInt8.ofNat bit] (.dioInput bit)
  | dioOutput (bit : Fin dioLines) (level : Bool) :
      Asks .dioOutput [UInt8.ofNat bit, level.toUInt8] (.dioOutput bit level)
  | dioInputs (payload : Bytes) : Asks .dioInputs payload (.readback Register.dioInput)
  | dioOutputs {payload : Bytes} {word : UInt32} (h : LittleEndian payload word) :
      Asks .dioOutputs payload (.command (.dioOutputs word))
  | connectionId (payload : Bytes) : Asks .connectionId payload .connectionId
  | noDiagnostic : Asks .diagnostic [] (.diagnostic none "")
  | diagnostic (code : UInt8) (text : Bytes) :
      Asks .diagnostic (code :: text)
        (.diagnostic (ErrorKind.ofCode? code) (Utf8.decodeLossy text))

/-- What becomes of a payload of a kind. -/
inductive Decodes (id : ItemId) (payload : Bytes) : Except ItemError Request → Prop
  | length (h : ¬ Admits id payload.length) :
      Decodes id payload (wrongLength id payload id.descriptor.least id.descriptor.most)
  | field {fault : FieldFault} (hlength : Admits id payload.length)
      (h : Violates id payload fault) : Decodes id payload (.error (.invalidField id.code fault))
  | request {request : Request} (hlength : Admits id payload.length) (hlegal : Legal id payload)
      (h : Asks id payload request) : Decodes id payload (.ok request)

variable {id : ItemId} {payload : Bytes}

theorem not_legal_of_violates {fault : FieldFault} (h : Violates id payload fault) :
    ¬ Legal id payload := by
  cases h with
  | dacOutput _ h | dacRange _ h | adcRange _ h | calibration _ h | dioInput _ h =>
      exact Nat.not_lt.mpr h
  | endChannel _ _ h => exact fun hlegal => Nat.not_lt.mpr h hlegal.2
  | reversed _ _ h => exact fun hlegal => UInt8.not_lt.mpr hlegal.1 h
  | dioOutput _ _ h => exact fun hlegal => Nat.not_lt.mpr h hlegal.1
  | level _ _ hlow hhigh => exact fun hlegal => hlegal.2.elim hlow hhigh

/-- A payload that begins with an index is refused for it or read on with it. -/
theorem decodes_index {field : String} {limit : Nat} {value : UInt8}
    {k : Fin limit → Except ItemError Request} (hlength : Admits id payload.length)
    (hviolates : limit ≤ value.toNat → Violates id payload (.outOfRange field value limit))
    (hk : ∀ i : Fin limit, value = UInt8.ofNat i → value.toNat < limit →
      Decodes id payload (k i)) :
    Decodes id payload (index id field limit value >>= k) := by
  rw [index]
  split
  · rename_i hlimit
    exact hk _ UInt8.ofNat_toNat.symm hlimit
  · rename_i hlimit
    exact .field hlength (hviolates (Nat.not_lt.mp hlimit))

theorem exists_cons_of_length {least most : Nat} {bytes : Bytes}
    (h : least + 1 ≤ bytes.length ∧ bytes.length ≤ most + 1) :
    ∃ first rest, bytes = first :: rest ∧ least ≤ rest.length ∧ rest.length ≤ most := by
  obtain ⟨first, rest, rfl⟩ :=
    List.exists_cons_of_length_pos (Nat.lt_of_lt_of_le least.succ_pos h.1)
  exact ⟨first, rest, rfl, Nat.le_of_succ_le_succ h.1, Nat.le_of_succ_le_succ h.2⟩

theorem decodes_ranges (h : Bounded .adcRanges payload.length) :
    Decodes .adcRanges payload (decodeRanges payload) := by
  rw [decodeRanges]
  split
  · rename_i hnone
    obtain rfl := List.length_eq_zero_iff.mp hnone
    exact .request ⟨h, .inl rfl⟩ trivial .readRanges
  split
  · rename_i hall
    refine .request ⟨h, .inr hall⟩ trivial (.writeRanges hall fun g => ?_)
    have hword := littleEndian_toUInt32 (List.length_take_le 4 (payload.drop (4 * g.val)))
    rw [Bytes.toUInt32, List.take_take] at hword
    rw [Fin.getElem_fin, Vector.getElem_ofFn]
    exact hword
  · rename_i hnone hall
    exact .length fun hlength => hlength.2.elim hnone hall

theorem decodes_calibration (h : Bounded .adcCalibration payload.length) :
    Decodes .adcCalibration payload (decodeCalibration payload) := by
  unfold decodeCalibration
  split
  · rename_i group
    refine decodes_index ⟨h, .inl rfl⟩ (.calibration []) ?_
    rintro g rfl hg
    exact .request ⟨h, .inl rfl⟩ hg (.readCalibration g)
  · rename_i group s0 s1 s2 s3 o0 o1 o2 o3
    refine decodes_index ⟨h, .inr rfl⟩ (.calibration [s0, s1, s2, s3, o0, o1, o2, o3]) ?_
    rintro g rfl hg
    have hword (b0 b1 b2 b3 : UInt8) : LittleEndian [b0, b1, b2, b3]
        (Bytes.toUInt32 [b0, b1, b2, b3]) := littleEndian_toUInt32 (Nat.le_refl 4)
    have hasks : Asks .adcCalibration (UInt8.ofNat g :: ([s0, s1, s2, s3] ++ [o0, o1, o2, o3]))
        (.calibration g
          (some ⟨Bytes.toUInt32 [s0, s1, s2, s3], Bytes.toUInt32 [o0, o1, o2, o3]⟩)) :=
      .writeCalibration g rfl (hword s0 s1 s2 s3) (hword o0 o1 o2 o3)
    exact .request ⟨h, .inr rfl⟩ hg hasks
  · rename_i hgroup hall
    refine .length fun hlength => hlength.2.elim (fun hone => ?_) fun hnine => ?_
    · obtain ⟨group, rfl⟩ := List.length_eq_one_iff.mp hone
      exact hgroup group rfl
    · match payload, hnine with
      | [_, _, _, _, _, _, _, _, _], _ => exact hall _ _ _ _ _ _ _ _ _ rfl

theorem decodes_scanSetup (h : Bounded .scanSetup payload.length) :
    Decodes .scanSetup payload (decodeScanSetup payload) := by
  unfold decodeScanSetup
  split
  · exact .request ⟨h, .inl rfl⟩ trivial .readScanSetup
  · rename_i first last oversample
    refine decodes_index ⟨h, .inr rfl⟩ (.endChannel first [oversample]) ?_
    intro _ _ hlast
    by_cases hreversed : last < first
    · rw [if_pos hreversed]
      exact .field ⟨h, .inr rfl⟩ (.reversed [oversample] hlast hreversed)
    · rw [if_neg hreversed]
      exact .request ⟨h, .inr rfl⟩ ⟨UInt8.not_lt.mp hreversed, hlast⟩
        (.writeScanSetup first last oversample)
  · rename_i hnone hall
    refine .length fun hlength => hlength.2.elim (fun hzero => ?_) fun hthree => ?_
    · exact hnone (List.length_eq_zero_iff.mp hzero)
    · obtain ⟨first, last, oversample, rfl⟩ := List.length_eq_three.mp hthree
      exact hall first last oversample rfl

theorem decodes_level {bit : Fin dioLines} {value : UInt8}
    (h : Bounded .dioOutput [UInt8.ofNat bit, value].length)
    (hbit : (UInt8.ofNat bit).toNat < dioLines) :
    Decodes .dioOutput [UInt8.ofNat bit, value]
      (level value >>= fun level => .ok (.dioOutput bit level)) := by
  rw [level]
  split
  · rename_i hlow
    obtain rfl := hlow
    exact .request ⟨h, trivial⟩ ⟨hbit, .inl rfl⟩ (.dioOutput bit false)
  split
  · rename_i hhigh
    obtain rfl := hhigh
    exact .request ⟨h, trivial⟩ ⟨hbit, .inr rfl⟩ (.dioOutput bit true)
  · rename_i hlow hhigh
    exact .field ⟨h, trivial⟩ (.level [] hbit hlow hhigh)

theorem decodes_of_bounded (h : Bounded id payload.length) :
    Decodes id payload (decode id payload) := by
  cases id with
  | boardReset | boardDeviceId | boardFeatures | boardFirmware | boardClock | boardReboot
  | scanRaw | scanCounts | scanVolts | streamStop | streamStatus | dioInputs | connectionId =>
      exact .request ⟨h, trivial⟩ trivial (by constructor)
  | dioConfigure => exact .request ⟨h, trivial⟩ trivial (.dioDirection (littleEndian_toUInt32 h.2))
  | dioOutputs => exact .request ⟨h, trivial⟩ trivial (.dioOutputs (littleEndian_toUInt32 h.2))
  | streamStart => exact .request ⟨h, trivial⟩ trivial (.streamStart (littleEndian_toUInt32 h.2))
  | registerWrite | registerClear | registerSet | registerToggle =>
      obtain ⟨offset, word, rfl, -, hword⟩ := exists_cons_of_length h
      have hspelt := littleEndian_toUInt32 hword
      exact .request ⟨h, trivial⟩ trivial (by constructor; exact hspelt)
  | dacOutput =>
      obtain ⟨channel, value, rfl, -, hvalue⟩ := exists_cons_of_length h
      refine decodes_index ⟨h, trivial⟩ (.dacOutput value) ?_
      rintro i rfl hi
      exact .request ⟨h, trivial⟩ hi (.dacOutput i (littleEndian_toUInt32 hvalue))
  | dacRange =>
      obtain ⟨channel, value, rfl, -, hvalue⟩ := exists_cons_of_length h
      refine decodes_index ⟨h, trivial⟩ (.dacRange value) ?_
      rintro i rfl hi
      exact .request ⟨h, trivial⟩ hi (.dacRange i (littleEndian_toUInt32 hvalue))
  | adcRange =>
      obtain ⟨group, value, rfl, -, hvalue⟩ := exists_cons_of_length h
      refine decodes_index ⟨h, trivial⟩ (.adcRange value) ?_
      rintro i rfl hi
      exact .request ⟨h, trivial⟩ hi (.adcRange i (littleEndian_toUInt32 hvalue))
  | adcRanges => exact decodes_ranges h
  | adcCalibration => exact decodes_calibration h
  | scanSetup => exact decodes_scanSetup h
  | registerRead =>
      obtain ⟨offset, rfl⟩ := List.length_eq_one_iff.mp (Nat.le_antisymm h.2 h.1)
      exact .request ⟨h, trivial⟩ trivial (.registerRead offset)
  | dioInput =>
      obtain ⟨bit, rfl⟩ := List.length_eq_one_iff.mp (Nat.le_antisymm h.2 h.1)
      refine decodes_index ⟨h, trivial⟩ (.dioInput []) ?_
      rintro i rfl hi
      exact .request ⟨h, trivial⟩ hi (.dioInput i)
  | dioOutput =>
      obtain ⟨bit, value, rfl⟩ := List.length_eq_two.mp (Nat.le_antisymm h.2 h.1)
      refine decodes_index ⟨h, trivial⟩ (.dioOutput value []) ?_
      rintro i rfl hi
      exact decodes_level h hi
  | diagnostic =>
      cases payload with
      | nil => exact .request ⟨h, trivial⟩ trivial .noDiagnostic
      | cons code text => exact .request ⟨h, trivial⟩ trivial (.diagnostic code text)

/-- What becomes of a code and a payload. The item is as yet to be carried out. -/
inductive Outcome (code : UInt16) (payload : Bytes) : Except ItemError Item → Prop
  | unknown (h : ∀ id : ItemId, id.code ≠ code) : Outcome code payload (.error (.unknownId code))
  | length {id : ItemId} (hcode : id.code = code) (h : ¬ Admits id payload.length) :
      Outcome code payload (.error
        (.lengthMismatch code payload.length id.descriptor.least id.descriptor.most))
  | field {id : ItemId} {fault : FieldFault} (hcode : id.code = code)
      (hlength : Admits id payload.length) (h : Violates id payload fault) :
      Outcome code payload (.error (.invalidField code fault))
  | accepted {id : ItemId} {item : Item} (hcode : id.code = code)
      (hlength : Admits id payload.length) (hlegal : Legal id payload)
      (hitem : item.code = code ∧ item.id? = some id ∧ item.payload = payload)
      (hasks : Asks id payload item.request) (hstatus : item.status = .pending) :
      Outcome code payload (.ok item)

theorem outcome_of_decodes {result : Except ItemError Request} (h : Decodes id payload result) :
    Outcome id.code payload (result.map (.ofRequest id payload)) := by
  cases h with
  | length h => exact .length rfl h
  | field hlength h => exact .field rfl hlength h
  | request hlength hlegal hasks =>
      exact .accepted rfl hlength hlegal ⟨rfl, ItemId.ofCode?_code id, rfl⟩ hasks rfl

theorem construct_of_bounded (h : Bounded id payload.length) :
    construct id.code payload = (decode id payload).map (.ofRequest id payload) := by
  have hvalid : validateLength id.code payload.length = .ok id := by
    rw [validateLength, ItemId.ofCode?_code]
    exact if_pos h
  rw [construct, hvalid]
  change (decode id payload >>= _) = _
  cases decode id payload <;> rfl

theorem construct_of_not_bounded (h : ¬ Bounded id payload.length) :
    construct id.code payload = .error
      (.lengthMismatch id.code payload.length id.descriptor.least id.descriptor.most) := by
  have hvalid : validateLength id.code payload.length = .error
      (.lengthMismatch id.code payload.length id.descriptor.least id.descriptor.most) := by
    rw [validateLength, ItemId.ofCode?_code]
    exact if_neg h
  rw [construct, hvalid]
  rfl

theorem construct_of_unknown {code : UInt16} (h : ∀ id : ItemId, id.code ≠ code) :
    construct code payload = .error (.unknownId code) := by
  have hnone : ItemId.ofCode? code = none := by
    rw [ItemId.ofCode?, List.find?_eq_none]
    exact fun id _ hid => h id (beq_iff_eq.mp hid)
  rw [construct, validateLength, hnone]
  rfl

theorem outcome_construct (code : UInt16) (payload : Bytes) :
    Outcome code payload (construct code payload) := by
  by_cases hcode : ∃ id : ItemId, id.code = code
  · obtain ⟨id, rfl⟩ := hcode
    by_cases hbounded : Bounded id payload.length
    · rw [construct_of_bounded hbounded]
      exact outcome_of_decodes (decodes_of_bounded hbounded)
    · rw [construct_of_not_bounded hbounded]
      exact .length rfl fun hlength => hbounded hlength.1
  · have hunknown := not_exists.mp hcode
    rw [construct_of_unknown hunknown]
    exact .unknown hunknown

/-- Items are accepted just if their code is known, its kind admits the length and the fields are
legal; they keep code and payload and ask for what the payload spells. Of what is wrong with any
other the code is told before the length and the length before a field. -/
theorem accepts_the_catalogue (code : UInt16) (payload : Bytes) :
    ((∃ item, construct code payload = .ok item) ↔
      ∃ id : ItemId, id.code = code ∧ Admits id payload.length ∧ Legal id payload) ∧
    Outcome code payload (construct code payload) := by
  have houtcome := outcome_construct code payload
  refine ⟨⟨?_, ?_⟩, houtcome⟩
  · rintro ⟨item, hitem⟩
    rw [hitem] at houtcome
    cases houtcome with
    | accepted hcode hlength hlegal _ _ _ => exact ⟨_, hcode, hlength, hlegal⟩
  · rintro ⟨id, rfl, hlength, hlegal⟩
    generalize construct id.code payload = result at houtcome
    -- The kind of a refusal is the kind at hand, since no two kinds have the same code.
    cases houtcome with
    | unknown h => exact absurd rfl (h id)
    | length hcode h =>
        obtain rfl := ItemId.code_injective hcode
        exact absurd hlength h
    | field hcode _ h =>
        obtain rfl := ItemId.code_injective hcode
        exact absurd hlegal (not_legal_of_violates h)
    | accepted => exact ⟨_, rfl⟩

/-- The limit of the last channel is checked before the order of the channels. -/
example : construct 0x1004 [20, 16, 0] =
    .error (.invalidField 0x1004 (.outOfRange "end channel" 16 16)) :=
  rfl

end Catalogue

end DaqServer
