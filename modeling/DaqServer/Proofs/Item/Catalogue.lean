import DaqServer.Item.Catalogue

/-!
# What the catalogue accepts

An item that is read has a known code, a length within the bounds of its kind and the request that
its payload spells.
-/

namespace DaqServer

theorem toNat_ofNat_fin {n : Nat} (hn : n ≤ UInt8.size) (i : Fin n) :
    (UInt8.ofNat i.val).toNat = i.val :=
  UInt8.toNat_ofNat_of_lt (Nat.lt_of_lt_of_le i.isLt hn)

theorem ItemId.code_of_ofCode? {code : UInt16} {id : ItemId} (h : ofCode? code = some id) :
    id.code = code := by
  have hfound := List.find?_some h
  exact beq_iff_eq.mp hfound

theorem ItemId.code_injective {id id' : ItemId} (h : id.code = id'.code) : id = id' := by
  have hsame := congrArg ofCode? h
  rw [ofCode?_code, ofCode?_code] at hsame
  exact Option.some.inj hsame

namespace Catalogue

theorem ok_of_bind {ε α β : Type} {x : Except ε α} {f : α → Except ε β} {b : β}
    (h : (x >>= f) = .ok b) : ∃ a, x = .ok a ∧ f a = .ok b := by
  cases x with
  | error e => cases h
  | ok a => exact ⟨a, rfl, h⟩

theorem validateLength_cases {code : UInt16} {length : Nat} {id : ItemId}
    (h : validateLength code length = .ok id) :
    id.code = code ∧ id.descriptor.least ≤ length ∧ length ≤ id.descriptor.most := by
  unfold validateLength at h
  split at h
  · cases h
  · rename_i hid
    dsimp only at h
    split at h
    · cases h
      exact ⟨ItemId.code_of_ofCode? hid, ‹_›⟩
    · cases h

theorem construct_cases {code : UInt16} {payload : Bytes} {item : Item}
    (h : construct code payload = .ok item) :
    ∃ id request, id.code = code ∧ payload.length ≤ id.descriptor.most ∧
      decode id payload = .ok request ∧ item = .ofRequest id payload request := by
  obtain ⟨id, hid, h⟩ := ok_of_bind h
  obtain ⟨request, hrequest, h⟩ := ok_of_bind h
  obtain ⟨hcode, -, hmost⟩ := validateLength_cases hid
  exact ⟨id, request, hcode, hmost, hrequest, (Except.ok.inj h).symm⟩

/-- The payloads that spell a register command. -/
inductive Spells : ItemId → Bytes → Command → Prop
  | resetBoard (payload : Bytes) : Spells .boardReset payload .resetBoard
  | write (offset : UInt8) (value : Bytes) :
      Spells .registerWrite (offset :: value) (.write offset (Bytes.toUInt32 value))
  | clearBits (offset : UInt8) (mask : Bytes) :
      Spells .registerClear (offset :: mask) (.clearBits offset (Bytes.toUInt32 mask))
  | setBits (offset : UInt8) (mask : Bytes) :
      Spells .registerSet (offset :: mask) (.setBits offset (Bytes.toUInt32 mask))
  | toggleBits (offset : UInt8) (mask : Bytes) :
      Spells .registerToggle (offset :: mask) (.toggleBits offset (Bytes.toUInt32 mask))
  | dacOutput (channel : Fin dacChannels) (value : Bytes) :
      Spells .dacOutput (UInt8.ofNat channel :: value) (.dacOutput channel (Bytes.toUInt32 value))
  | dioDirection (value : Bytes) :
      Spells .dioConfigure value (.dioDirection (Bytes.toUInt32 value))
  | dioOutputs (value : Bytes) : Spells .dioOutputs value (.dioOutputs (Bytes.toUInt32 value))

/-- What a payload is read as: a register command that it spells, a diagnostic or something
else. -/
inductive Reads : ItemId → Bytes → Request → Prop
  | command {id : ItemId} {payload : Bytes} {c : Command} (h : Spells id payload c) :
      Reads id payload (.command c)
  | diagnostic {payload : Bytes} {r : Request} (h : decodeDiagnostic payload = r) :
      Reads .diagnostic payload r
  | other {id : ItemId} {payload : Bytes} {r : Request} (hcommand : ∀ c, r ≠ .command c)
      (hdiagnostic : ∀ kind text, r ≠ .diagnostic kind text) : Reads id payload r

theorem fin_of_index {id : ItemId} {field : String} {limit : Nat} {value : UInt8} {i : Fin limit}
    (h : index id field limit value = .ok i) : value = UInt8.ofNat i := by
  rw [index] at h
  split at h
  · cases h
    exact UInt8.ofNat_toNat.symm
  · cases h

theorem index_ofNat (id : ItemId) (field : String) {limit : Nat} (hlimit : limit ≤ UInt8.size)
    (i : Fin limit) : index id field limit (UInt8.ofNat i) = .ok i := by
  have hi : (UInt8.ofNat i).toNat = i := toNat_ofNat_fin hlimit i
  rw [index, dif_pos (by rw [hi]; exact i.isLt)]
  exact congrArg Except.ok (Fin.ext hi)

theorem reads_of_decode {id : ItemId} {payload : Bytes} {r : Request}
    (h : decode id payload = .ok r) : Reads id payload r := by
  cases id with
  | boardReset =>
      cases h
      exact .command (.resetBoard payload)
  | registerWrite | registerClear | registerSet | registerToggle =>
      cases payload with
      | nil => cases h
      | cons offset word =>
          cases h
          exact .command (by constructor)
  | dioConfigure =>
      cases h
      exact .command (.dioDirection payload)
  | dioOutputs =>
      cases h
      exact .command (.dioOutputs payload)
  | dacOutput =>
      cases payload with
      | nil => cases h
      | cons channel value =>
          obtain ⟨i, hi, hcommand⟩ := ok_of_bind h
          obtain rfl := fin_of_index hi
          cases hcommand
          exact .command (.dacOutput i value)
  | diagnostic => exact .diagnostic (Except.ok.inj h)
  | dacRange | adcRange =>
      cases payload with
      | nil => cases h
      | cons first value =>
          obtain ⟨_, -, h⟩ := ok_of_bind h
          cases h
          exact .other nofun nofun
  | adcRanges =>
      simp only [decode, decodeRanges] at h
      split at h
      · cases h
        exact .other nofun nofun
      · split at h <;> cases h
        exact .other nofun nofun
  | adcCalibration =>
      simp only [decode, decodeCalibration] at h
      split at h
      · obtain ⟨_, -, h⟩ := ok_of_bind h
        cases h
        exact .other nofun nofun
      · obtain ⟨_, -, h⟩ := ok_of_bind h
        cases h
        exact .other nofun nofun
      · cases h
  | scanSetup =>
      simp only [decode, decodeScanSetup] at h
      split at h
      · cases h
        exact .other nofun nofun
      · obtain ⟨_, -, h⟩ := ok_of_bind h
        split at h <;> cases h
        exact .other nofun nofun
      · cases h
  | registerRead =>
      match payload with
      | [] | _ :: _ :: _ => cases h
      | [offset] =>
          cases h
          exact .other nofun nofun
  | dioInput =>
      match payload with
      | [] | _ :: _ :: _ => cases h
      | [bit] =>
          obtain ⟨_, -, h⟩ := ok_of_bind h
          cases h
          exact .other nofun nofun
  | dioOutput =>
      match payload with
      | [] | [_] | _ :: _ :: _ :: _ => cases h
      | [bit, value] =>
          obtain ⟨_, -, h⟩ := ok_of_bind h
          obtain ⟨_, -, h⟩ := ok_of_bind h
          cases h
          exact .other nofun nofun
  | _ =>
      cases h
      exact .other nofun nofun

theorem decode_diagnostic {id : ItemId} {payload : Bytes} {kind : Option ErrorKind}
    {text : String} (h : decode id payload = .ok (.diagnostic kind text)) :
    id = .diagnostic ∧ decodeDiagnostic payload = .diagnostic kind text := by
  cases reads_of_decode h with
  | diagnostic hread => exact ⟨rfl, hread⟩
  | other _ hother => exact absurd rfl (hother kind text)

theorem spells_of_decode {id : ItemId} {payload : Bytes} {c : Command}
    (h : decode id payload = .ok (.command c)) : Spells id payload c := by
  cases reads_of_decode h with
  | command hspells => exact hspells
  | diagnostic hread => cases payload <;> cases hread
  | other hother _ => exact absurd rfl (hother c)

end Catalogue

end DaqServer
