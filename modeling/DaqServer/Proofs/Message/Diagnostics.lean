import DaqServer.Proofs.Item.Acceptance
import DaqServer.Proofs.Message.Replies
import DaqServer.Proofs.Text.Lossless

/-!
# How long the diagnostics of a reply are

A diagnostic that the executor makes is cut to what a diagnostic carries. One that was received and
carried out is written as it was read, and a byte that is no text is read as a character of three.
Main statement: a diagnostic of a reply is longer than a diagnostic may be, and refused by who reads
it, just if it was received with bytes that are no text and its text outgrew the limit.
-/

namespace DaqServer

theorem Utf8.decodeLossy_nil : decodeLossy [] = "" := by
  rw [decodeLossy, decodeChars]

namespace Catalogue

theorem text_of_decodeDiagnostic {payload : Bytes} {kind : Option ErrorKind} {text : String}
    (h : decodeDiagnostic payload = .diagnostic kind text) :
    text = Utf8.decodeLossy payload.tail := by
  cases payload with
  | nil =>
      cases h
      exact Utf8.decodeLossy_nil.symm
  | cons code bytes =>
      cases h
      rfl

/-- Any payload within the limit is read as a diagnostic. -/
theorem construct_diagnostic_iff (payload : Bytes) :
    (∃ item, construct ItemId.diagnostic.code payload = .ok item) ↔
      payload.length ≤ 1 + diagnosticLimit := by
  constructor
  · rintro ⟨item, hitem⟩
    obtain ⟨id, request, hcode, hlength, -, -⟩ := construct_cases hitem
    obtain rfl := ItemId.code_injective hcode
    exact hlength
  · intro hlength
    have hbounded : Bounded .diagnostic payload.length := ⟨Nat.zero_le _, hlength⟩
    exact ⟨_, construct_of_bounded hbounded⟩

end Catalogue

namespace Item

def IsDiagnostic (i : Item) : Prop := ∃ kind text, i.request = .diagnostic kind text

/-- The item was carried out, and the text that its payload was read as is longer than what a
diagnostic carries. -/
def Outgrows (i : Item) : Prop :=
  ¬ i.IsOpen ∧ diagnosticLimit < (Utf8.encode (Utf8.decodeLossy i.payload.tail)).length

/-- How a diagnostic of a reply came about. -/
inductive Tells : Item → Prop
  /-- The executor made it. -/
  | made (kind : ErrorKind) (message : String) : Tells (.diagnostic kind message)
  /-- It was received. -/
  | received {payload : Bytes} {kind : Option ErrorKind} {text : String}
      (hlength : payload.length ≤ 1 + diagnosticLimit)
      (hread : Catalogue.decodeDiagnostic payload = .diagnostic kind text)
      (status : Status (.diagnostic kind text)) :
      Tells ⟨ItemId.diagnostic.code, payload, .diagnostic kind text, status⟩

variable {i : Item}

theorem Tells.code_eq (h : i.Tells) : i.code = ItemId.diagnostic.code := by
  cases h <;> rfl

theorem Tells.length_payload_le (h : i.Tells) : i.payload.length ≤ 1 + diagnosticLimit := by
  cases h with
  | made => exact Nat.zero_le _
  | received hlength => exact hlength

theorem Tells.length_tail_le (h : i.Tells) : i.payload.tail.length ≤ diagnosticLimit := by
  have hlength := h.length_payload_le
  rw [List.length_tail]
  omega

/-- Text that was written as UTF-8 takes as many bytes as it came in. -/
theorem Tells.not_outgrows_of_encode (h : i.Tells) {s : String}
    (hs : i.payload.tail = Utf8.encode s) : ¬ i.Outgrows := by
  rintro ⟨-, hlonger⟩
  rw [hs, Utf8.decodeLossy_encode, ← hs] at hlonger
  exact Nat.not_lt.mpr h.length_tail_le hlonger

/-- What is written for a diagnostic: the text that it was read as, or its payload. -/
theorem Tells.length_wirePayload (h : i.Tells) :
    (i.wirePayload true).length ≤ 1 + diagnosticLimit ∧ ¬ i.Outgrows ∨
      ¬ i.IsOpen ∧ (i.wirePayload true).length =
        1 + (Utf8.encode (Utf8.decodeLossy i.payload.tail)).length := by
  cases h with
  | made kind message =>
      have hlength := length_wirePayload_diagnostic kind message
      have hnone : (diagnostic kind message).payload.tail = Utf8.encode "" := rfl
      exact .inl ⟨Nat.add_comm _ 1 ▸ hlength,
        (Tells.made kind message).not_outgrows_of_encode hnone⟩
  | @received payload kind text hlength hread status =>
      cases status with
      | done result =>
          obtain rfl := Catalogue.text_of_decodeDiagnostic hread
          exact .inr ⟨fun hopen => hopen result rfl, List.length_cons.trans (Nat.add_comm _ 1)⟩
      | pending => exact .inl ⟨hlength, fun houtgrows => houtgrows.1 nofun⟩
      | failed fault => exact .inl ⟨hlength, fun houtgrows => houtgrows.1 nofun⟩

theorem Tells.length_wirePayload_iff (h : i.Tells) :
    (i.wirePayload true).length ≤ 1 + diagnosticLimit ↔ ¬ i.Outgrows := by
  obtain ⟨hlength, hfits⟩ | ⟨hdone, hlength⟩ := h.length_wirePayload
  · exact iff_of_true hlength hfits
  · rw [hlength, Outgrows, and_iff_right hdone, Nat.not_lt]
    exact Nat.add_le_add_iff_left

theorem Tells.length_wirePayload_le (h : i.Tells) :
    (i.wirePayload true).length ≤ 1 + 3 * diagnosticLimit := by
  obtain ⟨hlength, -⟩ | ⟨-, hlength⟩ := h.length_wirePayload
  · exact Nat.le_trans hlength (by decide)
  · rw [hlength]
    have hread := Utf8.length_encode_decodeLossy_le i.payload.tail
    have htail := h.length_tail_le
    omega

end Item

/-- A diagnostic that is read from a record has the limit of its kind. -/
theorem Record.ReadAs.tells {r : Record} {i j : Item} (h : r.ReadAs j)
    (hheader : i.header = j.header) (hi : i.IsDiagnostic) : i.Tells := by
  obtain ⟨code, payload, request, status⟩ := i
  obtain ⟨kind, text, rfl⟩ := hi
  cases h with
  | refused h => cases hheader
  | accepted h =>
      obtain ⟨id, request, hcode, hlength, hdecode, rfl⟩ := Catalogue.construct_cases h
      cases hheader
      obtain ⟨rfl, hread⟩ := Catalogue.decode_diagnostic hdecode
      exact .received hlength hread status

theorem tells_of_parsed {payload : Bytes} {i j : Item} (hj : j ∈ parseItems payload)
    (hheader : i.header = j.header) (hi : i.IsDiagnostic) : i.Tells := by
  have hsplit := Record.decomposes_split payload
  rw [hsplit.parseItems_eq, List.mem_append] at hj
  rcases hj with hj | hj
  · obtain ⟨r, -, rfl⟩ := List.mem_map.mp hj
    exact r.readAs_toItem.tells hheader hi
  · obtain ⟨code, data, rfl, -⟩ := mem_residual (residual_residueItems _ hsplit.residue) j hj
    obtain ⟨kind, text, hrequest⟩ := hi
    cases hrequest.symm.trans (congrArg (·.2.2) hheader)

namespace Message

variable {β δ : Type} {setup : Setup β δ} {connection : ConnectionId} {m : Message}

/-- Each diagnostic of a reply was made for it or received. -/
theorem tells_of_mem_execute {payload : Bytes} (hitems : m.items = parseItems payload)
    {x : Instrument β δ} {i : Item} (hi : i ∈ (m.execute setup connection x).1.items)
    (hdiagnostic : i.IsDiagnostic) : i.Tells := by
  rcases (m.execute_cases x).2 with hreply | ⟨kind, text, hreply⟩
  · rw [hreply, List.mem_append] at hi
    rcases hi with hi | hi
    · have hheader := List.mem_map_of_mem (f := Item.header) hi
      rw [map_header_executeItems, hitems] at hheader
      obtain ⟨j, hj, hheader⟩ := List.mem_map.mp hheader
      exact tells_of_parsed hj hheader.symm hdiagnostic
    · obtain ⟨kind, text, rfl⟩ := mem_diagnosticsOf hi
      exact .made kind text
  · rw [hreply, List.mem_singleton] at hi
    exact hi ▸ .made kind text

/-- A diagnostic that is received alone is all of the reply, with the text that it was read as. -/
theorem execute_diagnostic {payload : Bytes} {kind : Option ErrorKind} {text : String}
    (hlength : payload.length ≤ 1 + diagnosticLimit)
    (hread : Catalogue.decodeDiagnostic payload = .diagnostic kind text) (trailer : UInt8)
    (setup : Setup β δ) (connection : ConnectionId) (x : Instrument β δ) :
    ∃ i : Item, (execute setup connection
        ⟨.query, parseItems (Record.bytes ⟨ItemId.diagnostic.code, payload⟩), trailer⟩ x).1.items =
          [i] ∧
      i.IsDiagnostic ∧ i.received = ⟨ItemId.diagnostic.code, payload⟩ ∧
      i.wirePayload true = (kind.map ErrorKind.code).getD 0 :: Utf8.encode text := by
  have hfits : (⟨ItemId.diagnostic.code, payload⟩ : Record).Fits :=
    Nat.lt_of_le_of_lt hlength (by decide)
  have hbounded : Catalogue.Bounded .diagnostic payload.length := ⟨Nat.zero_le _, hlength⟩
  have hparsed := parseItems_records (List.forall_mem_singleton.mpr hfits)
  rw [List.flatMap_singleton, List.map_singleton, Record.toItem, Catalogue.constructOrReject,
    Catalogue.construct_of_bounded hbounded, Catalogue.decode, hread] at hparsed
  rw [hparsed]
  exact ⟨⟨ItemId.diagnostic.code, payload, .diagnostic kind text, .done ()⟩, rfl,
    ⟨kind, text, rfl⟩, rfl, rfl⟩

/-- A diagnostic of the reply to a framed message keeps the limit of its kind, and is accepted when
it is read again, just if it did not outgrow it. One that was received as valid text did not, and no
text is more than three times as long as the longest that a diagnostic carries. -/
theorem diagnostics_keep_limit_iff {limit consumed : Nat} {buffer : Bytes}
    (h : frame limit buffer = .ok (m, consumed)) (setup : Setup β δ) (connection : ConnectionId)
    (x : Instrument β δ) :
    ∀ i ∈ (m.execute setup connection x).1.items, i.IsDiagnostic →
      ((i.wirePayload true).length ≤ 1 + diagnosticLimit ↔ ¬ i.Outgrows) ∧
      ((∃ j, Catalogue.construct i.code (i.wirePayload true) = .ok j) ↔ ¬ i.Outgrows) ∧
      (∀ s, i.payload.tail = Utf8.encode s → ¬ i.Outgrows) ∧
      (i.wirePayload true).length ≤ 1 + 3 * diagnosticLimit := by
  obtain ⟨body, more, -, -, -, hitems, -⟩ := eq_wire_of_frame h
  intro i hi hdiagnostic
  have htells := tells_of_mem_execute hitems hi hdiagnostic
  refine ⟨htells.length_wirePayload_iff, ?_, fun s => htells.not_outgrows_of_encode,
    htells.length_wirePayload_le⟩
  rw [htells.code_eq, Catalogue.construct_diagnostic_iff]
  exact htells.length_wirePayload_iff

/-- A simulated board whose scans settle at once and whose streams have one slot. -/
def plainSetup : Setup SimulatedBoard SimulatedDma where
  port := SimulatedBoard.port .steady
  dma := SimulatedDma.engine
  scan := ⟨0, ⟨0⟩, ⟨0⟩, ⟨0⟩, ⟨0⟩⟩
  watch := .steady 1 0 Nat.one_pos
  stream := ⟨1, 1, ⟨0⟩⟩

/-- A diagnostic whose text is one character of two bytes comes back within the limit. -/
theorem diagnostic_of_text_kept :
    ∃ m, frame 7 [0x51, 7, 0, 0, 0, 2, 0x80, 3, 0, 1, 0xC3, 0xA9, 0] = .ok (m, 13) ∧
      ∃ i ∈ (m.execute plainSetup ⟨1⟩ (Instrument.idle .powerOn .powerOn)).1.items,
        i.IsDiagnostic ∧ i.payload.tail = Utf8.encode "é" ∧ ¬ i.Outgrows ∧
          ∃ j, Catalogue.construct i.code (i.wirePayload true) = .ok j := by
  have hframe : frame 7 [0x51, 7, 0, 0, 0, 2, 0x80, 3, 0, 1, 0xC3, 0xA9, 0] = .ok (_, 13) := rfl
  have hlength : ([1, 0xC3, 0xA9] : Bytes).length ≤ 1 + diagnosticLimit := by decide
  obtain ⟨i, hitems, hdiagnostic, hreceived, -⟩ := execute_diagnostic hlength rfl 0 plainSetup ⟨1⟩
    (Instrument.idle .powerOn .powerOn)
  have hi := hitems ▸ List.mem_singleton_self i
  have hpayload : i.payload = [1, 0xC3, 0xA9] := congrArg Record.data hreceived
  have htext : i.payload.tail = Utf8.encode "é" := by
    rw [hpayload]
    rfl
  obtain ⟨-, hread, hfits, -⟩ := diagnostics_keep_limit_iff hframe plainSetup ⟨1⟩
    (Instrument.idle .powerOn .powerOn) i hi hdiagnostic
  have hkept := hfits _ htext
  exact ⟨_, hframe, i, hi, hdiagnostic, htext, hkept, hread.mpr hkept⟩

/-- The bytes of a diagnostic that are no text outgrow it: 342 of them are 1026 in the reply, which
is refused by who reads it. -/
theorem diagnostic_outgrows :
    let received : Record := ⟨0x8002, 1 :: List.replicate 342 0xFF⟩
    ∃ m, frame 347 (wire MessageType.query.tag received.bytes 0) = .ok (m, 353) ∧
      ∃ i ∈ (m.execute plainSetup ⟨1⟩ (Instrument.idle .powerOn .powerOn)).1.items,
        i.IsDiagnostic ∧ (i.wirePayload true).length = 1027 ∧
          Catalogue.construct i.code (i.wirePayload true) =
            .error (.lengthMismatch 0x8002 1027 0 1024) := by
  intro received
  have hlength : received.data.length = 343 := by
    rw [List.length_cons, List.length_replicate]
  have hbytes : received.bytes.length = 347 := by
    rw [Record.length_bytes, hlength, Record.headerLength]
  have hframe : frame 347 (wire MessageType.query.tag received.bytes 0 ++ []) =
      .ok (⟨.query, parseItems received.bytes, 0⟩, headerLength + received.bytes.length + 1) :=
    frame_wire hbytes.le (Nat.lt_of_le_of_lt hbytes.le (by decide)) []
  rw [hbytes, List.append_nil] at hframe
  obtain ⟨i, hitems, hdiagnostic, hreceived, hwire⟩ := execute_diagnostic
    (Nat.le_trans hlength.le (by decide)) rfl 0 plainSetup ⟨1⟩ (Instrument.idle .powerOn .powerOn)
  have hwritten : (i.wirePayload true).length = 1027 := by
    rw [hwire, List.length_cons, Utf8.length_encode_decodeLossy_replicate]
  have hlonger : ¬ Catalogue.Bounded .diagnostic (i.wirePayload true).length := by
    rw [hwritten]
    exact fun hbounded => absurd hbounded.2 (by decide)
  have hrefused := Catalogue.construct_of_not_bounded hlonger
  have hcode : i.code = ItemId.diagnostic.code := congrArg Record.code hreceived
  rw [hwritten] at hrefused
  exact ⟨_, hframe, i, hitems ▸ List.mem_singleton_self i, hdiagnostic, hwritten,
    (congrArg (Catalogue.construct · _) hcode).trans hrefused⟩

end Message

end DaqServer
