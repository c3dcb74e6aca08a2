import DaqServer.Proofs.Board.Access
import DaqServer.Proofs.Message.Execution
import DaqServer.Proofs.Message.Reparse
import DaqServer.Proofs.Text.Utf8

/-!
# The size of replies

A reply item takes the payload that was received, or else what its request yielded, which is bounded
by the longest text of a diagnostic. The number of items is bounded by the bytes of the message.
Main statement: the reply to a message within a mebibyte has exact length fields, so that it is
framed as what was written.
-/

namespace DaqServer

/-! ## Results -/

theorem ScanPlan.channelCount_le (p : ScanPlan) : p.channelCount ≤ 256 := by
  have := p.last.toNat_lt
  rw [channelCount]
  omega

/-- A scan has one reading for each channel of its plan. -/
theorem Scan.length_channels_le {σ : Type} {port : Port σ} {settings : ScanSettings}
    {watch : Stopwatch} {arbiter : Arbiter} {board : σ} {readings : Readings}
    (h : (run port settings watch arbiter board).1 = .ok readings) :
    readings.channels.length ≤ 256 := by
  unfold run at h
  split at h
  · cases h
  · rename_i held _
    rcases hmeasure : measure port settings watch board with ⟨result, board'⟩
    rw [hmeasure] at h
    obtain rfl : result = .ok readings := h
    obtain ⟨plan, _, -, hmeasure⟩ := exists_of_bind hmeasure
    obtain ⟨_, _, -, hmeasure⟩ := exists_of_bind hmeasure
    obtain ⟨_, _, -, hmeasure⟩ := exists_of_bind hmeasure
    obtain ⟨_, _, -, hmeasure⟩ := exists_of_bind hmeasure
    obtain ⟨samples, _, -, hmeasure⟩ := exists_of_bind hmeasure
    cases hmeasure
    rw [Readings.length_ofSamples]
    exact plan.channelCount_le

theorem ScanView.length_bytes_le (view : ScanView) (r : Readings) :
    (view.bytes r).length ≤ 4 * r.channels.length := by
  cases view <;>
    simp [bytes, Readings.raw, Readings.counts, Readings.volts, List.length_flatMap,
      Bytes.ofUInt16, Bytes.ofUInt32, Function.comp_def] <;> omega

/-- The most bytes that a request yields: the kind of a diagnostic and its text, for which every
received byte may have been replaced by three. -/
def Item.replyLimit : Nat := 3 * diagnosticLimit + 1

def Request.TextBounded (r : Request) : Prop :=
  ∀ kind text, r = .diagnostic kind text → (Utf8.encode text).length ≤ 3 * diagnosticLimit

section Results

variable {β δ : Type} {setup : Setup β δ} {connection : ConnectionId} {x x' : Instrument β δ}

theorem Request.length_replyBytes_le {r : Request} {result : r.Result} {bytes : Bytes}
    (htext : r.TextBounded) (hrun : r.run setup connection x = (.ok result, x'))
    (h : r.replyBytes result = some bytes) : bytes.length ≤ Item.replyLimit := by
  cases r with
  | scan view =>
      have hmap : (Scan.run setup.port setup.scan setup.watch x.arbiter x.board).1.mapError
          ItemError.acquisition = .ok result := congrArg Prod.fst hrun
      rcases hscan : (Scan.run setup.port setup.scan setup.watch x.arbiter x.board).1
        with e | readings
      · rw [hscan] at hmap
        cases hmap
      · rw [hscan] at hmap
        have hresult : readings = result := Except.ok.inj hmap
        subst hresult
        cases h
        have hbytes := view.length_bytes_le readings
        have hchannels := Scan.length_channels_le hscan
        rw [Item.replyLimit, diagnosticLimit]
        omega
  | diagnostic kind text =>
      cases h
      have := htext kind text rfl
      rw [List.length_cons, Item.replyLimit]
      omega
  | readback offset | registerRead offset | clock | dacRange channel value | adcRange group value
  | adcRanges write | calibration group write | scanSetup write | streamStatus | dioInput bit
  | connectionId =>
      cases h
      simp [Item.replyLimit, diagnosticLimit, adcGroups, Bytes.ofUInt32, Bytes.ofUInt64]
  | invalid | command | reboot | streamStart | streamStop | dioOutput => cases h

/-! ## Items -/

theorem Item.wirePayload_done (item : Item) (result : item.request.Result) :
    Item.wirePayload { item with status := .done result } true =
      (item.request.replyBytes result).getD item.payload := rfl

/-- The payload of a reply item is the one received or what the request yielded. -/
theorem Item.length_wirePayload_le {item item' : Item} (hopen : item.IsOpen)
    (htext : item.request.TextBounded)
    (h : item.Passes setup connection item' x x' ∨ item.Fails setup connection item' x x' ∨
      item.Untouched item' x x') :
    (item'.wirePayload true).length ≤ max item.payload.length replyLimit := by
  rcases h with (⟨-, result, hrun, rfl⟩ | ⟨-, rfl, -⟩) | ⟨-, e, -, rfl⟩ | ⟨rfl, -⟩
  · rw [wirePayload_done]
    cases hbytes : item.request.replyBytes result with
    | none => exact Nat.le_max_left _ _
    | some bytes =>
        exact Nat.le_trans (Request.length_replyBytes_le htext hrun hbytes) (Nat.le_max_right _ _)
  · rw [hopen.wirePayload_eq]
    exact Nat.le_max_left _ _
  · exact Nat.le_max_left _ _
  · rw [hopen.wirePayload_eq]
    exact Nat.le_max_left _ _

end Results

theorem Item.length_wirePayload_diagnostic (kind : ErrorKind) (message : String) :
    ((diagnostic kind message).wirePayload true).length ≤ diagnosticLimit + 1 :=
  Nat.succ_le_succ (Utf8.length_encode_fit_le diagnosticLimit message)

/-! ## Items that were just read -/

theorem Record.ReadAs.textBounded {r : Record} {item : Item} (h : r.ReadAs item) :
    item.request.TextBounded := by
  cases h with
  | refused => exact nofun
  | accepted h =>
      obtain ⟨id, request, -, hlength, hdecode, rfl⟩ := Catalogue.construct_cases h
      rintro kind text rfl
      obtain ⟨rfl, hpayload⟩ := Catalogue.decode_diagnostic hdecode
      cases hdata : r.data with
      | nil =>
          rw [hdata] at hpayload
          cases hpayload
          exact Nat.zero_le _
      | cons code bytes =>
          rw [hdata] at hpayload hlength
          cases hpayload
          have hbytes : bytes.length ≤ diagnosticLimit := Nat.le_of_succ_le_succ hlength
          exact Nat.le_trans (Utf8.length_encode_decodeLossy_le bytes)
            (Nat.mul_le_mul_left 3 hbytes)

theorem textBounded_parseItems (payload : Bytes) :
    ∀ i ∈ parseItems payload, i.request.TextBounded := by
  have hsplit := Record.decomposes_split payload
  intro i hi
  rw [hsplit.parseItems_eq, List.mem_append] at hi
  rcases hi with hi | hi
  · obtain ⟨r, -, rfl⟩ := List.mem_map.mp hi
    exact r.readAs_toItem.textBounded
  · obtain ⟨code, data, rfl, -⟩ := mem_residual (residual_residueItems _ hsplit.residue) i hi
    exact nofun

/-- What stands for a residue takes one header more than the residue, if that has none. -/
theorem length_residual_le {offset : Nat} {residue : Bytes} {items : List Item}
    (h : Residual offset residue items) :
    ((items.map Item.received).flatMap Record.bytes).length ≤
      residue.length + Record.headerLength := by
  cases h with
  | empty => exact Nat.zero_le _
  | headless =>
      simp [Item.received, Item.rejected]
      omega
  | cut =>
      simp [Item.received, Item.rejected]
      omega

theorem length_received_le (payload : Bytes) :
    (((parseItems payload).map Item.received).flatMap Record.bytes).length ≤
      payload.length + Record.headerLength := by
  have hsplit := Record.decomposes_split payload
  have hresidual := length_residual_le (residual_residueItems
    ((Record.split payload).1.flatMap Record.bytes).length hsplit.residue)
  have hlength := congrArg List.length hsplit.bytes_eq
  rw [List.length_append] at hlength
  rw [hsplit.parseItems_eq, List.map_append, Record.map_received_toItem, List.flatMap_append,
    List.length_append]
  omega

/-! ## Sums over items -/

theorem Record.headers_le (records : List Record) :
    records.length * headerLength ≤ (records.flatMap bytes).length := by
  induction records with
  | nil => exact Nat.zero_le _
  | cons r records ih =>
      rw [List.length_cons, Nat.succ_mul, List.flatMap_cons, List.length_append, length_bytes]
      omega

theorem Record.length_flatMap_bytes_le {records : List Record} {most : Nat}
    (h : ∀ r ∈ records, r.data.length ≤ most) :
    (records.flatMap bytes).length ≤ records.length * (headerLength + most) := by
  induction records with
  | nil => exact Nat.zero_le _
  | cons r records ih =>
      obtain ⟨hr, hrecords⟩ := List.forall_mem_cons.mp h
      have := ih hrecords
      rw [List.length_cons, Nat.succ_mul, List.flatMap_cons, List.length_append, length_bytes]
      omega

/-- Items that were carried out take their received payloads and a bounded number of bytes more. -/
theorem length_replied_le {items items' : List Item}
    (h : List.Forall₂ (fun i i' : Item =>
      (i'.wirePayload true).length ≤ max i.payload.length Item.replyLimit) items items') :
    ((items'.map fun i => i.record true).flatMap Record.bytes).length ≤
      ((items.map Item.received).flatMap Record.bytes).length +
        items.length * Item.replyLimit := by
  induction h with
  | nil => exact Nat.zero_le _
  | @cons item item' items items' hitem _ ih =>
      have hbytes : (item'.record true).bytes.length ≤
          item.received.bytes.length + Item.replyLimit := by
        rw [Record.length_bytes, Record.length_bytes, Item.record, Item.received]
        dsimp only
        omega
      rw [List.map_cons, List.map_cons, List.flatMap_cons, List.flatMap_cons, List.length_append,
        List.length_append, List.length_cons, Nat.succ_mul]
      omega

theorem forall_of_forall₂ {α β : Type} {p : β → Prop} {xs : List α} {ys : List β}
    (h : List.Forall₂ (fun _ y => p y) xs ys) : ∀ y ∈ ys, p y := by
  induction h with
  | nil => exact nofun
  | cons hy _ ih => exact List.forall_mem_cons.mpr ⟨hy, ih⟩

theorem mem_diagnosticsOf {items : List Item} {i : Item} (h : i ∈ diagnosticsOf items) :
    ∃ kind text, i = .diagnostic kind text := by
  obtain ⟨item, -, hfault⟩ := List.mem_filterMap.mp h
  obtain ⟨fault, -, rfl⟩ := Option.map_eq_some_iff.mp hfault
  exact ⟨_, _, rfl⟩

theorem length_diagnostics_le (items : List Item) :
    (((diagnosticsOf items).map fun i => i.record true).flatMap Record.bytes).length ≤
      items.length * (Record.headerLength + (diagnosticLimit + 1)) := by
  have hcount : ((diagnosticsOf items).map fun i => i.record true).length ≤ items.length := by
    rw [List.length_map]
    exact List.length_filterMap_le _ _
  refine Nat.le_trans (Record.length_flatMap_bytes_le fun r hr => ?_)
    (Nat.mul_le_mul_right _ hcount)
  obtain ⟨i, hi, rfl⟩ := List.mem_map.mp hr
  obtain ⟨kind, text, rfl⟩ := mem_diagnosticsOf hi
  exact Item.length_wirePayload_diagnostic kind text

/-! ## Replies -/

namespace Message

variable {β δ : Type} {setup : Setup β δ} {connection : ConnectionId} {m : Message}

/-- The reply to a request holds its items and their diagnostics, any other reply one diagnostic. -/
theorem execute_cases (m : Message) (x : Instrument β δ) :
    (m.execute setup connection x).1.kind.isReply = true ∧
      ((m.execute setup connection x).1.items =
        (executeItems setup connection m.items x).1 ++
          diagnosticsOf (executeItems setup connection m.items x).1 ∨
      ∃ kind text, (m.execute setup connection x).1.items = [.diagnostic kind text]) := by
  unfold execute
  split
  · refine ⟨?_, .inl rfl⟩
    dsimp only [toReply]
    split <;> rfl
  · refine ⟨?_, .inl rfl⟩
    dsimp only [toReply]
    split <;> rfl
  · exact ⟨rfl, .inr ⟨_, _, rfl⟩⟩

/-- The items of a payload that were carried out, with what their payloads take. -/
theorem forall₂_length_wirePayload (setup : Setup β δ) (connection : ConnectionId)
    (payload : Bytes) (x : Instrument β δ) :
    List.Forall₂ (fun i i' : Item =>
        (i'.wirePayload true).length ≤ max i.payload.length Item.replyLimit)
      (parseItems payload) (executeItems setup connection (parseItems payload) x).1 := by
  have hread : ∀ i ∈ parseItems payload, i.IsOpen ∧ i.request.TextBounded := fun i hi =>
    ⟨(received_parseItems payload i hi).1, textBounded_parseItems payload i hi⟩
  have hitems := forall₂_executeItems setup connection (parseItems payload) x
  refine ((List.forall₂_and_left _ _).mpr ⟨hread, hitems⟩).imp ?_
  rintro i i' ⟨⟨hopen, htext⟩, y, y', h⟩
  exact Item.length_wirePayload_le hopen htext h

/-- The payloads of the items that were carried out fit their length fields. -/
theorem fits_executeItems (payload : Bytes) (x : Instrument β δ) :
    ∀ i ∈ (executeItems setup connection (parseItems payload) x).1, (i.record true).Fits := by
  have hreceived : ∀ i ∈ parseItems payload, i.received.Fits := fun i hi =>
    (received_parseItems payload i hi).2
  have hreplied := (List.forall₂_and_left _ _).mpr
    ⟨hreceived, forall₂_length_wirePayload setup connection payload x⟩
  refine forall_of_forall₂ (hreplied.imp ?_)
  rintro i i' ⟨hi, hlength⟩
  exact Nat.lt_of_le_of_lt hlength (Nat.max_lt.mpr ⟨hi, by decide⟩)

theorem fits_execute {payload : Bytes} (hitems : m.items = parseItems payload)
    (x : Instrument β δ) :
    ∀ i ∈ (m.execute setup connection x).1.items, (i.record true).Fits := by
  have hdiagnostic : ∀ kind text, ((Item.diagnostic kind text).record true).Fits :=
    fun kind text => Nat.lt_of_le_of_lt (Item.length_wirePayload_diagnostic kind text) (by decide)
  intro i hi
  rcases (m.execute_cases x).2 with hreply | ⟨kind, text, hreply⟩
  · rw [hreply, List.mem_append] at hi
    rcases hi with hi | hi
    · rw [hitems] at hi
      exact fits_executeItems payload x i hi
    · obtain ⟨kind, text, rfl⟩ := mem_diagnosticsOf hi
      exact hdiagnostic kind text
  · rw [hreply, List.mem_singleton] at hi
    exact hi ▸ hdiagnostic kind text

/-- There is at most one item for four bytes of the message, and one more. -/
theorem length_execute_lt {payload : Bytes} (hitems : m.items = parseItems payload)
    (hpayload : payload.length ≤ 2 ^ 20) (x : Instrument β δ) :
    (((m.execute setup connection x).1.items.map fun i => i.record true).flatMap
      Record.bytes).length < 2 ^ 32 := by
  have hforall := forall₂_length_wirePayload setup connection payload x
  have hreceived := length_received_le payload
  have hcount := Record.headers_le ((parseItems payload).map Item.received)
  have hreplied := length_replied_le hforall
  have hdiagnostics := length_diagnostics_le
    (executeItems setup connection (parseItems payload) x).1
  rw [← hforall.length_eq] at hdiagnostics
  rw [List.length_map] at hcount
  rw [Record.headerLength] at hreceived hcount hdiagnostics
  rw [Item.replyLimit] at hreplied
  rw [diagnosticLimit] at hreplied hdiagnostics
  rcases (m.execute_cases x).2 with hreply | ⟨kind, text, hreply⟩
  · rw [hreply, hitems, List.map_append, List.flatMap_append, List.length_append]
    omega
  · rw [hreply, List.map_singleton, List.flatMap_singleton, Record.length_bytes,
      Record.headerLength]
    have := Item.length_wirePayload_diagnostic kind text
    rw [diagnosticLimit] at this
    dsimp only [Item.record]
    omega

/-- The reply to a framed message is well formed. For every message that was framed within a
mebibyte, whatever the state of the board and of the stream is, the payload of each reply item and
the items together fit their length fields, and the reply is framed, as a whole and within any limit
that its items keep, with its type and the code and the payload of every item in order. -/
theorem reply_well_formed {limit consumed : Nat} {buffer : Bytes} (hlimit : limit ≤ 2 ^ 20)
    (h : frame limit buffer = .ok (m, consumed)) (setup : Setup β δ) (connection : ConnectionId)
    (x : Instrument β δ) :
    let reply := (m.execute setup connection x).1
    (∀ i ∈ reply.items, (i.wirePayload true).length < 2 ^ 16) ∧
      reply.encodeItems.length < 2 ^ 32 ∧
      ∀ limit', reply.encodeItems.length ≤ limit' →
        ∃ m', frame limit' reply.encode = .ok (m', reply.encode.length) ∧ m'.kind = reply.kind ∧
          m'.items.map Item.received = reply.items.map fun i => ⟨i.code, i.wirePayload true⟩ := by
  intro reply
  obtain ⟨body, more, -, hbody, -, hitems, -⟩ := eq_wire_of_frame h
  have hkind : reply.kind.isReply = true := (m.execute_cases x).1
  have hfits : ∀ i ∈ reply.items, (i.record reply.kind.isReply).Fits :=
    hkind ▸ fits_execute hitems x
  have hlength : reply.encodeItems.length < 2 ^ 32 := by
    rw [encodeItems_eq, hkind]
    exact length_execute_lt hitems (Nat.le_trans hbody hlimit) x
  refine ⟨fun i hi => hkind ▸ hfits i hi, hlength, fun limit' hlimit' => ?_⟩
  refine ⟨_, frame_encode hfits hlength hlimit', rfl, ?_⟩
  rw [Record.map_received_toItem, hkind]
  rfl

/-- A diagnostic of two bytes that are no text, which are six in the reply, and an unknown item. -/
theorem lossy_reply_well_formed :
    let setup : Setup SimulatedBoard SimulatedDma :=
      ⟨SimulatedBoard.port .steady, SimulatedDma.engine, ⟨0, ⟨0⟩, ⟨0⟩, ⟨0⟩, ⟨0⟩⟩,
        .steady 1 0 Nat.one_pos, ⟨1, 1, ⟨0⟩⟩⟩
    ∃ m, frame 12 [0x51, 12, 0, 0, 0, 2, 0x80, 3, 0, 1, 0xFF, 0xFF, 0xFF, 0xFF, 1, 0, 9, 0] =
        .ok (m, 18) ∧ 12 ≤ 2 ^ 20 ∧
      let reply := (m.execute setup ⟨1⟩ (Instrument.idle .powerOn .powerOn)).1
      reply.items.map (·.fault?.isSome) = [false, true, false] ∧
        (reply.items.take 2).map (·.record true) =
          [⟨0x8002, [1, 239, 191, 189, 239, 191, 189]⟩, ⟨0xFFFF, [9]⟩] ∧
        reply.encodeItems.length = 88 ∧
        ∃ m', frame 88 reply.encode = .ok (m', reply.encode.length) ∧ m'.kind = .error ∧
          m'.items.map Item.received = reply.items.map fun i => ⟨i.code, i.wirePayload true⟩ := by
  intro setup
  have hframe : frame 12
      [0x51, 12, 0, 0, 0, 2, 0x80, 3, 0, 1, 0xFF, 0xFF, 0xFF, 0xFF, 1, 0, 9, 0] = .ok (_, 18) := rfl
  have hlimit : 12 ≤ 2 ^ 20 := by decide
  refine ⟨_, hframe, hlimit, ?_⟩
  obtain ⟨-, -, hreply⟩ := reply_well_formed hlimit hframe setup ⟨1⟩
    (Instrument.idle .powerOn .powerOn)
  obtain ⟨m', hreframe, hkind, hitems⟩ := hreply 88 (by decide +kernel)
  refine ⟨by decide +kernel, by decide +kernel, by decide +kernel, m', hreframe, ?_, hitems⟩
  rw [hkind]
  decide +kernel

end Message

end DaqServer
