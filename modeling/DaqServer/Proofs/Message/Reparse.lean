import DaqServer.Proofs.Item.Catalogue
import DaqServer.Proofs.Message.Grammar
import DaqServer.Proofs.Message.Wire

/-!
# Messages written and read again

A message whose items fit their length fields is framed as what was written: its type, and for every
item in order what its code and the written payload make (`frame_encode`). Items that were just read
are written with the payload that they came with. Main statement: a message that was framed, written
and framed again keeps its type and the codes and payloads of its items; unless an item stands for
bytes that were no item, the bytes are the same up to the closing byte, and the items are the same.
-/

namespace DaqServer

namespace Item

def record (i : Item) (asReply : Bool) : Record := ⟨i.code, i.wirePayload asReply⟩

def received (i : Item) : Record := ⟨i.code, i.payload⟩

def IsOpen (i : Item) : Prop := ∀ result, i.status ≠ .done result

theorem IsOpen.wirePayload_eq {i : Item} (h : i.IsOpen) (asReply : Bool) :
    i.wirePayload asReply = i.payload := by
  rw [wirePayload]
  split
  · rename_i result hstatus
    exact absurd hstatus (h result)
  · rfl

theorem IsOpen.record_eq {i : Item} (h : i.IsOpen) (asReply : Bool) :
    i.record asReply = i.received := by
  rw [record, h.wirePayload_eq, received]

/-- The item stands for bytes that were no complete item. -/
def IsTruncation (i : Item) : Prop :=
  ∃ code payload offset, i = .rejected code payload (.truncated offset)

end Item

/-- An item is read with the code and the data of its record, and is not carried out. -/
theorem Record.ReadAs.received_eq {r : Record} {item : Item} (h : r.ReadAs item) :
    item.IsOpen ∧ item.received = r := by
  cases h with
  | accepted h =>
      obtain ⟨id, request, hcode, -, -, rfl⟩ := Catalogue.construct_cases h
      refine ⟨nofun, ?_⟩
      rw [Item.received, Item.ofRequest, hcode]
  | refused => exact ⟨nofun, rfl⟩

theorem Record.map_received_toItem (records : List Record) :
    (records.map toItem).map Item.received = records := by
  rw [List.map_map]
  exact List.map_id'' (fun r => r.readAs_toItem.received_eq.2) records

/-- Records alone are read one by one. -/
theorem parseItems_records {records : List Record} (h : ∀ r ∈ records, r.Fits) :
    parseItems (records.flatMap Record.bytes) = records.map Record.toItem := by
  have hdecomposes : Record.Decomposes (records.flatMap Record.bytes) records [] :=
    ⟨(List.append_nil _).symm, h, .short (by decide)⟩
  rw [hdecomposes.parseItems_eq, residueItems, List.append_nil]

namespace Message

theorem encodeItems_eq (m : Message) :
    m.encodeItems = (m.items.map fun i => i.record m.kind.isReply).flatMap Record.bytes := by
  rw [encodeItems, List.flatMap_map]
  rfl

/-- A message whose length fields are exact is framed as what was written. -/
theorem frame_encode {m : Message} {limit : Nat}
    (hfits : ∀ i ∈ m.items, (i.record m.kind.isReply).Fits)
    (hlength : m.encodeItems.length < 2 ^ 32) (hlimit : m.encodeItems.length ≤ limit) :
    frame limit m.encode =
      .ok (⟨m.kind, (m.items.map fun i => i.record m.kind.isReply).map Record.toItem, 0⟩,
        m.encode.length) := by
  have hitems : parseItems m.encodeItems =
      (m.items.map fun i => i.record m.kind.isReply).map Record.toItem := by
    rw [encodeItems_eq]
    refine parseItems_records fun r hr => ?_
    obtain ⟨i, hi, rfl⟩ := List.mem_map.mp hr
    exact hfits i hi
  have hframe : frame limit (wire m.kind.tag m.encodeItems 0 ++ []) = _ :=
    frame_wire hlimit hlength []
  rw [List.append_nil, ← encode_eq_wire hlength, hitems] at hframe
  rw [hframe, encode_eq_wire hlength, length_wire]

end Message

/-! ## Items that were just read -/

theorem mem_residual {offset : Nat} {residue : Bytes} {items : List Item}
    (h : Residual offset residue items) :
    ∀ i ∈ items, ∃ code data, i = .rejected code data (.truncated offset) ∧
      data.length < 2 ^ 16 := by
  cases h with
  | empty => exact nofun
  | headless _ hshort =>
      rw [List.forall_mem_singleton]
      exact ⟨_, _, rfl, Nat.lt_trans hshort (by decide)⟩
  | @cut code length body hcut =>
      rw [List.forall_mem_singleton]
      exact ⟨_, _, rfl, Nat.lt_trans hcut length.toNat_lt⟩

theorem residue_eq_nil {offset : Nat} {residue : Bytes} {items : List Item}
    (h : Residual offset residue items) (hitems : ∀ i ∈ items, ¬ i.IsTruncation) :
    residue = [] := by
  cases h with
  | empty => rfl
  | headless | cut => exact absurd ⟨_, _, _, rfl⟩ (hitems _ (List.mem_singleton_self _))

/-- Items that were just read are not carried out, and their payloads fit their length fields. -/
theorem received_parseItems (payload : Bytes) :
    ∀ i ∈ parseItems payload, i.IsOpen ∧ i.received.Fits := by
  have hsplit := Record.decomposes_split payload
  intro i hi
  rw [hsplit.parseItems_eq, List.mem_append] at hi
  rcases hi with hi | hi
  · obtain ⟨r, hr, rfl⟩ := List.mem_map.mp hi
    obtain ⟨hopen, hreceived⟩ := r.readAs_toItem.received_eq
    exact ⟨hopen, hreceived.symm ▸ hsplit.fits r hr⟩
  · obtain ⟨code, data, rfl, hdata⟩ := mem_residual (residual_residueItems _ hsplit.residue) i hi
    exact ⟨nofun, hdata⟩

/-- Without an item that stands for bytes that were no item, the bytes are those of the records that
the items came from. -/
theorem parseItems_of_no_truncation {payload : Bytes}
    (h : ∀ i ∈ parseItems payload, ¬ i.IsTruncation) :
    payload = ((parseItems payload).map Item.received).flatMap Record.bytes ∧
      parseItems payload = ((parseItems payload).map Item.received).map Record.toItem := by
  have hsplit := Record.decomposes_split payload
  have hitems := hsplit.parseItems_eq
  rw [hitems] at h
  have hresidue := residue_eq_nil (residual_residueItems _ hsplit.residue)
    fun i hi => h i (List.mem_append_right _ hi)
  have hbytes := hsplit.bytes_eq
  rw [hresidue, List.append_nil] at hbytes
  rw [hresidue, residueItems, List.append_nil] at hitems
  rw [hitems, Record.map_received_toItem]
  exact ⟨hbytes, rfl⟩

namespace Message

/-- Reading, writing and reading again is stable. Whatever was framed is written as a message that
is framed as a whole, within any limit that its items keep, with the same type, the same codes and
payloads in the same order, and the closing byte zero. Unless an item stands for bytes that were no
item, the bytes are those it was framed from up to the closing byte, and the items are the same in
every respect. -/
theorem reparse_stable {limit consumed : Nat} {buffer : Bytes} {m : Message}
    (h : frame limit buffer = .ok (m, consumed)) (hlength : m.encodeItems.length < 2 ^ 32)
    {limit' : Nat} (hlimit : m.encodeItems.length ≤ limit') :
    ∃ m', frame limit' m.encode = .ok (m', m.encode.length) ∧ m'.kind = m.kind ∧
      m'.items.map Item.received = m.items.map Item.received ∧ m'.trailer = 0 ∧
      ((∀ i ∈ m.items, ¬ i.IsTruncation) →
        m.encode = buffer.take (consumed - 1) ++ [0] ∧ m'.items = m.items) := by
  obtain ⟨body, more, rfl, -, hbody, hitems, rfl⟩ := eq_wire_of_frame h
  have hreceived : ∀ i ∈ m.items, i.IsOpen ∧ i.received.Fits := hitems ▸ received_parseItems body
  have hrecords : (m.items.map fun i => i.record m.kind.isReply) = m.items.map Item.received :=
    List.map_congr_left fun i hi => (hreceived i hi).1.record_eq _
  have hframe := frame_encode
    (fun i hi => (hreceived i hi).1.record_eq _ ▸ (hreceived i hi).2) hlength hlimit
  rw [hrecords] at hframe
  refine ⟨_, hframe, rfl, Record.map_received_toItem _, rfl, fun htruncation => ?_⟩
  rw [hitems] at htruncation
  obtain ⟨hbytes, hsame⟩ := parseItems_of_no_truncation htruncation
  rw [← hitems] at hbytes hsame
  refine ⟨?_, hsame.symm⟩
  rw [encode_eq_wire hlength, encodeItems_eq, hrecords, ← hbytes, Nat.add_sub_cancel, take_wire]

/-- A reply with an item of the wrong length and one that is in order, and one byte more. -/
theorem stable_reply_with_bad_item :
    let buffer : Bytes := [0x52, 10, 0, 0, 0, 1, 0x10, 2, 0, 8, 8, 2, 0, 0, 0, 7, 0x43]
    ∃ m m', frame 10 buffer = .ok (m, 16) ∧ m.encodeItems.length < 2 ^ 32 ∧
      m.items.map Item.isFailed = [true, false] ∧ (∀ i ∈ m.items, ¬ i.IsTruncation) ∧
      frame 10 m.encode = .ok (m', m.encode.length) ∧ m.encode = buffer.take 15 ++ [0] ∧
      m'.items = m.items := by
  intro buffer
  let m : Message := ⟨.response, parseItems [1, 0x10, 2, 0, 8, 8, 2, 0, 0, 0], 7⟩
  have hframe : frame 10 buffer = .ok (m, 16) := rfl
  have hlength : m.encodeItems.length = 10 := by decide +kernel
  have hkinds : ∀ i ∈ m.items, i.fault?.map (·.kind) ≠ some .framing := by decide +kernel
  have htruncation : ∀ i ∈ m.items, ¬ i.IsTruncation := by
    rintro i hi ⟨code, payload, offset, rfl⟩
    exact hkinds _ hi rfl
  have hfits : m.encodeItems.length < 2 ^ 32 := by
    rw [hlength]
    decide
  obtain ⟨m', hreframe, -, -, -, hsame⟩ := reparse_stable hframe hfits (Nat.le_of_eq hlength)
  obtain ⟨hbytes, hitems⟩ := hsame htruncation
  exact ⟨m, m', hframe, hfits, by decide +kernel, htruncation, hreframe, hbytes, hitems⟩

end Message

end DaqServer
