import DaqServer.Message.Framing
import Mathlib.Algebra.Group.Nat.Defs
import Mathlib.Data.List.Forall2

/-!
# The grammar of item bytes

The items of a message are complete records, one after the other, and a residue at whose front there
is no complete record. `Decomposes` says so of a byte string without the reader, `Record.split`
finds the parts. Main statement: there is exactly one decomposition, every record is read on its own
and in its order, and a residue that is not empty is kept as one failed item with its offset.

Everything rests on `take?_append` and `eq_of_take?`: a record is taken exactly where one stands.
-/

namespace DaqServer

namespace Record

def bytes (r : Record) : Bytes := Item.frame r.code r.data

def Fits (r : Record) : Prop := r.data.length < 2 ^ 16

def headerLength : Nat := 4

@[simp] theorem length_bytes (r : Record) : r.bytes.length = headerLength + r.data.length := by
  simp [bytes, Item.frame, Bytes.ofUInt16, headerLength]
  omega

/-- Bytes at whose front there is no complete record. -/
inductive IsResidue : Bytes → Prop
  /-- There is nothing, or not a whole header. -/
  | short {residue : Bytes} : residue.length < headerLength → IsResidue residue
  /-- A header announces more bytes than follow. -/
  | cut {code length : UInt16} {body : Bytes} :
      body.length < length.toNat → IsResidue (Bytes.ofUInt16 code ++ Bytes.ofUInt16 length ++ body)

/-! ## One record -/

theorem take?_header (code length : UInt16) (body : Bytes) :
    take? (Bytes.ofUInt16 code ++ Bytes.ofUInt16 length ++ body) =
      if body.length < length.toNat then none
      else some (⟨code, body.take length.toNat⟩, body.drop length.toNat) := by
  obtain ⟨c0, c1, hcode, rfl⟩ := Bytes.exists_ofUInt16_eq code
  obtain ⟨l0, l1, hlength, rfl⟩ := Bytes.exists_ofUInt16_eq length
  have hcut (n : Nat) : min n body.length < n ↔ body.length < n := by omega
  rw [hcode, hlength]
  simp [take?, hcut]

theorem take?_append {r : Record} (h : r.Fits) (rest : Bytes) :
    take? (r.bytes ++ rest) = some (r, rest) := by
  have hlength : (UInt16.ofNat r.data.length).toNat = r.data.length := by
    rw [UInt16.toNat_ofNat', Nat.mod_eq_of_lt h]
  rw [bytes, Item.frame, List.append_assoc, take?_header, hlength, if_neg (by simp),
    List.take_left, List.drop_left]

theorem eq_of_take? {payload rest : Bytes} {r : Record} (h : take? payload = some (r, rest)) :
    payload = r.bytes ++ rest ∧ r.Fits := by
  unfold take? at h
  split at h
  · rename_i c0 c1 l0 l1 body
    simp only [Option.ite_none_left_eq_some, Option.some.injEq, Prod.mk.injEq, Nat.not_lt] at h
    obtain ⟨hlong, rfl, rfl⟩ := h
    have hlength : (body.take (Bytes.toUInt16 l0 l1).toNat).length =
        (Bytes.toUInt16 l0 l1).toNat := Nat.le_antisymm (List.length_take_le _ _) hlong
    refine ⟨?_, ?_⟩
    · rw [bytes, Item.frame, hlength, UInt16.ofNat_toNat, Bytes.ofUInt16_toUInt16,
        Bytes.ofUInt16_toUInt16]
      simp
    · rw [Fits, hlength]
      exact UInt16.toNat_lt _
  · cases h

/-- No record is taken exactly from the front of a residue. -/
theorem take?_eq_none_iff {payload : Bytes} : take? payload = none ↔ IsResidue payload := by
  constructor
  · intro h
    unfold take? at h
    split at h
    · rename_i c0 c1 l0 l1 body
      have hcut :
          (body.take (Bytes.toUInt16 l0 l1).toNat).length < (Bytes.toUInt16 l0 l1).toNat := by
        simpa using h
      have hbody : body.length < (Bytes.toUInt16 l0 l1).toNat := by
        rw [List.length_take] at hcut
        omega
      have hresidue : IsResidue (Bytes.ofUInt16 (Bytes.toUInt16 c0 c1) ++
          Bytes.ofUInt16 (Bytes.toUInt16 l0 l1) ++ body) := .cut hbody
      rwa [Bytes.ofUInt16_toUInt16, Bytes.ofUInt16_toUInt16] at hresidue
    · rename_i hheader
      refine .short (Nat.lt_of_not_le fun hlong => ?_)
      match payload, hlong with
      | c0 :: c1 :: l0 :: l1 :: body, _ => exact hheader c0 c1 l0 l1 body rfl
  · intro h
    cases h with
    | short hshort =>
        match payload, hshort with
        | [], _ | [_], _ | [_, _], _ | [_, _, _], _ => rfl
    | cut hcut => rw [take?_header, if_pos hcut]

/-! ## All records -/

/-- A byte string is taken apart into complete records and a residue. -/
structure Decomposes (payload : Bytes) (records : List Record) (residue : Bytes) : Prop where
  bytes_eq : payload = records.flatMap bytes ++ residue
  fits : ∀ r ∈ records, r.Fits
  residue : IsResidue residue

theorem split_of_none {payload : Bytes} (h : take? payload = none) :
    split payload = ([], payload) := by
  rw [split]
  split <;> simp_all

theorem split_of_some {payload rest : Bytes} {r : Record} (h : take? payload = some (r, rest)) :
    split payload = (r :: (split rest).1, (split rest).2) := by
  rw [split]
  split <;> simp_all

theorem decomposes_split (payload : Bytes) :
    Decomposes payload (split payload).1 (split payload).2 := by
  induction hn : payload.length using Nat.strongRecOn generalizing payload with
  | ind n ih =>
      cases htake : take? payload with
      | none =>
          rw [split_of_none htake]
          exact ⟨rfl, nofun, take?_eq_none_iff.mp htake⟩
      | some taken =>
          obtain ⟨r, rest⟩ := taken
          obtain ⟨hbytes, hfits⟩ := eq_of_take? htake
          have hrest := ih rest.length (hn ▸ length_lt_of_take? htake) rest rfl
          rw [split_of_some htake]
          refine ⟨?_, List.forall_mem_cons.mpr ⟨hfits, hrest.fits⟩, hrest.residue⟩
          rw [List.flatMap_cons, List.append_assoc, ← hrest.bytes_eq, hbytes]

/-- There is no other decomposition than the one that the reader finds. -/
theorem Decomposes.split_eq {payload residue : Bytes} {records : List Record}
    (h : Decomposes payload records residue) : split payload = (records, residue) := by
  induction records generalizing payload with
  | nil =>
      rw [h.bytes_eq]
      exact split_of_none (take?_eq_none_iff.mpr h.residue)
  | cons r records ih =>
      obtain ⟨hfits, hrest⟩ := List.forall_mem_cons.mp h.fits
      have hsplit := ih ⟨rfl, hrest, h.residue⟩
      rw [h.bytes_eq, List.flatMap_cons, List.append_assoc, split_of_some (take?_append hfits _),
        hsplit]

end Record

open Record (Decomposes)

/-! ## Items -/

/-- A record is read as an item: as what its code and its data make, or as a failed item that keeps
code, data and error. -/
inductive Record.ReadAs (r : Record) : Item → Prop
  | accepted {item : Item} : Catalogue.construct r.code r.data = .ok item → ReadAs r item
  | refused {e : ItemError} :
      Catalogue.construct r.code r.data = .error e → ReadAs r (.rejected r.code r.data e)

theorem Record.readAs_toItem (r : Record) : r.ReadAs r.toItem := by
  rw [toItem, Catalogue.constructOrReject]
  split
  · exact .accepted ‹_›
  · exact .refused ‹_›

/-- What stands for a residue at an offset. -/
inductive Residual (offset : Nat) : Bytes → List Item → Prop
  | empty : Residual offset [] []
  /-- Without a whole header all bytes are kept, under code zero. -/
  | headless {residue : Bytes} : residue ≠ [] → residue.length < Record.headerLength →
      Residual offset residue [.rejected 0 residue (.truncated offset)]
  /-- Behind a header all bytes are kept, under its code. -/
  | cut {code length : UInt16} {body : Bytes} : body.length < length.toNat →
      Residual offset (Bytes.ofUInt16 code ++ Bytes.ofUInt16 length ++ body)
        [.rejected code body (.truncated offset)]

theorem residual_residueItems (offset : Nat) {residue : Bytes} (h : Record.IsResidue residue) :
    Residual offset residue (residueItems offset residue) := by
  cases h with
  | short hshort =>
      match residue, hshort with
      | [], _ => exact .empty
      | [_], hshort | [_, _], hshort | [_, _, _], hshort => exact .headless nofun hshort
  | @cut code length body hcut =>
      have hitems : residueItems offset (Bytes.ofUInt16 code ++ Bytes.ofUInt16 length ++ body) =
          [.rejected code body (.truncated offset)] := by
        obtain ⟨c0, c1, hcode, rfl⟩ := Bytes.exists_ofUInt16_eq code
        obtain ⟨l0, l1, hlength, -⟩ := Bytes.exists_ofUInt16_eq length
        rw [hcode, hlength]
        rfl
      rw [hitems]
      exact .cut hcut

theorem Record.Decomposes.parseItems_eq {payload residue : Bytes} {records : List Record}
    (h : Decomposes payload records residue) :
    parseItems payload =
      records.map Record.toItem ++ residueItems (records.flatMap Record.bytes).length residue := by
  have hoffset : payload.length - residue.length = (records.flatMap Record.bytes).length := by
    rw [h.bytes_eq, List.length_append, Nat.add_sub_cancel]
  rw [parseItems, h.split_eq]
  dsimp only
  rw [hoffset]

/-- The reader of items accepts exactly the grammar of item bytes. A byte string is taken apart in
one way only. Its records are read in order, each by its own code and data, and what is left over is
kept as one failed item that names the offset of the residue, if anything is left over. -/
theorem parseItems_grammar (payload : Bytes) :
    ∃ records residue, Decomposes payload records residue ∧
      (∀ records' residue', Decomposes payload records' residue' →
        records' = records ∧ residue' = residue) ∧
      ∃ items placeholders, parseItems payload = items ++ placeholders ∧
        List.Forall₂ Record.ReadAs records items ∧
        Residual (records.flatMap Record.bytes).length residue placeholders := by
  have hsplit := Record.decomposes_split payload
  refine ⟨_, _, hsplit, fun records' residue' h => ?_, _, _, hsplit.parseItems_eq, ?_,
    residual_residueItems _ hsplit.residue⟩
  · exact Prod.mk.inj (h.split_eq.symm.trans rfl)
  · rw [List.forall₂_map_right_iff, List.forall₂_same]
    exact fun r _ => r.readAs_toItem

/-- An unknown code, a request, and an item that runs past the end. -/
example :
    let payload : Bytes := [0x77, 0x77, 1, 0, 9, 2, 0, 0, 0, 2, 0, 4, 0, 0xFF]
    (parseItems payload).map (fun i => (i.code, i.payload, i.fault?.map (·.message))) =
      [(0x7777, [9], some "Unknown item id 0x7777"), (2, [], none),
        (2, [0xFF], some "Truncated item at payload offset 9")] := by
  decide +kernel

end DaqServer
