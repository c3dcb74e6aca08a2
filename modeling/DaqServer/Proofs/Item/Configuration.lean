import DaqServer.Proofs.Item.Failure
import DaqServer.Proofs.Item.Turns

/-!
# Settings are read back

Items that configure the board write registers that are only stored, and those that reply what is
set read it from there. `Item.places` is what a payload has for which register; `Request.stores` are
the writes that are made of it. Main statement: a setting is echoed byte for byte, changes nothing
else, and is what the reading form shows after other registers have been set
(`Item.settings_read_back`).
-/

namespace DaqServer

open Register

/-! ### Blocks of bytes -/

namespace Bytes

/-- Bytes are put together again from their blocks. -/
theorem flatMap_blocks (bytes : Bytes) (width n : Nat) :
    ((List.finRange n).flatMap fun k => (bytes.drop (width * k.val)).take width) =
      bytes.take (width * n) := by
  induction n with
  | zero => rfl
  | succ n ih =>
      rw [List.finRange_succ_last, List.flatMap_append, List.flatMap_map, List.flatMap_singleton,
        Fin.val_last, Nat.mul_succ, List.take_add, ← ih]
      rfl

/-- A block is found again in what blocks of one width are put together to. -/
theorem take_drop_flatMap {ι : Type} {f : ι → Bytes} {width : Nat}
    (hwidth : ∀ k, (f k).length = width) {ks : List ι} {n : Nat} (hn : n < ks.length) :
    ((ks.flatMap f).drop (width * n)).take width = f ks[n] := by
  induction ks generalizing n with
  | nil => exact absurd hn (Nat.not_lt_zero n)
  | cons k ks ih =>
      rw [List.flatMap_cons]
      cases n with
      | zero => rw [Nat.mul_zero, List.drop_zero, List.take_left' (hwidth k)]; rfl
      | succ n =>
          rw [Nat.mul_succ, Nat.add_comm, ← List.drop_drop, List.drop_left' (hwidth k),
            ih (Nat.lt_of_succ_lt_succ hn)]
          rfl

end Bytes

/-! ### What the board does -/

namespace Register

theorem isStored_group (group : Fin adcGroups) :
    IsStored (rangeOf group) ∧ IsStored (scaleOf group) ∧ IsStored (offsetOf group) := by
  revert group
  decide

theorem stored_dacRange (channel : Fin dacChannels) (value : UInt32) :
    Takes (dacRange (UInt8.ofNat channel)) value ∧ IsStored (dacRange (UInt8.ofNat channel)) := by
  have hchannel : ∀ channel : Fin dacChannels,
      (IsRegister (dacRange (UInt8.ofNat channel)) ∧ dacRange (UInt8.ofNat channel) ∉ readOnly ∧
        ¬ dacRange (UInt8.ofNat channel) < 0x40) ∧
      IsStored (dacRange (UInt8.ofNat channel)) := by decide
  exact ⟨takes_of_wide value (hchannel channel).1, (hchannel channel).2⟩

end Register

namespace Port

/-- What is only written is a row of one write. -/
theorem write_eq_row {σ : Type} (port : Port σ) (offset : UInt8) (value : UInt32) :
    port.write offset value = port.writeAll [(offset, value)] >>= fun _ => pure () := by
  change _ = (port.write offset value >>= fun _ => pure ()) >>= fun _ => pure ()
  rw [bind_pure_unit, bind_pure_unit]

end Port

namespace SimulatedBoard

variable {clock : Clock} {offset : UInt8}

theorem read_of_stored (h : IsRegister offset ∧ IsStored offset) (b : SimulatedBoard) :
    (port clock).read offset b = (.ok (b.peek offset), b) :=
  read_of_not_live h.1 h.2.not_live b

theorem readRanges_apply (b : SimulatedBoard) :
    (port clock).readRanges b = (.ok (Vector.ofFn fun g => b.peek (Register.rangeOf g)), b) :=
  ofFnM_of_ok fun g => read_of_stored ⟨(takes_rangeOf g 0).1, (isStored_group g).1⟩ b

theorem readCalibration_apply (group : Fin adcGroups) (b : SimulatedBoard) :
    (port clock).readCalibration group b =
      (.ok ⟨b.peek (scaleOf group), b.peek (offsetOf group)⟩, b) := by
  obtain ⟨-, hscale, hoffset⟩ := isStored_group group
  rw [Port.readCalibration, bind_of_ok (read_of_stored ⟨(takes_scaleOf group 0).1, hscale⟩ b),
    bind_of_ok (read_of_stored ⟨(takes_offsetOf group 0).1, hoffset⟩ b)]
  rfl

theorem readScanSetup_apply (b : SimulatedBoard) :
    (port clock).readScanSetup b = (.ok ⟨(b.peek startChannel).toUInt8,
      (b.peek endChannel).toUInt8, (b.peek oversamples).toUInt8⟩, b) := by
  rw [Port.readScanSetup, bind_of_ok (read_of_stored (by decide) b),
    bind_of_ok (read_of_stored (by decide) b), bind_of_ok (read_of_stored (by decide) b)]
  rfl

end SimulatedBoard

/-! ### What items set -/

namespace ItemId

def configuring : List ItemId := [dacRange, adcRange, adcRanges, adcCalibration, scanSetup]

/-- The length of the payloads of a kind that set something. -/
def settingLength? : ItemId → Option Nat
  | dacRange => some 5
  | adcRange => some 5
  | adcRanges => some 32
  | adcCalibration => some 9
  | scanSetup => some 3
  | _ => none

theorem mem_configuring_of_settingLength {id : ItemId} {n : Nat}
    (h : id.settingLength? = some n) : id ∈ configuring := by
  cases id <;> first | decide | cases h

end ItemId

namespace Item

def IsConfiguring (i : Item) : Prop :=
  i.IsRead ∧ ∃ id ∈ ItemId.configuring, i.id? = some id

def IsSetting (i : Item) : Prop :=
  i.IsRead ∧ ∃ id, i.id? = some id ∧ id.settingLength? = some i.payload.length

/-- The registers that an item sets, each with the bytes that the payload has for it. -/
def places (i : Item) : List (UInt8 × Bytes) :=
  match i.id?, i.payload with
  | some .dacRange, channel :: value => [(Register.dacRange channel, value)]
  | some .adcRange, group :: value => [(Register.adcRange group, value)]
  | some .adcRanges, first :: rest =>
      (List.finRange adcGroups).map fun g => (rangeOf g, ((first :: rest).drop (4 * g)).take 4)
  | some .adcCalibration, group :: first :: rest =>
      [(calibrationScale group, (first :: rest).take 4),
        (calibrationOffset group, (first :: rest).drop 4)]
  | some .scanSetup, [first, last, oversample] =>
      [(startChannel, [first]), (endChannel, [last]), (oversamples, [oversample])]
  | _, _ => []

theorem places_adcRanges (first : UInt8) (rest : Bytes) (r : Request) :
    (ofRequest .adcRanges (first :: rest) r).places =
      (List.finRange adcGroups).map fun g =>
        (rangeOf g, ((first :: rest).drop (4 * g)).take 4) := rfl

def addresses (i : Item) : List UInt8 := i.places.map Prod.fst

/-- The kind and the payload of the item that reads what an item sets. There is none for the ranges
of DAC channels. -/
def readForm? (i : Item) : Option (ItemId × Bytes) :=
  match i.id? with
  | some .adcRange => some (.adcRanges, [])
  | some .adcRanges => some (.adcRanges, [])
  | some .adcCalibration => some (.adcCalibration, i.payload.take 1)
  | some .scanSetup => some (.scanSetup, [])
  | _ => none

/-- What a reply to the reading form has of an item, spelt as the item was: the range of one group
stands among those of all groups, anything else stands alone. -/
def shownIn (i : Item) (reply : Bytes) : Bytes :=
  match i.id?, i.payload with
  | some .adcRange, group :: _ => group :: (reply.drop (4 * group.toNat)).take 4
  | _, _ => reply

end Item

namespace Request

/-- The writes of a request, in their order. -/
def stores : Request → List (UInt8 × UInt32)
  | dacRange channel value => [(Register.dacRange (UInt8.ofNat channel), value)]
  | adcRange group value => [(rangeOf group, value)]
  | r => r.series

theorem stores_adcRanges (ranges : Vector UInt32 adcGroups) :
    (adcRanges (some ranges)).stores =
      (List.finRange adcGroups).map fun g => (rangeOf g, ranges.get g) := rfl

/-- What is replied to a request that leaves a board behind. -/
def replyOn (b : SimulatedBoard) : Request → Bytes
  | dacRange channel value => UInt8.ofNat channel :: Bytes.ofUInt32 value
  | adcRange group value => UInt8.ofNat group :: Bytes.ofUInt32 value
  | adcRanges _ => (List.finRange adcGroups).flatMap fun g => Bytes.ofUInt32 (b.peek (rangeOf g))
  | calibration group _ =>
      UInt8.ofNat group ::
        (Bytes.ofUInt32 (b.peek (scaleOf group)) ++ Bytes.ofUInt32 (b.peek (offsetOf group)))
  | scanSetup _ =>
      [(b.peek startChannel).toUInt8, (b.peek endChannel).toUInt8, (b.peek oversamples).toUInt8]
  | _ => []

end Request

namespace Catalogue

open Bytes Request

variable {δ : Type} {id : ItemId} {payload : Bytes} {r : Request}

/-- What is set is only stored. -/
theorem stored_of_mem_stores (hasks : Asks id payload r) (hid : id ∈ ItemId.configuring)
    {store : UInt8 × UInt32} (h : store ∈ r.stores) :
    Takes store.1 store.2 ∧ IsStored store.1 := by
  cases hasks with
  | dacRange channel _ =>
      obtain rfl := List.mem_singleton.mp h
      exact stored_dacRange channel _
  | adcRange group _ =>
      obtain rfl := List.mem_singleton.mp h
      exact ⟨takes_rangeOf group _, (isStored_group group).1⟩
  | readRanges | readCalibration | readScanSetup => cases h
  | writeRanges =>
      refine ⟨takes_of_mem_series (r := .adcRanges (some _)) h, ?_⟩
      obtain ⟨g, -, rfl⟩ := List.mem_map.mp h
      exact (isStored_group g).1
  | writeCalibration group =>
      refine ⟨takes_of_mem_series (r := .calibration _ (some _)) h, ?_⟩
      rcases List.mem_pair.mp h with rfl | rfl
      · exact (isStored_group group).2.1
      · exact (isStored_group group).2.2
  | writeScanSetup =>
      refine ⟨takes_of_mem_series (r := .scanSetup (some _)) h, ?_⟩
      have hall : ∀ offset ∈ [startChannel, endChannel, oversamples], IsStored offset := by
        rw [List.forall_mem_cons, List.forall_mem_cons, List.forall_mem_singleton]
        decide
      exact hall _ (List.mem_map_of_mem (f := Prod.fst) h)
  | _ => exact absurd hid (by decide)

theorem nodup_stores (hasks : Asks id payload r) (hid : id ∈ ItemId.configuring) :
    (r.stores.map Prod.fst).Nodup := by
  cases hasks with
  | dacRange | adcRange => exact List.nodup_singleton _
  | readRanges | readCalibration | readScanSetup => exact List.nodup_nil
  | writeRanges =>
      have hgroups : ((List.finRange adcGroups).map rangeOf).Nodup := by decide
      rw [stores_adcRanges, List.map_map]
      exact hgroups
  | writeCalibration group =>
      have hgroup : ∀ g : Fin adcGroups, [scaleOf g, offsetOf g].Nodup := by decide
      exact hgroup group
  | writeScanSetup =>
      have hregisters : [startChannel, endChannel, oversamples].Nodup := by decide
      exact hregisters
  | _ => exact absurd hid (by decide)

theorem map_places (hasks : Asks id payload r) (hid : id ∈ ItemId.configuring) :
    (Item.ofRequest id payload r).places.map (fun place => (place.1, toUInt32 place.2)) =
      r.stores := by
  cases hasks with
  | dacRange channel h =>
      change [(_, _)] = [(_, _)]
      rw [h.toUInt32_eq]
  | adcRange group h =>
      change [(_, _)] = [(_, _)]
      rw [h.toUInt32_eq]
      rfl
  | readRanges | readCalibration | readScanSetup => rfl
  | @writeRanges _ hlength ranges h =>
      obtain ⟨first, rest, rfl⟩ := List.exists_cons_of_length_eq_add_one hlength
      rw [stores_adcRanges, Item.places_adcRanges, List.map_map]
      refine List.map_congr_left fun g _ => ?_
      rw [Function.comp_apply, (h g).toUInt32_eq]
      rfl
  | @writeCalibration group scale offset c hlength hscale hoffset =>
      obtain ⟨first, rest, rfl⟩ := List.exists_cons_of_length_eq_add_one hlength
      change [(_, toUInt32 ((first :: rest ++ offset).take 4)),
        (_, toUInt32 ((first :: rest ++ offset).drop 4))] = [(_, _), (_, _)]
      rw [List.take_left' hlength, List.drop_left' hlength, hscale.toUInt32_eq,
        hoffset.toUInt32_eq]
      rfl
  | writeScanSetup first last oversample =>
      change [(_, toUInt32 [first]), (_, toUInt32 [last]), (_, toUInt32 [oversample])] = _
      rw [toUInt32_singleton, toUInt32_singleton, toUInt32_singleton]
      rfl
  | _ => exact absurd hid (by decide)

/-- Where a board holds what a setting spells, the reply repeats the setting. -/
theorem replyOn_eq (hasks : Asks id payload r)
    (hlength : id.settingLength? = some payload.length) {b : SimulatedBoard}
    (hplaces : ∀ place ∈ (Item.ofRequest id payload r).places,
      b.peek place.1 = toUInt32 place.2) : r.replyOn b = payload := by
  have hid := ItemId.mem_configuring_of_settingLength hlength
  -- The registers hold the words that the request was read with.
  have hstores : ∀ store ∈ r.stores, b.peek store.1 = store.2 := by
    rw [← map_places hasks hid]
    exact List.forall_mem_map.mpr hplaces
  cases hasks with
  | dacRange channel h | adcRange channel h =>
      rw [replyOn, h.ofUInt32_eq (Nat.succ_inj.mp (Option.some_inj.mp hlength)).symm]
  | readRanges | readCalibration | readScanSetup => cases hlength
  | @writeRanges _ hall ranges h =>
      have hblock (g : Fin adcGroups) :
          ofUInt32 (b.peek (rangeOf g)) = (payload.drop (4 * g.val)).take 4 := by
        have hgroup : g.val < 8 := g.isLt
        rw [hstores (rangeOf g, ranges.get g) (List.mem_map_of_mem (List.mem_finRange g))]
        refine (h g).ofUInt32_eq ?_
        rw [List.length_take, List.length_drop, hall]
        omega
      -- The words of all groups are the whole payload again.
      rw [replyOn, List.flatMap_congr fun g _ => hblock g, flatMap_blocks]
      exact List.take_of_length_le (Nat.le_of_eq hall)
  | @writeCalibration group scale offset c hfour hscale hoffset =>
      have hoffsetlength : offset.length = 4 := by
        have hnine : 9 = (scale ++ offset).length + 1 := Option.some_inj.mp hlength
        rw [List.length_append, hfour] at hnine
        omega
      have hstored : b.peek (scaleOf group) = c.scale ∧ b.peek (offsetOf group) = c.offset :=
        ⟨hstores (_, _) List.mem_cons_self,
          hstores (_, _) (List.mem_cons_of_mem _ List.mem_cons_self)⟩
      rw [replyOn, hstored.1, hstored.2, hscale.ofUInt32_eq hfour,
        hoffset.ofUInt32_eq hoffsetlength]
  | writeScanSetup first last oversample =>
      have hstored : b.peek startChannel = first.toUInt32 ∧ b.peek endChannel = last.toUInt32 ∧
          b.peek oversamples = oversample.toUInt32 :=
        ⟨hstores (_, _) List.mem_cons_self,
          hstores (_, _) (List.mem_cons_of_mem _ List.mem_cons_self),
          hstores (_, _) (List.mem_cons_of_mem _ (List.mem_cons_of_mem _ List.mem_cons_self))⟩
      rw [replyOn, hstored.1, hstored.2.1, hstored.2.2, UInt8.toUInt8_toUInt32,
        UInt8.toUInt8_toUInt32, UInt8.toUInt8_toUInt32]
  | _ => exact absurd hid (by decide)

section Running

variable {setup : Setup SimulatedBoard δ} {clock : Clock} {connection : ConnectionId}
  {x : Instrument SimulatedBoard δ}

/-- A row of writes that are only stored, and what is read behind them. -/
theorem board_row {α : Type} {read : Access SimulatedBoard α} {shown : SimulatedBoard → α}
    {stores : List (UInt8 × UInt32)}
    (hstores : ∀ store ∈ stores, Takes store.1 store.2 ∧ IsStored store.1)
    (hread : ∀ b, read b = (.ok (shown b), b)) :
    ItemAction.board ((SimulatedBoard.port clock).writeAll stores >>= fun _ => read) x =
      (.ok (shown (x.board.storeAll stores)),
        { x with board := x.board.storeAll stores }) :=
  ItemAction.board_of_ok <|
    (bind_of_ok (SimulatedBoard.writeAll_of_stored hstores x.board)).trans (hread _)

/-- A request to configure succeeds on every board, writes what it stores and replies what the board
then holds. -/
theorem run_of_asks (hport : setup.port = SimulatedBoard.port clock) (hasks : Asks id payload r)
    (hid : id ∈ ItemId.configuring) :
    ∃ result, r.run setup connection x =
        (.ok result, { x with board := x.board.storeAll r.stores }) ∧
      r.replyBytes result = some (r.replyOn (x.board.storeAll r.stores)) := by
  have hstored : ∀ store ∈ r.stores, Takes store.1 store.2 ∧ IsStored store.1 :=
    fun _ => stored_of_mem_stores hasks hid
  cases hasks with
  | dacRange | adcRange =>
      refine ⟨(), ?_, rfl⟩
      rw [run, hport, Port.write_eq_row]
      exact board_row hstored fun _ => rfl
  | readRanges | writeRanges =>
      rw [run_adcRanges, hport]
      refine ⟨_, board_row hstored SimulatedBoard.readRanges_apply, congrArg some ?_⟩
      rw [Vector.toList_ofFn, List.ofFn_eq_map, List.flatMap_map]
      rfl
  | readCalibration | writeCalibration =>
      rw [run_calibration, hport]
      exact ⟨_, board_row hstored (SimulatedBoard.readCalibration_apply _), rfl⟩
  | readScanSetup | writeScanSetup =>
      rw [run_scanSetup, hport]
      exact ⟨_, board_row hstored SimulatedBoard.readScanSetup_apply, rfl⟩
  | _ => exact absurd hid (by decide)

end Running

theorem construct_group (group : Fin adcGroups) :
    construct ItemId.adcCalibration.code [UInt8.ofNat group] =
      .ok (.ofRequest .adcCalibration [UInt8.ofNat group] (.calibration group none)) := by
  have hbounded : Bounded .adcCalibration [UInt8.ofNat group].length :=
    ⟨Nat.le_refl 1, Nat.le_add_left 1 8⟩
  rw [construct_of_bounded hbounded, decode, decodeCalibration, index_ofNat _ _ (by decide)]
  rfl

/-- The item that reads what a setting has set is read. What is replied to it on a board that holds
what the setting spells shows the setting. -/
theorem exists_reader (hasks : Asks id payload r)
    (hlength : id.settingLength? = some payload.length) {form : ItemId × Bytes}
    (hform : form ∈ (Item.ofRequest id payload r).readForm?) :
    ∃ request, form.1 ∈ ItemId.configuring ∧ request.stores = [] ∧
      construct form.1.code form.2 = .ok (.ofRequest form.1 form.2 request) ∧
      ∀ b : SimulatedBoard,
        (∀ place ∈ (Item.ofRequest id payload r).places, b.peek place.1 = toUInt32 place.2) →
        (Item.ofRequest id payload r).shownIn (request.replyOn b) = payload := by
  have hid := ItemId.mem_configuring_of_settingLength hlength
  cases hasks with
  | dacRange => cases hform
  | @adcRange group value word h =>
      cases hform
      refine ⟨.adcRanges none, by decide, rfl, rfl, fun b hplaces => ?_⟩
      have hvalue : value.length = 4 := (Nat.succ_inj.mp (Option.some_inj.mp hlength)).symm
      have hgroup : (UInt8.ofNat group).toNat = group := toNat_ofNat_fin (by decide) group
      have hrange : group.val < (List.finRange adcGroups).length := by
        rw [List.length_finRange]
        exact group.isLt
      have hblock := take_drop_flatMap (f := fun g => ofUInt32 (b.peek (rangeOf g)))
        (fun _ => length_ofNat 4 _) hrange
      have hshown : ofUInt32 (b.peek (rangeOf group)) = value := by
        rw [show b.peek (rangeOf group) = toUInt32 value from hplaces _ List.mem_cons_self,
          h.toUInt32_eq, h.ofUInt32_eq hvalue]
      change UInt8.ofNat group :: ((replyOn b (.adcRanges none)).drop
        (4 * (UInt8.ofNat group).toNat)).take 4 = UInt8.ofNat group :: value
      rw [hgroup, replyOn, hblock, List.getElem_finRange]
      exact congrArg _ hshown
  | readRanges | readCalibration | readScanSetup => cases hlength
  | writeRanges hall h =>
      cases hform
      exact ⟨.adcRanges none, by decide, rfl, rfl, fun b =>
        replyOn_eq (.writeRanges hall h) hlength⟩
  | @writeCalibration group scale offset c hfour hscale hoffset =>
      cases hform
      exact ⟨.calibration group none, hid, rfl, construct_group group, fun b =>
        replyOn_eq (.writeCalibration group hfour hscale hoffset) hlength⟩
  | writeScanSetup first last oversample =>
      cases hform
      exact ⟨.scanSetup none, by decide, rfl, rfl, fun b =>
        replyOn_eq (.writeScanSetup first last oversample) hlength⟩
  | _ => exact absurd hid (by decide)

end Catalogue

namespace Item

open Catalogue

variable {δ : Type} {setup : Setup SimulatedBoard δ} {clock : Clock} {connection : ConnectionId}
  {i : Item}

theorem IsConfiguring.exists_ofRequest (h : i.IsConfiguring) :
    ∃ id payload request, id ∈ ItemId.configuring ∧ Asks id payload request ∧
      i = .ofRequest id payload request := by
  obtain ⟨hread, id, hid, hkind⟩ := h
  obtain ⟨id', payload, request, hasks, rfl⟩ := hread.exists_ofRequest
  obtain rfl : id' = id := Option.some_inj.mp ((id?_ofRequest _ _ _).symm.trans hkind)
  exact ⟨id', payload, request, hid, hasks, rfl⟩

theorem IsSetting.isConfiguring (h : i.IsSetting) : i.IsConfiguring := by
  obtain ⟨hread, id, hkind, hlength⟩ := h
  exact ⟨hread, id, ItemId.mem_configuring_of_settingLength hlength, hkind⟩

theorem IsConfiguring.map_fst_stores (h : i.IsConfiguring) :
    i.request.stores.map Prod.fst = i.addresses := by
  obtain ⟨id, payload, request, hid, hasks, rfl⟩ := h.exists_ofRequest
  change request.stores.map Prod.fst = _
  rw [← map_places hasks hid, List.map_map]
  rfl

theorem IsConfiguring.execute (hport : setup.port = SimulatedBoard.port clock)
    (h : i.IsConfiguring) (connection : ConnectionId) (x : Instrument SimulatedBoard δ) :
    ∃ done, i.execute setup connection x =
        ((.ok (), done), { x with board := x.board.storeAll i.request.stores }) ∧
      done.wirePayload true = i.request.replyOn (x.board.storeAll i.request.stores) := by
  obtain ⟨id, payload, request, hid, hasks, rfl⟩ := h.exists_ofRequest
  obtain ⟨result, hrun, hreply⟩ := run_of_asks hport hasks hid
  refine ⟨_, execute_of_run hrun, ?_⟩
  change (request.replyBytes result).getD payload = _
  rw [hreply]
  rfl

/-- A register holds what it held when none of some items sets it. -/
theorem peek_carryOut (hport : setup.port = SimulatedBoard.port clock) {offset : UInt8}
    {later : List (ConnectionId × Item)}
    (h : ∀ sent ∈ later, sent.2.IsConfiguring ∧ offset ∉ sent.2.addresses)
    (x : Instrument SimulatedBoard δ) :
    (x.carryOut setup later).board.peek offset = x.board.peek offset := by
  induction later generalizing x with
  | nil => rfl
  | cons sent rest ih =>
      obtain ⟨hsent, hapart⟩ := h sent List.mem_cons_self
      obtain ⟨done, hexecute, -⟩ := hsent.execute hport sent.1 x
      rw [← hsent.map_fst_stores] at hapart
      rw [Instrument.carryOut, hexecute, ih fun later hmem => h later (List.mem_cons_of_mem _ hmem),
        SimulatedBoard.peek_storeAll_of_not_mem hapart]

/-- A setting succeeds on a simulated board in any state. The reply repeats it byte for byte, the
registers that it sets then hold what it has for them, and all else is as before, apart from the
log of writes. After any items of these kinds that set other registers the registers still hold
that, and a reply to the form of the item that reads shows the setting. -/
theorem settings_read_back (hport : setup.port = SimulatedBoard.port clock) (hi : i.IsSetting)
    (connection : ConnectionId) (x : Instrument SimulatedBoard δ) :
    ∃ done after, i.execute setup connection x = ((.ok (), done), after) ∧
      done.wirePayload true = i.payload ∧
      after = { x with board := { x.board with
        registers := after.board.registers
        writes := x.board.writes ++
          i.places.map fun place => (place.1, Bytes.toUInt32 place.2) } } ∧
      (∀ place ∈ i.places, after.board.peek place.1 = Bytes.toUInt32 place.2) ∧
      (∀ offset ∉ i.addresses, after.board.peek offset = x.board.peek offset) ∧
      ∀ later : List (ConnectionId × Item),
        (∀ sent ∈ later, sent.2.IsConfiguring ∧ i.addresses.Disjoint sent.2.addresses) →
        (∀ place ∈ i.places,
          (after.carryOut setup later).board.peek place.1 = Bytes.toUInt32 place.2) ∧
        ∀ form ∈ i.readForm?, ∃ reader, construct form.1.code form.2 = .ok reader ∧
          ∀ asker, ∃ shown last,
            reader.execute setup asker (after.carryOut setup later) = ((.ok (), shown), last) ∧
            i.shownIn (shown.wirePayload true) = i.payload := by
  have hconfiguring := hi.isConfiguring
  obtain ⟨id, payload, request, hid, hasks, rfl⟩ := hconfiguring.exists_ofRequest
  have hlength : id.settingLength? = some payload.length := by
    obtain ⟨-, id', hkind, hlength⟩ := hi
    obtain rfl : id = id' := Option.some_inj.mp ((id?_ofRequest _ _ _).symm.trans hkind)
    exact hlength
  obtain ⟨done, hexecute, hreply⟩ := hconfiguring.execute hport connection x
  have hspelt := map_places hasks hid
  have hplaces : ∀ place ∈ (ofRequest id payload request).places,
      (x.board.storeAll request.stores).peek place.1 = Bytes.toUInt32 place.2 :=
    fun place hmem => SimulatedBoard.peek_storeAll_of_mem (nodup_stores hasks hid)
      (by rw [← hspelt]; exact List.mem_map_of_mem hmem) x.board
  refine ⟨done, _, hexecute, hreply.trans (replyOn_eq hasks hlength hplaces), ?_, hplaces,
    fun offset hoffset => ?_, fun later hlater => ?_⟩
  · rw [hspelt]
    exact congrArg (fun board => { x with board := board })
      (SimulatedBoard.storeAll_eq x.board request.stores)
  · exact SimulatedBoard.peek_storeAll_of_not_mem (hconfiguring.map_fst_stores ▸ hoffset) _
  · have hkept : ∀ place ∈ (ofRequest id payload request).places,
        (Instrument.carryOut setup later
          { x with board := x.board.storeAll request.stores }).board.peek place.1 =
          Bytes.toUInt32 place.2 := fun place hmem => by
      rw [peek_carryOut hport fun sent hsent =>
        ⟨(hlater sent hsent).1, (hlater sent hsent).2 (List.mem_map_of_mem hmem)⟩]
      exact hplaces place hmem
    refine ⟨hkept, fun form hform => ?_⟩
    obtain ⟨reading, hkind, hnone, hconstruct, hshown⟩ := exists_reader hasks hlength hform
    refine ⟨_, hconstruct, fun asker => ?_⟩
    have hreader : (ofRequest form.1 form.2 reading).IsConfiguring :=
      ⟨isRead_of_construct hconstruct, form.1, hkind, id?_ofRequest _ _ _⟩
    obtain ⟨shown, hread, hreply⟩ := hreader.execute hport asker _
    -- The reader sets nothing, so it replies from the board as it finds it.
    refine ⟨shown, _, hread, ?_⟩
    rw [hreply]
    change shownIn _ (reading.replyOn (SimulatedBoard.storeAll _ reading.stores)) = payload
    rw [hnone]
    exact hshown _ hkept

/-- A calibration that is no number is set. Another connection sets the group below and the channels
to scan before the calibration is asked for. -/
theorem settings_read_back_calibration :
    let item := ofRequest .adcCalibration [1, 0, 0, 0xC0, 0x7F, 1, 2, 3, 4]
      (.calibration 1 (some ⟨0x7FC00000, 0x04030201⟩))
    let below := ofRequest .adcCalibration [0, 5, 6, 7, 8, 9, 10, 11, 12]
      (.calibration 0 (some ⟨0x08070605, 0x0C0B0A09⟩))
    let channels := ofRequest .scanSetup [0, 3, 1] (.scanSetup (some ⟨0, 3, 1⟩))
    let later : List (ConnectionId × Item) := [(⟨2⟩, below), (⟨2⟩, channels)]
    let setup := Setup.around (SimulatedBoard.port .steady)
    let x : Instrument SimulatedBoard SimulatedDma := .idle .powerOn .powerOn
    item.IsSetting ∧
      (∀ sent ∈ later, sent.2.IsConfiguring ∧ item.addresses.Disjoint sent.2.addresses) ∧
      ∃ done after reader shown last, item.execute setup ⟨1⟩ x = ((.ok (), done), after) ∧
        done.wirePayload true = [1, 0, 0, 0xC0, 0x7F, 1, 2, 3, 4] ∧
        construct ItemId.adcCalibration.code [1] = .ok reader ∧
        reader.execute setup ⟨1⟩ (after.carryOut setup later) = ((.ok (), shown), last) ∧
        shown.wirePayload true = [1, 0, 0, 0xC0, 0x7F, 1, 2, 3, 4] := by
  intro item below channels later setup x
  have hitem : item.IsSetting := ⟨rfl, .adcCalibration, rfl, rfl⟩
  have haddresses : item.addresses = [0x88, 0x8C] := rfl
  have hapart : ∀ offset ∈ item.addresses,
      offset ∉ below.addresses ∧ offset ∉ channels.addresses := by
    rw [haddresses, List.forall_mem_cons, List.forall_mem_singleton]
    decide
  have hlater : ∀ sent ∈ later,
      sent.2.IsConfiguring ∧ item.addresses.Disjoint sent.2.addresses :=
    List.forall_mem_cons.mpr
      ⟨⟨⟨rfl, .adcCalibration, by decide, rfl⟩, fun offset hmine => (hapart offset hmine).1⟩,
        List.forall_mem_singleton.mpr
          ⟨⟨rfl, .scanSetup, by decide, rfl⟩, fun offset hmine => (hapart offset hmine).2⟩⟩
  obtain ⟨done, after, hexecute, hreply, -, -, -, hread⟩ :=
    settings_read_back (rfl : setup.port = SimulatedBoard.port .steady) hitem ⟨1⟩ x
  obtain ⟨reader, hconstruct, hasked⟩ := (hread later hlater).2 _ rfl
  obtain ⟨shown, last, hlast, hshown⟩ := hasked ⟨1⟩
  exact ⟨hitem, hlater, done, after, reader, shown, last, hexecute, hreply, hconstruct, hlast,
    hshown⟩

end Item

end DaqServer
