import DaqServer.Board.SimulatedDma
import DaqServer.Proofs.Rounds
import Mathlib.Data.List.Basic

/-!
# The numbered blocks of the simulated engine

Within a run the engine fills its slots with consecutive sample numbers. `Sized` says that the slots
have the size that was set, and `Numbers` which block lies in which slot; every operation of the
engine keeps them. A worker that has asked for the filled slots goes on with the list it was given
while the engine fills further slots: `Due` says that such a list is still right.
-/

namespace DaqServer

namespace SimulatedDma

/-! ### What the operations do -/

/-- Setting the size of a transfer is refused with no effect, or the engine is stopped and its slots
are made anew. -/
theorem configure_cases (bytes : Nat) (d : SimulatedDma) :
    (∃ e, configure bytes d = (.error e, d)) ∨
      bytes ≠ 0 ∧ bytes % 4 = 0 ∧ d.running = false ∧
        configure bytes d = (.ok (), { d with
          transferBytes := bytes
          slots := List.replicate slotCount (List.replicate bytes 0) }) := by
  rw [configure]
  split
  · exact .inl ⟨_, rfl⟩
  · rename_i hsize
    split
    · exact .inl ⟨_, rfl⟩
    · rename_i hstopped
      exact .inr ⟨by omega, by omega, Bool.eq_false_of_not_eq_true hstopped, rfl⟩

/-- A start is refused where no size is set, and otherwise begins to count anew. -/
theorem start_cases (d : SimulatedDma) :
    (∃ e, start d = (.error e, d)) ∨
      d.transferBytes ≠ 0 ∧ start d = (.ok (), { d with
        running := true
        cancelPending := false
        produced := 0
        released := 0
        nextSample := 0 }) := by
  rw [start]
  split
  · exact .inl ⟨_, rfl⟩
  · exact .inr ⟨‹_›, rfl⟩

/-- Slots are handed back as far as they were filled, or the request is refused with no effect. -/
theorem release_cases (count : Nat) (d : SimulatedDma) :
    (∃ e, release count d = (.error e, d)) ∨
      count ≤ d.pending ∧
        release count d = (.ok (), { d with released := d.released + count }) := by
  rw [release]
  split
  · exact .inl ⟨_, rfl⟩
  · exact .inr ⟨Nat.le_of_not_lt ‹_›, rfl⟩

theorem eq_of_copySlot {d d' : SimulatedDma} {slot destination : Nat}
    {result : Except BoardError Bytes} (h : copySlot slot destination d = (result, d')) :
    d' = d := by
  rw [copySlot] at h
  split at h
  · exact (Prod.mk.inj h).2.symm
  · split at h <;> exact (Prod.mk.inj h).2.symm

/-- A size that the engine has taken is one that it starts with. -/
theorem transferBytes_of_configure {bytes : Nat} {d d' : SimulatedDma}
    (h : configure bytes d = (.ok (), d')) : d'.transferBytes ≠ 0 := by
  rcases configure_cases bytes d with ⟨e, herror⟩ | ⟨hbytes, -, -, hok⟩
  · cases herror.symm.trans h
  · cases hok.symm.trans h
    exact hbytes

theorem eq_of_configure_error {bytes : Nat} {d d' : SimulatedDma} {e : BoardError}
    (h : configure bytes d = (.error e, d')) : d' = d := by
  rcases configure_cases bytes d with ⟨e', herror⟩ | ⟨-, -, -, hok⟩
  · cases herror.symm.trans h
    rfl
  · cases hok.symm.trans h

theorem running_configure (bytes : Nat) (d : SimulatedDma) :
    (configure bytes d).2.running = d.running := by
  rcases configure_cases bytes d with ⟨e, herror⟩ | ⟨-, -, -, hok⟩
  · rw [herror]
  · rw [hok]

/-! ### Slots of a size -/

/-- What the engine does by itself: it fills slots, and its limit can be set anew. -/
inductive Drifts (d : SimulatedDma) : SimulatedDma → Prop
  | rest : d.Drifts d
  | produce : d.canProduce = true → d.Drifts d.produce
  | limit (slots : Option Nat) : d.Drifts { d with slotLimit := slots }

/-- The slots of the engine hold transfers of a size in whole samples. -/
structure Sized (bytes : Nat) (d : SimulatedDma) : Prop where
  transferBytes : d.transferBytes = bytes
  whole : bytes % 4 = 0
  length_slots : d.slots.length = slotCount
  length_slot : ∀ slot ∈ d.slots, slot.length = bytes

variable {d d' : SimulatedDma} {bytes : Nat}

theorem length_sampleBytes (first : UInt32) (count : Nat) :
    (sampleBytes first count).length = count * 4 := by
  simp [sampleBytes, Bytes.ofUInt32, List.length_flatMap]

theorem Drifts.cancelPending (h : d.Drifts d') : d'.cancelPending = d.cancelPending := by
  cases h <;> rfl

theorem Drifts.running (h : d.Drifts d') : d'.running = d.running := by
  cases h <;> rfl

theorem Drifts.pending_le (h : d.Drifts d') : d.pending ≤ d'.pending := by
  cases h with
  | rest | limit => exact Nat.le_refl _
  | produce => exact Nat.sub_le_sub_right (Nat.le_succ _) _

theorem Sized.produce (h : d.Sized bytes) : d.produce.Sized bytes where
  transferBytes := h.transferBytes
  whole := h.whole
  length_slots := (List.length_set ..).trans h.length_slots
  length_slot slot hslot := by
    rcases List.mem_or_eq_of_mem_set hslot with hslot | rfl
    · exact h.length_slot slot hslot
    · rw [length_sampleBytes, h.transferBytes]
      exact Nat.div_mul_cancel (Nat.dvd_of_mod_eq_zero h.whole)

theorem Sized.drifts (h : d.Sized bytes) (hd : d.Drifts d') : d'.Sized bytes := by
  cases hd with
  | rest => exact h
  | produce => exact h.produce
  | limit slots => exact ⟨h.transferBytes, h.whole, h.length_slots, h.length_slot⟩

theorem sized_made (d : SimulatedDma) (hwhole : bytes % 4 = 0) :
    Sized bytes { d with
      transferBytes := bytes
      slots := List.replicate slotCount (List.replicate bytes 0) } where
  transferBytes := rfl
  whole := hwhole
  length_slots := List.length_replicate
  length_slot slot hslot := by
    rw [List.eq_of_mem_replicate hslot, List.length_replicate]

theorem sized_of_configure (h : configure bytes d = (.ok (), d')) : d'.Sized bytes := by
  rcases configure_cases bytes d with ⟨e, herror⟩ | ⟨-, hwhole, -, hok⟩
  · cases herror.symm.trans h
  · cases hok.symm.trans h
    exact sized_made d hwhole

theorem sized_of_start (h : d.Sized bytes) (hstart : start d = (.ok (), d')) :
    d'.Sized bytes ∧ d'.cancelPending = false := by
  rcases start_cases d with ⟨e, herror⟩ | ⟨-, hok⟩
  · cases herror.symm.trans hstart
  · cases hok.symm.trans hstart
    exact ⟨⟨h.transferBytes, h.whole, h.length_slots, h.length_slot⟩, rfl⟩

theorem wait_of_cancelPending (h : d.cancelPending = true) :
    wait d = some (.ok .cancelled, { d with cancelPending := false }) := if_pos h

theorem wait_of_not_cancelPending (h : d.cancelPending = false) :
    wait d = if d.canProduce then some (.ok .fired, d.produce) else none := by
  rw [wait, h]
  rfl

/-- A slot that was filled can be handed back. -/
theorem release_one (h : d.pending ≠ 0) :
    release 1 d = (.ok (), { d with released := d.released + 1 }) :=
  if_neg (Nat.not_lt.mpr (Nat.one_le_iff_ne_zero.mpr h))

theorem Sized.copySlot (h : d.Sized bytes) {slot : Nat} (hslot : slot < slotCount) :
    ∃ contents, SimulatedDma.copySlot slot bytes d = (.ok contents, d) := by
  have hlt : slot < d.slots.length := h.length_slots ▸ hslot
  refine ⟨d.slots[slot], ?_⟩
  rw [SimulatedDma.copySlot, List.getElem?_eq_getElem hlt]
  exact if_pos (h.length_slot _ (List.getElem_mem hlt)).symm

/-! ### Blocks -/

/-- Block `k` of a run with `w` samples a transfer: the sample numbers from `k * w` on, as 32-bit
words. -/
def block (w k : Nat) : Bytes :=
  (List.range w).flatMap fun i => Bytes.ofNat 4 ((k * w + i) % 2 ^ 32)

theorem sampleBytes_ofNat (w k : Nat) : sampleBytes (UInt32.ofNat (k * w)) w = block w k := by
  rw [sampleBytes, block]
  refine List.flatMap_congr fun i _ => ?_
  rw [← UInt32.ofNat_add, Bytes.ofUInt32, UInt32.toNat_ofNat']

def blocks (w n : Nat) : List Bytes := (List.range n).map (block w)

@[simp] theorem length_blocks (w n : Nat) : (blocks w n).length = n := by
  rw [blocks, List.length_map, List.length_range]

theorem blocks_succ (w n : Nat) : blocks w (n + 1) = blocks w n ++ [block w n] := by
  rw [blocks, List.range_succ, List.map_append]
  rfl

theorem getElem?_blocks (w : Nat) {n k : Nat} (hk : k < n) :
    (blocks w n)[k]? = some (block w k) := by
  rw [blocks, List.getElem?_map, List.getElem?_range hk]
  rfl

/-- An engine within a run of `w` samples a transfer: the slots that were filled and not handed back
hold their blocks, and there are never more of them than slots. -/
structure Numbers (d : SimulatedDma) (w : Nat) : Prop where
  length_slots : d.slots.length = slotCount
  samples_eq : d.transferBytes / 4 = w
  nextSample_eq : d.nextSample = UInt32.ofNat (d.produced * w)
  released_le : d.released ≤ d.produced
  produced_le : d.produced ≤ d.released + slotCount
  slots_eq : ∀ k, d.released ≤ k → k < d.produced → d.slots[k % slotCount]? = some (block w k)

/-- The slots from the oldest filled one on, as they were listed by some earlier look at the engine.
There is at least one, and all of them are filled. -/
def Due (d : SimulatedDma) (slots : List Nat) : Prop :=
  ∃ n, d.released + n < d.produced ∧
    slots = (List.range' d.released (n + 1)).map (· % slotCount)

/-- What an engine lists as filled is due. -/
theorem due_ready {d : SimulatedDma} (hpending : d.pending ≠ 0) :
    d.Due ((List.range d.pending).map fun i => (d.released % slotCount + i) % slotCount) := by
  obtain ⟨n, hn⟩ := Nat.exists_eq_succ_of_ne_zero hpending
  refine ⟨n, ?_, ?_⟩
  · rw [pending] at hn
    omega
  · rw [hn, List.range'_eq_map_range, List.map_map]
    exact List.map_congr_left fun i _ => Nat.mod_add_mod ..

/-- More filled slots and no fewer left behind. -/
theorem Due.mono {d d' : SimulatedDma} {slots : List Nat} (h : d.Due slots)
    (hreleased : d'.released = d.released) (hproduced : d.produced ≤ d'.produced) :
    d'.Due slots := by
  obtain ⟨n, hn, hslots⟩ := h
  rw [← hreleased] at hn hslots
  exact ⟨n, Nat.lt_of_lt_of_le hn hproduced, hslots⟩

/-- An engine that was started fills its slots from the first block on. -/
theorem Sized.numbers_of_start {d d' : SimulatedDma} {bytes : Nat} (h : d.Sized bytes)
    (hstart : start d = (.ok (), d')) : d'.Numbers (bytes / 4) ∧ d'.released = 0 := by
  rcases start_cases d with ⟨e, herror⟩ | ⟨-, hok⟩
  · cases herror.symm.trans hstart
  · cases hok.symm.trans hstart
    refine ⟨⟨h.length_slots, by rw [h.transferBytes], ?_, le_rfl, Nat.zero_le _, ?_⟩, rfl⟩
    · rw [Nat.zero_mul]
      rfl
    · intro k _ hproduced
      exact absurd hproduced (Nat.not_lt_zero k)

namespace Numbers

variable {d d' : SimulatedDma} {w : Nat}

theorem produce (h : d.Numbers w) (hcan : d.canProduce = true) : d.produce.Numbers w := by
  have hpending : d.produced - d.released < slotCount := by
    simp only [canProduce, Bool.and_eq_true] at hcan
    exact of_decide_eq_true hcan.1.2
  have hle := h.released_le
  refine ⟨?_, h.samples_eq, ?_, Nat.le_succ_of_le hle, ?_, ?_⟩
  · exact (List.length_set ..).trans h.length_slots
  · change d.nextSample + UInt32.ofNat (d.transferBytes / 4) = UInt32.ofNat ((d.produced + 1) * w)
    rw [h.nextSample_eq, h.samples_eq, ← UInt32.ofNat_add, Nat.succ_mul]
  · change d.produced + 1 ≤ d.released + slotCount
    omega
  · intro k hreleased hproduced
    change (d.slots.set (d.produced % slotCount)
      (sampleBytes d.nextSample (d.transferBytes / 4)))[k % slotCount]? = some (block w k)
    rw [h.nextSample_eq, h.samples_eq, sampleBytes_ofNat]
    exact Rounds.getElem?_set h.length_slots (by omega) h.slots_eq hreleased hproduced

theorem stop (h : d.Numbers w) : (SimulatedDma.stop d).2.Numbers w where
  length_slots := h.length_slots
  samples_eq := h.samples_eq
  nextSample_eq := h.nextSample_eq
  released_le := le_rfl
  produced_le := Nat.le_add_right _ _
  slots_eq _ hreleased hproduced := absurd hreleased (Nat.not_le.mpr hproduced)

theorem cancel (h : d.Numbers w) : d.cancel.Numbers w :=
  ⟨h.length_slots, h.samples_eq, h.nextSample_eq, h.released_le, h.produced_le, h.slots_eq⟩

theorem limit (h : d.Numbers w) (slots : Option Nat) : { d with slotLimit := slots }.Numbers w :=
  ⟨h.length_slots, h.samples_eq, h.nextSample_eq, h.released_le, h.produced_le, h.slots_eq⟩

/-- A wait ends by forgetting a cancel or by filling a slot. -/
theorem wait (h : d.Numbers w) {result : Except BoardError Interrupt}
    (hwait : SimulatedDma.wait d = some (result, d')) :
    d'.Numbers w ∧ d'.released = d.released ∧ d.produced ≤ d'.produced := by
  rw [SimulatedDma.wait] at hwait
  split at hwait
  · obtain ⟨-, rfl⟩ := Prod.mk.inj (Option.some.inj hwait)
    exact ⟨⟨h.length_slots, h.samples_eq, h.nextSample_eq, h.released_le, h.produced_le,
      h.slots_eq⟩, rfl, le_rfl⟩
  · rename_i hcan
    obtain ⟨hcan, hwait⟩ := Option.ite_none_right_eq_some.mp hwait
    obtain ⟨-, rfl⟩ := Prod.mk.inj (Option.some.inj hwait)
    exact ⟨h.produce hcan, rfl, Nat.le_succ _⟩

theorem handBack (h : d.Numbers w) {count : Nat} (hcount : count ≤ d.pending) :
    { d with released := d.released + count }.Numbers w where
  length_slots := h.length_slots
  samples_eq := h.samples_eq
  nextSample_eq := h.nextSample_eq
  released_le := by
    have hle := h.released_le
    rw [pending] at hcount
    change d.released + count ≤ d.produced
    omega
  produced_le := Nat.le_trans h.produced_le (Nat.add_le_add_right (Nat.le_add_right _ _) _)
  slots_eq k hreleased := h.slots_eq k (Nat.le_trans (Nat.le_add_right _ _) hreleased)

/-- A slot that is handed back was filled, and further ones that are due stay so. -/
theorem release (h : d.Numbers w) {slots : List Nat} (hdue : d.Due slots) :
    ∃ d', SimulatedDma.release 1 d = (.ok (), d') ∧ d'.Numbers w ∧
      d'.released = d.released + 1 ∧ d'.produced = d.produced ∧
      (slots.tail = [] ∨ d'.Due slots.tail) := by
  obtain ⟨n, hn, rfl⟩ := hdue
  have hpending : 1 ≤ d.pending := by
    rw [pending]
    omega
  refine ⟨{ d with released := d.released + 1 }, if_neg (Nat.not_lt.mpr hpending),
    h.handBack hpending, rfl, rfl, ?_⟩
  cases n with
  | zero => exact .inl rfl
  | succ n =>
      refine .inr ⟨n, ?_, rfl⟩
      change d.released + 1 + n < d.produced
      omega

/-- The first slot that is due holds the oldest block that was not handed back. -/
theorem copySlot (h : d.Numbers w) {slots : List Nat} (hdue : d.Due slots) {destination : Nat}
    {contents : Bytes}
    (hcopy : SimulatedDma.copySlot (slots.headD 0) destination d = (.ok contents, d')) :
    contents = block w d.released := by
  obtain ⟨n, hn, rfl⟩ := hdue
  have hslot := h.slots_eq d.released le_rfl (by omega)
  change SimulatedDma.copySlot (d.released % slotCount) destination d = _ at hcopy
  simp only [SimulatedDma.copySlot, hslot] at hcopy
  split at hcopy
  · exact (Except.ok.inj (Prod.mk.inj hcopy).1).symm
  · exact absurd (Prod.mk.inj hcopy).1 nofun

end Numbers

end SimulatedDma

end DaqServer
