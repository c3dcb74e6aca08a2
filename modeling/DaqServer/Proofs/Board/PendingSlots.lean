import DaqServer.Board.DmaCalls
import DaqServer.Proofs.Board.SimulatedDma

/-!
# Pending slots of the simulated engine

A slot is pending from when it is filled until it is handed back or a run ends. `Call.Does` is all
that a call can do to the engine; what is true after any calls (`Sound`) follows from it call by
call. Main statement: whatever calls are made in whatever order, a pending slot lies where its
number says and holds its block, and no filling reaches it.
-/

namespace DaqServer

namespace SimulatedDma

variable {d d' : SimulatedDma} {w bytes : Nat}

/-! ### Filling a slot where it lies -/

theorem sampleBytes_zero (first : UInt32) : sampleBytes first 0 = [] := rfl

theorem sampleBytes_succ (first : UInt32) (count : Nat) :
    sampleBytes first (count + 1) = Bytes.ofUInt32 first ++ sampleBytes (first + 1) count := by
  have hfirst : first + UInt32.ofNat 0 = first := UInt32.add_zero first
  have hnext (i : Nat) : first + UInt32.ofNat (i + 1) = first + 1 + UInt32.ofNat i := by
    rw [UInt32.ofNat_add, UInt32.add_comm (UInt32.ofNat i), ← UInt32.add_assoc]
    rfl
  simp only [sampleBytes, List.range_succ_eq_map, List.flatMap_cons, List.flatMap_map, hnext,
    hfirst]

/-- Words that are overwritten one after the other are the bytes of consecutive sample numbers. -/
theorem overwriteWords_eq {slot : Bytes} {count : Nat} (hlength : slot.length = count * 4)
    (next : UInt32) :
    overwriteWords slot next = (sampleBytes next count, next + UInt32.ofNat count) := by
  induction count generalizing slot next with
  | zero =>
      obtain rfl := List.length_eq_zero_iff.mp (hlength.trans (Nat.zero_mul 4))
      rw [overwriteWords, sampleBytes_zero]
      · exact congrArg _ (UInt32.add_zero next).symm
      · nofun
  | succ count ih =>
      match slot, hlength with
      | _ :: _ :: _ :: _ :: rest, h =>
          have hrest : rest.length = count * 4 := by
            simp at h
            omega
          have hlast : next + 1 + UInt32.ofNat count = next + UInt32.ofNat (count + 1) := by
            rw [UInt32.ofNat_add, UInt32.add_comm (UInt32.ofNat count), ← UInt32.add_assoc]
            rfl
          rw [overwriteWords, ih hrest, sampleBytes_succ, hlast]
      | [], h | [_], h | [_, _], h | [_, _, _], h =>
          simp at h <;> omega

/-- Where the slots have their size, the next slot is there, and it is filled where it lies. -/
theorem Sized.fill_eq (h : d.Sized bytes) : d.fill = .ok d.produce := by
  have hindex : d.produced % slotCount < d.slots.length := by
    rw [h.length_slots]
    exact Nat.mod_lt _ (by decide)
  have hget : d.slots[d.produced % slotCount]? = some d.slots[d.produced % slotCount] :=
    List.getElem?_eq_getElem hindex
  have hlength : d.slots[d.produced % slotCount].length = d.transferBytes / 4 * 4 := by
    rw [h.length_slot _ (List.getElem_mem hindex), h.transferBytes]
    exact (Nat.div_mul_cancel (Nat.dvd_of_mod_eq_zero h.whole)).symm
  rw [fill, Checked.element_of_getElem? hget]
  simp only [bind, Except.bind, overwriteWords_eq hlength]
  rfl

/-! ### What calls do -/

/-- All that a call can come to, with what becomes of the engine. -/
inductive Call.Does (d : SimulatedDma) : Call → Except BoardError Unit × SimulatedDma → Prop
  | refused (call : Call) (e : BoardError) : Does d call (.error e, d)
  | nothing (call : Call) : Does d call (.ok (), d)
  | configure {bytes : Nat} : bytes ≠ 0 → bytes % 4 = 0 → d.running = false →
      Does d (.configure bytes) (.ok (), { d with
        transferBytes := bytes
        slots := List.replicate slotCount (List.replicate bytes 0) })
  | start : d.transferBytes ≠ 0 → Does d .start (.ok (), { d with
      running := true
      cancelPending := false
      produced := 0
      released := 0
      nextSample := 0 })
  | stop : Does d .stop (.ok (), { d with running := false, released := d.produced })
  | release {count : Nat} : count ≤ d.pending →
      Does d (.release count) (.ok (), { d with released := d.released + count })
  | forget : Does d .wait (.ok (), { d with cancelPending := false })
  | fill : d.canProduce = true → Does d .wait (.ok (), d.produce)
  | cancel : Does d .cancel (.ok (), d.cancel)
  | limit (slots : Option Nat) : Does d (.limit slots) (.ok (), { d with slotLimit := slots })

theorem discard_apply {α : Type} (x : Access SimulatedDma α) (d : SimulatedDma) :
    (discard x : Access SimulatedDma Unit) d = ((x d).1.map fun _ => (), (x d).2) := by
  change (x >>= fun _ => pure ()) d = _
  simp only [bind, ExceptT.bind, ExceptT.mk, StateT.bind]
  rcases x d with ⟨e | a, d'⟩ <;> rfl

theorem Call.does_copySlot (d : SimulatedDma) (slot destination : Nat) :
    Does d (.copySlot slot destination) ((Call.copySlot slot destination).perform d) := by
  rw [perform, discard_apply]
  rcases hcopy : SimulatedDma.copySlot slot destination d with ⟨e | contents, d'⟩
  · obtain rfl := eq_of_copySlot hcopy
    exact .refused _ e
  · obtain rfl := eq_of_copySlot hcopy
    exact .nothing _

theorem Call.does_wait (d : SimulatedDma) : Does d .wait (Call.wait.perform d) := by
  simp only [perform]
  cases hcancel : d.cancelPending with
  | true =>
      rw [wait_of_cancelPending hcancel]
      exact .forget
  | false =>
      rw [wait_of_not_cancelPending hcancel]
      by_cases hcan : d.canProduce = true
      · rw [if_pos hcan]
        exact .fill hcan
      · rw [if_neg hcan]
        exact .nothing _

theorem Call.does_perform (d : SimulatedDma) (call : Call) : call.Does d (call.perform d) := by
  cases call with
  | configure bytes =>
      rcases configure_cases bytes d with ⟨e, h⟩ | ⟨hbytes, hwhole, hstopped, h⟩
      · rw [perform, h]
        exact .refused _ e
      · rw [perform, h]
        exact .configure hbytes hwhole hstopped
  | start =>
      rcases start_cases d with ⟨e, h⟩ | ⟨hbytes, h⟩
      · rw [perform, h]
        exact .refused _ e
      · rw [perform, h]
        exact .start hbytes
  | release count =>
      rcases release_cases count d with ⟨e, h⟩ | ⟨hcount, h⟩
      · rw [perform, h]
        exact .refused _ e
      · rw [perform, h]
        exact .release hcount
  | copySlot slot destination => exact does_copySlot d slot destination
  | wait => exact does_wait d
  | stop => exact .stop
  | ready => exact .nothing _
  | cancel => exact .cancel
  | limit slots => exact .limit slots

/-- A call that is refused has no effect. -/
theorem Call.eq_of_perform_error {call : Call} {e : BoardError}
    (h : (call.perform d).1 = .error e) : (call.perform d).2 = d := by
  have hdoes := does_perform d call
  revert h hdoes
  generalize call.perform d = result
  intro h hdoes
  cases hdoes with
  | refused => rfl
  | nothing => rfl
  | _ => cases h

/-! ### What is true after any calls -/

/-- The slots have the size that was set; within a run they hold its blocks, and without one none is
pending. -/
structure Sound (d : SimulatedDma) : Prop where
  sized : d.transferBytes ≠ 0 → d.Sized d.transferBytes
  numbers : d.running = true → d.transferBytes ≠ 0 ∧ d.Numbers (d.transferBytes / 4)
  drained : d.running = false → d.released = d.produced

theorem sound_powerOn : powerOn.Sound := ⟨fun h => absurd rfl h, nofun, fun _ => rfl⟩

theorem running_of_canProduce (h : d.canProduce = true) : d.running = true := by
  simp only [canProduce, Bool.and_eq_true] at h
  exact h.1.1.1

namespace Sound

/-- Neither a pending cancel nor the limit matters to the slots. -/
theorem flags (h : d.Sound) (cancelPending : Bool) (slotLimit : Option Nat) :
    { d with cancelPending := cancelPending, slotLimit := slotLimit }.Sound where
  sized hbytes := by
    have hsized := h.sized hbytes
    exact ⟨rfl, hsized.whole, hsized.length_slots, hsized.length_slot⟩
  numbers hrunning := by
    obtain ⟨hbytes, hnumbers⟩ := h.numbers hrunning
    exact ⟨hbytes, hnumbers.length_slots, rfl, hnumbers.nextSample_eq, hnumbers.released_le,
      hnumbers.produced_le, hnumbers.slots_eq⟩
  drained := h.drained

theorem release (h : d.Sound) {count : Nat} (hcount : count ≤ d.pending) :
    { d with released := d.released + count }.Sound where
  sized hbytes := by
    have hsized := h.sized hbytes
    exact ⟨rfl, hsized.whole, hsized.length_slots, hsized.length_slot⟩
  numbers hrunning := by
    obtain ⟨hbytes, hnumbers⟩ := h.numbers hrunning
    exact ⟨hbytes, hnumbers.handBack hcount⟩
  drained hstopped := by
    have hdrained := h.drained hstopped
    rw [pending] at hcount
    change d.released + count = d.produced
    omega

theorem produce (h : d.Sound) (hcan : d.canProduce = true) : d.produce.Sound := by
  have hrunning := running_of_canProduce hcan
  obtain ⟨hbytes, hnumbers⟩ := h.numbers hrunning
  refine ⟨fun _ => (h.sized hbytes).produce, fun _ => ⟨hbytes, hnumbers.produce hcan⟩, ?_⟩
  intro hstopped
  cases hrunning.symm.trans hstopped

theorem perform (h : d.Sound) (call : Call) : (call.perform d).2.Sound := by
  have hdoes := call.does_perform d
  generalize call.perform d = result at hdoes
  cases hdoes with
  | refused | nothing => exact h
  | configure hbytes hwhole hstopped =>
      refine ⟨fun _ => sized_made d hwhole, ?_, h.drained⟩
      intro hrunning
      cases hstopped.symm.trans hrunning
  | start hbytes =>
      have hstart : SimulatedDma.start d = (.ok (), _) := if_neg hbytes
      refine ⟨fun _ => (sized_of_start (h.sized hbytes) hstart).1, ?_, nofun⟩
      exact fun _ => ⟨hbytes, ((h.sized hbytes).numbers_of_start hstart).1⟩
  | stop =>
      refine ⟨fun hbytes => ?_, nofun, fun _ => rfl⟩
      have hsized := h.sized hbytes
      exact ⟨rfl, hsized.whole, hsized.length_slots, hsized.length_slot⟩
  | release hcount => exact h.release hcount
  | fill hcan => exact h.produce hcan
  | forget => exact h.flags false d.slotLimit
  | cancel => exact h.flags true d.slotLimit
  | limit slots => exact h.flags d.cancelPending slots

theorem after (h : d.Sound) (calls : List Call) : (d.after calls).Sound := by
  induction calls generalizing d with
  | nil => exact h
  | cons call calls ih => exact ih (h.perform call)

end Sound

/-! ### Within a run -/

theorem produced_perform_le (d : SimulatedDma) (call : Call) :
    (call.perform d).2.produced ≤ d.produced + 1 := by
  have hdoes := call.does_perform d
  generalize call.perform d = result at hdoes
  cases hdoes with
  | start => exact Nat.zero_le _
  | fill => exact Nat.le_refl _
  | _ => exact Nat.le_succ _

theorem produced_after_le (d : SimulatedDma) (calls : List Call) :
    (d.after calls).produced ≤ d.produced + calls.length := by
  induction calls generalizing d with
  | nil => exact Nat.le_refl _
  | cons call calls ih =>
      have hfirst := produced_perform_le d call
      have hrest := ih (call.perform d).2
      rw [List.length_cons]
      change (after calls (call.perform d).2).produced ≤ _
      omega

/-- Nothing but a stop ends a run, and within it the size of a transfer stays. -/
theorem running_perform (hrunning : d.running = true) {call : Call} (hstop : call ≠ .stop) :
    (call.perform d).2.running = true ∧
      (call.perform d).2.transferBytes = d.transferBytes := by
  have hdoes := call.does_perform d
  generalize call.perform d = result at hdoes
  cases hdoes with
  | configure _ _ hstopped => cases hrunning.symm.trans hstopped
  | stop => exact absurd rfl hstop
  | start => exact ⟨rfl, rfl⟩
  | _ => exact ⟨hrunning, rfl⟩

theorem running_after (hrunning : d.running = true) {calls : List Call} (hstop : .stop ∉ calls) :
    (d.after calls).running = true ∧ (d.after calls).transferBytes = d.transferBytes := by
  induction calls generalizing d with
  | nil => exact ⟨hrunning, rfl⟩
  | cons call calls ih =>
      rw [List.mem_cons, not_or] at hstop
      obtain ⟨hfirst, hsize⟩ := running_perform hrunning (Ne.symm hstop.1)
      obtain ⟨hrest, hsize'⟩ := ih hfirst hstop.2
      exact ⟨hrest, hsize'.trans hsize⟩

theorem Sized.map_length_slots (h : d.Sized bytes) :
    d.slots.map List.length = List.replicate slotCount bytes := by
  refine List.eq_replicate_iff.mpr ⟨?_, ?_⟩
  · rw [List.length_map, h.length_slots]
  · intro length hlength
    obtain ⟨slot, hslot, rfl⟩ := List.mem_map.mp hlength
    exact h.length_slot slot hslot

namespace Sound

theorem pending_le (h : d.Sound) :
    d.released ≤ d.produced ∧ d.produced ≤ d.released + slotCount := by
  cases hrunning : d.running with
  | true =>
      obtain ⟨-, hnumbers⟩ := h.numbers hrunning
      exact ⟨hnumbers.released_le, hnumbers.produced_le⟩
  | false =>
      have hdrained := h.drained hrunning
      omega

/-- A pending slot holds its block, and that is what a copy of it is. -/
theorem slot_eq (h : d.Sound) {k : Nat} (hreleased : d.released ≤ k) (hproduced : k < d.produced) :
    d.slots[k % slotCount]? = some (block (d.transferBytes / 4) k) ∧
      copySlot (k % slotCount) d.transferBytes d = (.ok (block (d.transferBytes / 4) k), d) := by
  have hrunning : d.running = true := by
    refine Bool.eq_true_of_not_eq_false fun hstopped => ?_
    have hdrained := h.drained hstopped
    omega
  obtain ⟨hbytes, hnumbers⟩ := h.numbers hrunning
  have hslot := hnumbers.slots_eq k hreleased hproduced
  have hlength : d.transferBytes = (block (d.transferBytes / 4) k).length :=
    ((h.sized hbytes).length_slot _ (List.mem_of_getElem? hslot)).symm
  refine ⟨hslot, ?_⟩
  simp only [copySlot, hslot]
  exact if_pos hlength

end Sound

/-- No pending slot of the simulated engine is overwritten or mislaid, whatever calls are made of a
new engine in whatever order, and whether they are refused or not. No more slots are pending than
there are, and never fewer than none; slot `k` of a run lies at index `k` modulo sixteen and holds
the block of consecutive sample numbers that begins with `k` transfers' worth, as long as it is
pending; those slots and no others are told to be ready, and can be copied. Where a slot can be
filled its index is one of a slot. Within a run no size can be set, and no slot changes its own. A
call that is refused leaves the engine as it was. -/
theorem keeps_pending_slots (calls : List Call) :
    let d := powerOn.after calls
    d.released ≤ d.produced ∧ d.produced ≤ d.released + 16 ∧ d.produced ≤ calls.length ∧
    (∀ k, d.released ≤ k → k < d.produced →
      d.slots[k % 16]? = some (block (d.transferBytes / 4) k) ∧
        copySlot (k % 16) d.transferBytes d = (.ok (block (d.transferBytes / 4) k), d)) ∧
    (∃ told : DmaReady, ready d = (.ok told, d) ∧
      (List.range told.count).map (fun i => (told.first + i) % 16) =
        (List.range' d.released (d.produced - d.released)).map (· % 16)) ∧
    (d.canProduce = true → d.fill = .ok d.produce) ∧
    (d.running = true →
      (∀ bytes, ∃ cause, configure bytes d = (.error cause, d)) ∧
      ∀ later, .stop ∉ later → (d.after later).running = true ∧
        (d.after later).slots.map List.length = List.replicate 16 d.transferBytes) ∧
    ∀ (call : Call) e, (call.perform d).1 = .error e → (call.perform d).2 = d := by
  intro d
  have hsound : d.Sound := sound_powerOn.after calls
  have hcount : d.produced ≤ calls.length := by
    have hle := produced_after_le powerOn calls
    change d.produced ≤ 0 + calls.length at hle
    omega
  obtain ⟨hreleased, hproduced⟩ := hsound.pending_le
  refine ⟨hreleased, hproduced, hcount, fun k => hsound.slot_eq, ⟨_, rfl, ?_⟩, fun hcan => ?_,
    fun hrunning => ⟨fun bytes => ?_, fun later hstop => ?_⟩,
    fun call e => Call.eq_of_perform_error⟩
  · rw [List.range'_eq_map_range, List.map_map]
    exact List.map_congr_left fun i _ => Nat.mod_add_mod ..
  · obtain ⟨hbytes, -⟩ := hsound.numbers (running_of_canProduce hcan)
    exact (hsound.sized hbytes).fill_eq
  · rcases configure_cases bytes d with herror | ⟨-, -, hstopped, -⟩
    · exact herror
    · cases hrunning.symm.trans hstopped
  · obtain ⟨hrunning', hsize⟩ := running_after hrunning hstop
    obtain ⟨hbytes, -⟩ := (hsound.after later).numbers hrunning'
    have hsized := (hsound.after later).sized hbytes
    rw [hsize] at hsized
    exact ⟨hrunning', hsized.map_length_slots⟩

end SimulatedDma

end DaqServer
