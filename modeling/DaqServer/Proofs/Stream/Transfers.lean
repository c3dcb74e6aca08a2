import DaqServer.Board.SimulatedDma
import DaqServer.Proofs.Config.Settings

/-!
# What a transfer's size comes to

Settings give a transfer's size in samples, and the engine takes it in bytes. Accepted settings have
some samples in a transfer, but there may be too many of them for its bytes to be counted in a word
or for a slot to be made. Main statement: accepted settings are usable just if a slot of the engine
has room for a transfer; otherwise the program stops, and where it does is known.
-/

namespace DaqServer

theorem Checked.copies_of_lt {α : Type} {width : Nat} {count : UInt64}
    (h : width * count.toNat < Checked.pieceLimit) (x : α) :
    copies width count x = .ok (List.replicate count.toNat x) := if_pos h

theorem Checked.copies_of_le {α : Type} {width : Nat} {count : UInt64}
    (h : Checked.pieceLimit ≤ width * count.toNat) (x : α) :
    copies width count x = .error .capacity := if_neg (Nat.not_lt_of_le h)

/-- The check of a size is the same for the word and for its number. -/
theorem SimulatedDma.badSize_iff (bytes : UInt64) :
    (bytes = 0 ∨ bytes % 4 ≠ 0) ↔ (bytes.toNat = 0 ∨ bytes.toNat % 4 ≠ 0) := by
  refine or_congr UInt64.toNat_inj.symm (not_congr ?_)
  rw [← UInt64.toNat_inj, UInt64.toNat_mod]
  rfl

/-- An engine that is stopped has the size, whether its slots can be made or not. -/
theorem SimulatedDma.resize_of_stopped {d : SimulatedDma} (hstopped : d.running = false)
    {bytes : UInt64} (hpositive : 0 < bytes.toNat) (haligned : 4 ∣ bytes.toNat) :
    resize bytes d =
      if bytes.toNat < Checked.pieceLimit then (.ok (.ok ()), { d with
        transferBytes := bytes.toNat
        slots := List.replicate slotCount (List.replicate bytes.toNat 0) })
      else (.error .capacity, { d with transferBytes := bytes.toNat }) := by
  have hsize : ¬ (bytes = 0 ∨ bytes % 4 ≠ 0) := by
    rw [badSize_iff]
    omega
  rw [resize, if_neg hsize, hstopped, if_neg Bool.false_ne_true]
  by_cases hroom : bytes.toNat < Checked.pieceLimit
  · rw [if_pos hroom, Checked.copies_of_lt (by rwa [Nat.one_mul])]
  · rw [if_neg hroom, Checked.copies_of_le (by rw [Nat.one_mul]; exact Nat.le_of_not_lt hroom)]

namespace StreamSettings

variable {s : StreamSettings}

/-- The engine can be given the transfers that are set: all of their bytes are counted, and an
engine that is stopped takes the size, and then has it. -/
def IsUsable (s : StreamSettings) : Prop :=
  ∃ bytes, s.transferBytes = .ok bytes ∧ bytes.toNat = 4 * s.transferSamples.toNat ∧
    0 < bytes.toNat ∧ 4 ∣ bytes.toNat ∧
    ∀ d : SimulatedDma, d.running = false →
      SimulatedDma.resize bytes d = (.ok (.ok ()), { d with
        transferBytes := 4 * s.transferSamples.toNat
        slots := List.replicate SimulatedDma.slotCount
          (List.replicate (4 * s.transferSamples.toNat) 0) })

/-- The bytes of a transfer that a word counts, and what they do to an engine that is stopped. -/
theorem resize_transferBytes (h : s.transferSamples ≠ 0)
    (hcounted : 4 * s.transferSamples.toNat < UInt64.size) :
    ∃ bytes, s.transferBytes = .ok bytes ∧ bytes.toNat = 4 * s.transferSamples.toNat ∧
      0 < bytes.toNat ∧ 4 ∣ bytes.toNat ∧
      ∀ d : SimulatedDma, d.running = false → SimulatedDma.resize bytes d =
        if 4 * s.transferSamples.toNat < Checked.pieceLimit then (.ok (.ok ()), { d with
          transferBytes := 4 * s.transferSamples.toNat
          slots := List.replicate SimulatedDma.slotCount
            (List.replicate (4 * s.transferSamples.toNat) 0) })
        else (.error .capacity, { d with transferBytes := 4 * s.transferSamples.toNat }) := by
  have hsamples : s.transferSamples.toNat ≠ 0 := fun hzero => h (UInt64.toNat_inj.mp hzero)
  obtain ⟨bytes, hbytes, hexact⟩ := transferBytes_of_lt hcounted
  rw [blockBytes] at hexact
  have hpositive : 0 < bytes.toNat := by omega
  have haligned : 4 ∣ bytes.toNat := hexact ▸ Nat.dvd_mul_right _ _
  refine ⟨bytes, hbytes, hexact, hpositive, haligned, fun d hstopped => ?_⟩
  rw [SimulatedDma.resize_of_stopped hstopped hpositive haligned, hexact]

/-- Accepted settings are usable just if the bytes of a transfer, four for each sample, are fewer
than a slot may have. Where a word does not count them, the program stops as it computes them;
where it does, the engine has the size by the time that making its slots stops. All of this is true
of the daemon's settings: where these are accepted, so are those of its streams. -/
theorem accepted_usable_iff (h : s.validate = .ok ()) :
    (s.IsUsable ↔ 4 * s.transferSamples.toNat < Checked.pieceLimit) ∧
    (UInt64.size ≤ 4 * s.transferSamples.toNat → s.transferBytes = .error .overflow) ∧
    (Checked.pieceLimit ≤ 4 * s.transferSamples.toNat → 4 * s.transferSamples.toNat < UInt64.size →
      ∃ bytes, s.transferBytes = .ok bytes ∧ bytes.toNat = 4 * s.transferSamples.toNat ∧
        ∀ d : SimulatedDma, d.running = false → SimulatedDma.resize bytes d =
          (.error .capacity, { d with transferBytes := 4 * s.transferSamples.toNat })) ∧
    ∀ t : DaemonSettings, t.validate = .ok () → t.streamSettings.validate = .ok () := by
  obtain ⟨-, hsamples, -⟩ := validate_iff.mp h
  refine ⟨⟨?_, fun hroom => ?_⟩, transferBytes_of_le, fun htight hcounted => ?_,
    fun t ht => (DaemonSettings.validate_iff.mp ht).stream⟩
  · rintro ⟨bytes, -, hexact, hpositive, haligned, htaken⟩
    have hresize := htaken .powerOn rfl
    rw [SimulatedDma.resize_of_stopped rfl hpositive haligned, hexact] at hresize
    refine Nat.lt_of_not_le fun htight => ?_
    rw [if_neg (Nat.not_lt_of_le htight)] at hresize
    cases congrArg Prod.fst hresize
  · obtain ⟨bytes, hbytes, hexact, hpositive, haligned, hresize⟩ :=
      resize_transferBytes hsamples (Nat.lt_trans hroom (by decide))
    simp only [if_pos hroom] at hresize
    exact ⟨bytes, hbytes, hexact, hpositive, haligned, hresize⟩
  · obtain ⟨bytes, hbytes, hexact, -, -, hresize⟩ := resize_transferBytes hsamples hcounted
    simp only [if_neg (Nat.not_lt_of_le htight)] at hresize
    exact ⟨bytes, hbytes, hexact, hresize⟩

/-- The usual settings, and an engine that was never used. -/
theorem standard_usable :
    let s : StreamSettings := .standard
    s.validate = .ok () ∧ s.IsUsable ∧ ∃ bytes, s.transferBytes = .ok bytes ∧
      (SimulatedDma.resize bytes .powerOn).1 = .ok (.ok ()) ∧
      (SimulatedDma.resize bytes .powerOn).2.transferBytes = 16384 := by
  intro s
  have hvalid : s.validate = .ok () := rfl
  have husable := (accepted_usable_iff hvalid).1.mpr (by decide)
  have ⟨bytes, hbytes, _, _, _, htaken⟩ := husable
  have hpowerOn := htaken .powerOn rfl
  exact ⟨hvalid, husable, bytes, hbytes, by rw [hpowerOn], by rw [hpowerOn]; rfl⟩

/-- With `0x4000000000000000` samples in a transfer the settings are accepted and the bytes are not
counted; with half as many they are counted, and no slot of the engine has room for them. -/
theorem accepted_unusable :
    let uncounted : StreamSettings := ⟨1, 0x4000000000000000, .ofMillis 1⟩
    let settings : DaemonSettings := { stream := { transferSamples := 0x2000000000000000 } }
    let roomless := settings.streamSettings
    (uncounted.validate = .ok () ∧ uncounted.transferBytes = .error .overflow ∧
      ¬ uncounted.IsUsable) ∧
    settings.validate = .ok () ∧ roomless.validate = .ok () ∧ ¬ roomless.IsUsable ∧
      ∃ bytes, roomless.transferBytes = .ok bytes ∧ SimulatedDma.resize bytes .powerOn =
        (.error .capacity, { SimulatedDma.powerOn with transferBytes := 0x8000000000000000 }) := by
  intro uncounted settings roomless
  have hsettings : settings.validate = .ok () := DaemonSettings.validate_iff.mpr
    ⟨by decide, by decide, by decide, by decide, rfl, by decide +kernel, by decide +kernel⟩
  obtain ⟨huncounted, hoverflow, -⟩ := accepted_usable_iff (s := uncounted) rfl
  obtain ⟨hroomless, -, hcapacity, -⟩ := accepted_usable_iff (s := roomless) rfl
  have hsize : 4 * roomless.transferSamples.toNat = 0x8000000000000000 := by decide
  rw [hsize] at hcapacity hroomless
  obtain ⟨bytes, hbytes, -, hresize⟩ := hcapacity (by decide) (by decide)
  exact ⟨⟨rfl, hoverflow (by decide), mt huncounted.mp (by decide)⟩, hsettings, rfl,
    mt hroomless.mp (by decide), bytes, hbytes, hresize .powerOn rfl⟩

end StreamSettings

end DaqServer
