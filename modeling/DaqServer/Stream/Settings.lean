import DaqServer.Adc.Error
import DaqServer.Trap

/-!
# Streaming settings

The sizes of the ring and of one transfer, and the wait after which a thread looks at its
termination flag again.
-/

namespace DaqServer

/-- Sizes are 64-bit words. -/
structure StreamSettings where
  /-- Slots of the ring between worker and logger. -/
  ringSlots : UInt64
  /-- Samples of one transfer, which is one slot. -/
  transferSamples : UInt64
  loggerWait : Span
  deriving DecidableEq, Repr

namespace StreamSettings

def standard : StreamSettings := ⟨255, 4096, .ofMillis 100⟩

/-- Bytes of one transfer, however many they are. -/
def blockBytes (s : StreamSettings) : Nat := 4 * s.transferSamples.toNat

/-- Bytes of one transfer, as they are computed in a word. -/
def transferBytes (s : StreamSettings) : Checked UInt64 := Checked.product s.transferSamples 4

theorem transferBytes_of_lt {s : StreamSettings} (h : s.blockBytes < UInt64.size) :
    ∃ bytes, s.transferBytes = .ok bytes ∧ bytes.toNat = s.blockBytes := by
  rw [blockBytes, Nat.mul_comm] at h
  refine ⟨s.transferSamples * 4, if_pos h, ?_⟩
  rw [UInt64.toNat_mul, blockBytes, Nat.mul_comm 4]
  exact Nat.mod_eq_of_lt h

theorem transferBytes_of_le {s : StreamSettings} (h : UInt64.size ≤ s.blockBytes) :
    s.transferBytes = .error .overflow := by
  rw [blockBytes, Nat.mul_comm] at h
  exact if_neg (Nat.not_lt_of_le h)

/-- Refuse sizes and waits of zero. -/
def validate (s : StreamSettings) : Except AcquisitionError Unit :=
  if s.ringSlots = 0 then .error (.badStream .noRingSlots)
  else if s.transferSamples = 0 then .error (.badStream .emptyTransfers)
  else if s.loggerWait.nanoseconds = 0 then .error (.badStream .noWait)
  else .ok ()

theorem validate_iff {s : StreamSettings} :
    s.validate = .ok () ↔
      s.ringSlots ≠ 0 ∧ s.transferSamples ≠ 0 ∧ s.loggerWait.nanoseconds ≠ 0 := by
  rw [validate]
  split
  · exact iff_of_false nofun fun h => h.1 ‹_›
  split
  · exact iff_of_false nofun fun h => h.2.1 ‹_›
  split
  · exact iff_of_false nofun fun h => h.2.2 ‹_›
  · exact iff_of_true rfl ⟨‹_›, ‹_›, ‹_›⟩

end StreamSettings

end DaqServer
