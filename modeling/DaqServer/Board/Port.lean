import DaqServer.Register

/-!
# Access to a board

`Port σ` is the way to the registers of a board with state `σ`; an access may fail, and it may
change the board either way. A `Clock` is what a running clock shows at successive instants.
-/

namespace DaqServer

/-- A computation on a board that may be refused; the state of the board survives a refusal. -/
abbrev Access (σ : Type) (α : Type) := ExceptT BoardError (StateM σ) α

namespace Access

def outcome {σ α : Type} (x : Access σ α) (s : σ) : Except BoardError α × σ := x s

end Access

/-- Register access by offset; the width of an access is implied by the offset. -/
structure Port (σ : Type) where
  read : UInt8 → Access σ UInt32
  write : UInt8 → UInt32 → Access σ Unit

/-- A clock that never runs backwards, read at successive instants. -/
structure Clock where
  reading : Nat → Nat
  monotone : ∀ i, reading i ≤ reading (i + 1)

namespace Clock

/-- The clock that gains one unit at every instant. -/
def steady : Clock := ⟨id, fun i => Nat.le_succ i⟩

theorem reading_le (c : Clock) {i j : Nat} (h : i ≤ j) : c.reading i ≤ c.reading j := by
  induction h with
  | refl => exact Nat.le_refl _
  | step _ ih => exact Nat.le_trans ih (c.monotone _)

end Clock

end DaqServer
