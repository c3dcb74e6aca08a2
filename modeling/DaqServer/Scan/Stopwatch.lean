/-!
# Stopwatches

A stopwatch shows the time since samples began to be collected, in nanoseconds. What it shows
depends on what was done so far: accesses to the board and pauses between them. More of either never
takes time back, and enough accesses pass every time.
-/

namespace DaqServer

/-- The time shown after so many accesses and so many pauses. -/
structure Stopwatch where
  reading : (accesses pauses : Nat) → Nat
  monotone : ∀ {a b p q}, a ≤ b → p ≤ q → reading a p ≤ reading b q
  /-- The accesses by which a time has passed. -/
  reach : Nat → Nat
  le_reading_reach : ∀ t, t ≤ reading (reach t) 0

namespace Stopwatch

/-- The stopwatch on which every access takes the same time, at least a nanosecond, and every pause
does too. -/
def steady (access pause : Nat) (h : 0 < access) : Stopwatch where
  reading a p := a * access + p * pause
  monotone ha hp := Nat.add_le_add (Nat.mul_le_mul_right access ha) (Nat.mul_le_mul_right pause hp)
  reach t := t
  le_reading_reach t := Nat.le_add_right_of_le (Nat.le_mul_of_pos_right t h)

theorem lt_reach_of_reading_lt (w : Stopwatch) {t a p : Nat} (h : w.reading a p < t) :
    a < w.reach t := by
  rcases Nat.lt_or_ge a (w.reach t) with hlt | hge
  · exact hlt
  · have hreach := w.le_reading_reach t
    have hmono := w.monotone hge (Nat.zero_le p)
    omega

end Stopwatch

end DaqServer
