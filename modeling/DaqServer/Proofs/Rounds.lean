import Mathlib.Data.Nat.ModEq

/-!
# Places used in rounds

A list of `n` places is used in rounds when number `k` goes to place `k` modulo `n`. Numbers that
are less than one round apart never meet.
-/

namespace DaqServer

namespace Rounds

variable {α : Type}

theorem mod_ne_mod {a b n : Nat} (hlt : a < b) (hround : b < a + n) : a % n ≠ b % n := by
  intro h
  have hdvd : n ∣ b - a := (Nat.modEq_iff_dvd' hlt.le).mp h
  have hle := Nat.le_of_dvd (Nat.sub_pos_of_lt hlt) hdvd
  omega

/-- When the next number is stored, those of the round before it keep their places. -/
theorem getElem?_set {places : List α} {value : Nat → α} {n low high : Nat}
    (hlength : places.length = n) (hround : high < low + n)
    (hvalue : ∀ k, low ≤ k → k < high → places[k % n]? = some (value k)) {k : Nat}
    (hlow : low ≤ k) (hhigh : k < high + 1) :
    (places.set (high % n) (value high))[k % n]? = some (value k) := by
  rcases Nat.lt_succ_iff_lt_or_eq.mp hhigh with hlt | rfl
  · rw [List.getElem?_set_ne (mod_ne_mod hlt (by omega)).symm]
    exact hvalue k hlow hlt
  · refine List.getElem?_set_self ?_
    rw [hlength]
    exact Nat.mod_lt _ (by omega)

end Rounds

end DaqServer
