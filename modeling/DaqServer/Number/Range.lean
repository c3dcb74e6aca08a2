import DaqServer.Number.Decimal

/-!
# The range of a binary format

`Format.rangeEnd` is the least number that is too large for a format once it is rounded to the
nearest. `Decimal.exceeds` tells whether a decimal reaches it.
-/

namespace DaqServer.Number

/-- The least number that rounds to infinity. It lies half a step above the largest finite number,
and the tie goes up because the mantissa of that number is odd. -/
def Format.rangeEnd (f : Format) : Nat :=
  ((1 <<< (f.fractionBits + 2)) - 1) <<< (f.bias - f.fractionBits - 1)

def decimalLength (n : Nat) : Nat := (Nat.toDigits 10 n).length

/-- Whether a decimal rounds to infinity. The count of digits before the point decides unless it is
that of the end of the range, so that no power is computed that the digits do not call for. -/
def Decimal.exceeds (f : Format) (d : Decimal) : Bool :=
  let whole := decimalLength d.digits + d.exponent
  let wholeOfEnd : Int := decimalLength f.rangeEnd
  let reaches := f.rangeEnd * Nat.pow 10 (-d.exponent).toNat
    ≤ d.digits * Nat.pow 10 d.exponent.toNat
  d.digits ≠ 0 ∧ (wholeOfEnd < whole ∨ whole = wholeOfEnd ∧ reaches)

@[simp] theorem Decimal.exceeds_zero (f : Format) (e : Int) : Decimal.exceeds f ⟨0, e⟩ = false := by
  simp [Decimal.exceeds]

end DaqServer.Number
