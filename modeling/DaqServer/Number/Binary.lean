/-!
# Binary floating-point formats

A finite number of a format is a whole mantissa times a power of two. `Dyadic.bits` gives the bit
pattern of a number that the format holds exactly; `Binary32.classify` reads a 32-bit pattern back.
-/

namespace DaqServer.Number

/-- A binary interchange format: the count of its stored fraction bits and of its exponent bits. -/
structure Format where
  fractionBits : Nat
  exponentBits : Nat

def binary32 : Format := ⟨23, 8⟩

def binary64 : Format := ⟨52, 11⟩

def Format.bias (f : Format) : Nat := (1 <<< (f.exponentBits - 1)) - 1

def Format.signPosition (f : Format) : Nat := f.fractionBits + f.exponentBits

/-- The quiet value that is no number: exponent field all ones, highest fraction bit set. -/
def Format.nanBits (f : Format) : Nat :=
  (((1 <<< f.exponentBits) - 1) <<< f.fractionBits) + (1 <<< (f.fractionBits - 1))

/-- The number `numerator / 2 ^ scale`. -/
structure Dyadic where
  numerator : Int
  scale : Nat
  deriving DecidableEq, Repr

/-- The bit pattern of a dyadic number in a format. Exact whenever the numerator has at most
`fractionBits + 1` binary digits and the number is in the normal range; zero is positive. -/
def Dyadic.bits (f : Format) (d : Dyadic) : Nat :=
  if d.numerator = 0 then 0
  else
    let magnitude := d.numerator.natAbs
    let top := magnitude.log2
    let sign := if d.numerator < 0 then 1 <<< f.signPosition else 0
    let fraction := (magnitude <<< (f.fractionBits - top)) - (1 <<< f.fractionBits)
    sign + ((top + f.bias - d.scale) <<< f.fractionBits) + fraction

/-- What a 32-bit pattern stands for. A finite value is `mantissa * 2 ^ exponent`;
`halfBelow` tells that the next smaller number is only half a step away. -/
inductive Binary32
  | nan
  | infinite (negative : Bool)
  | finite (negative : Bool) (mantissa : Nat) (exponent : Int) (halfBelow : Bool)
  deriving DecidableEq, Repr

def Binary32.classify (bits : UInt32) : Binary32 :=
  let negative := bits >>> 31 == 1
  let field := ((bits >>> 23) &&& 0xFF).toNat
  let fraction := (bits &&& 0x7FFFFF).toNat
  if field = 255 then if fraction = 0 then .infinite negative else .nan
  else if field = 0 then .finite negative fraction (-149) false
  else .finite negative (fraction + 0x800000) (field - 150) (fraction == 0 && field != 1)

end DaqServer.Number
