import DaqServer.Number.Binary

/-!
# The shortest decimal of a 32-bit number

`shortest` finds the decimal with the fewest digits among those that read back as the given number,
and among these the nearest to it, the larger one of two that are equally near. `Layout` holds what
the two printed forms differ in.
-/

namespace DaqServer.Number

/-- The positive decimal `digits * 10 ^ exponent`. -/
structure Decimal where
  digits : Nat
  exponent : Int
  deriving DecidableEq, Repr

/-- The multiple of `10 ^ k` nearest to `mantissa * 2 ^ exponent`, provided that it reads back as
that number. The reals that do so reach half a step up and half a step down, or a quarter step down
where the next smaller number is only half a step away; the ends belong to them when the mantissa is
even. Everything is measured in quarter steps over a common denominator. -/
def onGrid (mantissa : Nat) (exponent : Int) (halfBelow : Bool) (k : Int) : Option Decimal :=
  let unit := exponent - 2
  let scale := Nat.pow 10 (-k).toNat <<< unit.toNat
  let step := Nat.pow 10 k.toNat <<< (-unit).toNat
  let value := 4 * mantissa * scale
  let low := (4 * mantissa - (if halfBelow then 1 else 2)) * scale
  let high := (4 * mantissa + 2) * scale
  let within (n : Nat) : Bool :=
    if mantissa % 2 = 0 then low ≤ n * step && n * step ≤ high
    else low < n * step && n * step < high
  let below := value / step
  let above := below + 1
  let nearer := if above * step - value ≤ value - below * step then above else below
  let farther := if nearer = above then below else above
  if nearer ≠ 0 ∧ within nearer then some ⟨nearer, k⟩
  else if farther ≠ 0 ∧ within farther then some ⟨farther, k⟩
  else none

/-- The shortest decimal that reads back as `mantissa * 2 ^ exponent`: the hit on the coarsest grid,
of all grids from the tens of the largest number down to below the smallest. -/
def shortest (mantissa : Nat) (exponent : Int) (halfBelow : Bool) : Decimal :=
  ((List.range 90).findSome? fun (i : Nat) => onGrid mantissa exponent halfBelow (39 - i)).getD
    ⟨0, 0⟩

/-- How a number is laid out: whether a whole number keeps a `.0`, and whether an exponent is
written for magnitudes below `1e-4` and from `1e16` on. -/
structure Layout where
  keepPoint : Bool
  exponents : Bool

def Layout.plain : Layout := ⟨false, false⟩

def Layout.pointed : Layout := ⟨true, true⟩

def Layout.positional (l : Layout) (d : Decimal) : String :=
  let text := toString d.digits
  if 0 ≤ d.exponent then
    text ++ String.ofList (List.replicate d.exponent.toNat '0') ++
      (if l.keepPoint then ".0" else "")
  else
    let places := (-d.exponent).toNat
    let padded := List.replicate (places + 1 - text.length) '0' ++ text.toList
    let whole := padded.length - places
    String.ofList (padded.take whole ++ '.' :: padded.drop whole)

def Layout.scientific (d : Decimal) : String :=
  let digits := (toString d.digits).toList
  let power := d.exponent + (digits.length - 1 : Nat)
  let fraction := if digits.length ≤ 1 then [] else '.' :: digits.drop 1
  String.ofList (digits.take 1 ++ fraction) ++ "e" ++ toString power

def Layout.magnitude (l : Layout) (d : Decimal) : String :=
  let power := d.exponent + ((toString d.digits).length - 1 : Nat)
  if l.exponents ∧ (power < -4 ∨ 16 ≤ power) then Layout.scientific d else l.positional d

def Layout.text (l : Layout) (bits : UInt32) : String :=
  match Binary32.classify bits with
  | .nan => "NaN"
  | .infinite negative => if negative then "-inf" else "inf"
  | .finite negative 0 _ _ =>
      (if negative then "-0" else "0") ++ (if l.keepPoint then ".0" else "")
  | .finite negative mantissa exponent halfBelow =>
      (if negative then "-" else "") ++ l.magnitude (shortest mantissa exponent halfBelow)

end DaqServer.Number
