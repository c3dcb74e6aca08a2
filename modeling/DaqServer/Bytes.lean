/-!
# Byte strings

Words are laid out with the least significant byte first. `Bytes.ofNat` writes a number in a fixed
number of bytes and `Bytes.toNat` reads any number of them back; `toNat_ofNat` says that only the
part of the number beyond its width is lost, `ofNat_toNat` that bytes are read without loss.
-/

namespace DaqServer

abbrev Bytes := List UInt8

namespace Bytes

/-- The number whose base-256 digits are the given bytes, least significant first. -/
def toNat : Bytes → Nat
  | [] => 0
  | b :: bs => b.toNat + 256 * toNat bs

@[simp] theorem toNat_nil : toNat [] = 0 := rfl

theorem toNat_cons (b : UInt8) (bs : Bytes) : toNat (b :: bs) = b.toNat + 256 * toNat bs := rfl

/-- The lowest `width` base-256 digits of a number, least significant first. -/
def ofNat : (width : Nat) → Nat → Bytes
  | 0, _ => []
  | width + 1, n => UInt8.ofNat n :: ofNat width (n / 256)

@[simp] theorem length_ofNat (width n : Nat) : (ofNat width n).length = width := by
  induction width generalizing n with
  | zero => rfl
  | succ width ih => simp [ofNat, ih]

/-- Reading back what was written keeps the number modulo its width. -/
theorem toNat_ofNat (width n : Nat) : toNat (ofNat width n) = n % Nat.pow 256 width := by
  induction width generalizing n with
  | zero => simp [ofNat, Nat.mod_one]
  | succ width ih =>
      have h : Nat.pow 256 (width + 1) = 256 * Nat.pow 256 width := Nat.pow_succ'
      rw [ofNat, toNat_cons, ih, h, Nat.mod_mul]
      simp

/-- Bytes are what their number is written as in as many bytes. -/
theorem ofNat_toNat (bs : Bytes) : ofNat bs.length (toNat bs) = bs := by
  induction bs with
  | nil => rfl
  | cons b bs ih =>
      have hlow : UInt8.ofNat (b.toNat + 256 * toNat bs) = b := by
        rw [← UInt8.toNat_inj]
        simp
      have hhigh : (b.toNat + 256 * toNat bs) / 256 = toNat bs := by
        have := b.toNat_lt
        omega
      rw [List.length_cons, ofNat, toNat_cons, hlow, hhigh, ih]

def ofUInt16 (w : UInt16) : Bytes := ofNat 2 w.toNat

def ofUInt32 (w : UInt32) : Bytes := ofNat 4 w.toNat

def ofUInt64 (w : UInt64) : Bytes := ofNat 8 w.toNat

/-- The 32-bit word held by the first four bytes; missing bytes count as zero. -/
def toUInt32 (bs : Bytes) : UInt32 := UInt32.ofNat (toNat (bs.take 4))

def toUInt16 (low high : UInt8) : UInt16 := UInt16.ofNat (toNat [low, high])

theorem ofUInt16_toUInt16 (low high : UInt8) : ofUInt16 (toUInt16 low high) = [low, high] := by
  have hlt : toNat [low, high] < 2 ^ 16 := by
    have hlow := low.toNat_lt
    have hhigh := high.toNat_lt
    rw [toNat_cons, toNat_cons, toNat_nil]
    omega
  rw [ofUInt16, toUInt16, UInt16.toNat_ofNat', Nat.mod_eq_of_lt hlt]
  exact ofNat_toNat [low, high]

/-- The bytes of a word read back as the word. -/
theorem exists_ofUInt16_eq (w : UInt16) :
    ∃ low high, ofUInt16 w = [low, high] ∧ toUInt16 low high = w := by
  have hw : w.toNat < Nat.pow 256 2 := w.toNat_lt
  have hread : toNat (ofUInt16 w) = w.toNat := by rw [ofUInt16, toNat_ofNat, Nat.mod_eq_of_lt hw]
  exact ⟨_, _, rfl, (congrArg UInt16.ofNat hread).trans UInt16.ofNat_toNat⟩

/-- A word that has room in some bytes is read back from them. -/
theorem toUInt32_ofNat {width : Nat} {word : UInt32} (hwidth : width ≤ 4)
    (hword : word.toNat < Nat.pow 256 width) : toUInt32 (ofNat width word.toNat) = word := by
  have htake : (ofNat width word.toNat).take 4 = ofNat width word.toNat :=
    List.take_of_length_le (by rwa [length_ofNat])
  rw [toUInt32, htake, toNat_ofNat, Nat.mod_eq_of_lt hword, UInt32.ofNat_toNat]

end Bytes

end DaqServer
