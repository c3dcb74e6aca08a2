import DaqServer.Text.Utf8
import Mathlib.Tactic.IntervalCases

/-!
# Written text reads back

Each character is read from the bytes that it was written as, so that text which was written as
UTF-8 is read without loss. The ranges that a lead byte promises leave out just the shorter forms,
the surrogates and what lies beyond the last character.
-/

namespace DaqServer.Utf8

theorem readChar_of_lead {b second : UInt8} {lead : Lead} (hascii : ¬ b < 0x80)
    (hlead : Lead.of? b = some lead) (hlow : lead.low ≤ second) (hhigh : second ≤ lead.high)
    (rest : Bytes) :
    readChar b (second :: rest) = tails lead.more (extend lead.bits second) rest := by
  simp only [readChar, if_neg hascii, hlead]
  exact if_pos ⟨hlow, hhigh⟩

theorem lead_two (top : Nat) (hleast : 2 ≤ top) (hmost : top < 32) :
    ¬ UInt8.ofNat (top + 0xC0) < 0x80 ∧
      Lead.of? (UInt8.ofNat (top + 0xC0)) = some ⟨0x80, 0xBF, 0, top⟩ := by
  interval_cases top <;> exact ⟨by decide, rfl⟩

theorem lead_three (top : Nat) (h : top < 16) :
    ¬ UInt8.ofNat (top + 0xE0) < 0x80 ∧
      Lead.of? (UInt8.ofNat (top + 0xE0)) =
        some ⟨if top = 0 then 0xA0 else 0x80, if top = 13 then 0x9F else 0xBF, 1, top⟩ := by
  interval_cases top <;> exact ⟨by decide, rfl⟩

theorem lead_four (top : Nat) (h : top < 5) :
    ¬ UInt8.ofNat (top + 0xF0) < 0x80 ∧
      Lead.of? (UInt8.ofNat (top + 0xF0)) =
        some ⟨if top = 0 then 0x90 else 0x80, if top = 4 then 0x8F else 0xBF, 2, top⟩ := by
  interval_cases top <;> exact ⟨by decide, rfl⟩

def tailByte (n : Nat) : UInt8 := UInt8.ofNat (n % 64 + 0x80)

theorem toNat_tailByte (n : Nat) : (tailByte n).toNat = n % 64 + 0x80 :=
  UInt8.toNat_ofNat_of_lt (by change n % 64 + 128 < 256; omega)

theorem tailByte_between (n : Nat) : 0x80 ≤ tailByte n ∧ tailByte n ≤ 0xBF := by
  rw [UInt8.le_iff_toNat_le, UInt8.le_iff_toNat_le, toNat_tailByte]
  change 128 ≤ n % 64 + 128 ∧ n % 64 + 128 ≤ 191
  omega

theorem isTail_tailByte (n : Nat) : isTail (tailByte n) = true := by
  rw [isTail, Bool.and_eq_true, decide_eq_true_eq, decide_eq_true_eq]
  exact tailByte_between n

/-- A tail byte lies above the lower end of a range that some lead bytes narrow. -/
theorem ite_le_tailByte {p : Prop} [Decidable p] {low : UInt8} {n : Nat}
    (h : p → low.toNat ≤ n % 64 + 0x80) : (if p then low else 0x80) ≤ tailByte n := by
  split
  · rename_i hp
    rw [UInt8.le_iff_toNat_le, toNat_tailByte]
    exact h hp
  · exact (tailByte_between n).1

theorem tailByte_le_ite {p : Prop} [Decidable p] {high : UInt8} {n : Nat}
    (h : p → n % 64 + 0x80 ≤ high.toNat) : tailByte n ≤ if p then high else 0xBF := by
  split
  · rename_i hp
    rw [UInt8.le_iff_toNat_le, toNat_tailByte]
    exact h hp
  · exact (tailByte_between n).2

theorem extend_tailByte (value n : Nat) : extend value (tailByte n) = value * 64 + n % 64 := by
  have hbits : (tailByte n &&& 0x3F).toNat = n % 64 := by
    rw [UInt8.toNat_and, toNat_tailByte]
    change (n % 64 + 128) &&& (2 ^ 6 - 1) = n % 64
    rw [Nat.and_two_pow_sub_one_eq_mod]
    omega
  rw [extend, hbits]

theorem tails_tailByte (more value n : Nat) (rest : Bytes) :
    tails (more + 1) value (tailByte n :: rest) = tails more (value * 64 + n % 64) rest := by
  rw [tails, if_pos (isTail_tailByte n), extend_tailByte]

variable (c : Char) (rest : Bytes)

theorem not_surrogate : c.toNat < 0xD800 ∨ 0xDFFF < c.toNat ∧ c.toNat < 0x110000 := c.valid

theorem readChar_one (h : c.toNat < 0x80) :
    readChar (UInt8.ofNat c.toNat) rest = (c, rest) := by
  have hbyte : (UInt8.ofNat c.toNat).toNat = c.toNat :=
    UInt8.toNat_ofNat_of_lt (Nat.lt_trans h (by decide))
  have hascii : UInt8.ofNat c.toNat < 0x80 := by
    rw [UInt8.lt_iff_toNat_lt, hbyte]
    exact h
  simp only [readChar, if_pos hascii, hbyte, Char.ofNat_toNat]

theorem readChar_two (hleast : 0x80 ≤ c.toNat) (hmost : c.toNat < 0x800) :
    readChar (UInt8.ofNat (c.toNat / 64 + 0xC0)) (tailByte c.toNat :: rest) = (c, rest) := by
  obtain ⟨hascii, hlead⟩ := lead_two (c.toNat / 64) (by omega) (by omega)
  obtain ⟨hlow, hhigh⟩ := tailByte_between c.toNat
  rw [readChar_of_lead hascii hlead hlow hhigh, extend_tailByte, tails]
  have hvalue : c.toNat / 64 * 64 + c.toNat % 64 = c.toNat := by omega
  rw [hvalue, Char.ofNat_toNat]

theorem readChar_three (hleast : 0x800 ≤ c.toNat) (hmost : c.toNat < 0x10000) :
    readChar (UInt8.ofNat (c.toNat / 4096 + 0xE0))
      (tailByte (c.toNat / 64) :: tailByte c.toNat :: rest) = (c, rest) := by
  obtain ⟨hascii, hlead⟩ := lead_three (c.toNat / 4096) (by omega)
  have hvalid := not_surrogate c
  rw [readChar_of_lead hascii hlead]
  · rw [extend_tailByte, tails_tailByte, tails]
    have hvalue : (c.toNat / 4096 * 64 + c.toNat / 64 % 64) * 64 + c.toNat % 64 = c.toNat := by
      omega
    rw [hvalue, Char.ofNat_toNat]
  · exact ite_le_tailByte fun hzero => by change 160 ≤ _; omega
  · exact tailByte_le_ite fun hsurrogate => by change _ ≤ 159; omega

theorem readChar_four (hleast : 0x10000 ≤ c.toNat) :
    readChar (UInt8.ofNat (c.toNat / 262144 + 0xF0))
      (tailByte (c.toNat / 4096) :: tailByte (c.toNat / 64) :: tailByte c.toNat :: rest) =
        (c, rest) := by
  have hvalid := not_surrogate c
  obtain ⟨hascii, hlead⟩ := lead_four (c.toNat / 262144) (by omega)
  rw [readChar_of_lead hascii hlead]
  · rw [extend_tailByte, tails_tailByte, tails_tailByte, tails]
    have hvalue : ((c.toNat / 262144 * 64 + c.toNat / 4096 % 64) * 64 + c.toNat / 64 % 64) * 64 +
        c.toNat % 64 = c.toNat := by
      omega
    rw [hvalue, Char.ofNat_toNat]
  · exact ite_le_tailByte fun hzero => by change 144 ≤ _; omega
  · exact tailByte_le_ite fun hlast => by change _ ≤ 143; omega

/-- A character is read from its bytes, and nothing of what follows them. -/
theorem readChar_utf8EncodeChar :
    ∃ b bytes, String.utf8EncodeChar c = b :: bytes ∧ readChar b (bytes ++ rest) = (c, rest) := by
  have hvalid := not_surrogate c
  have hval : c.val.toNat = c.toNat := rfl
  rw [String.utf8EncodeChar, hval]
  split
  · exact ⟨_, _, rfl, readChar_one c rest (by omega)⟩
  split
  · rw [Nat.mod_eq_of_lt (a := c.toNat / 64) (by omega)]
    exact ⟨_, _, rfl, readChar_two c rest (by omega) (by omega)⟩
  split
  · rw [Nat.mod_eq_of_lt (a := c.toNat / 4096) (by omega)]
    exact ⟨_, _, rfl, readChar_three c rest (by omega) (by omega)⟩
  · rw [Nat.mod_eq_of_lt (a := c.toNat / 262144) (by omega)]
    exact ⟨_, _, rfl, readChar_four c rest (by omega)⟩

theorem decodeChars_encodeChars (cs : List Char) : decodeChars (encodeChars cs) = cs := by
  induction cs with
  | nil => rw [encodeChars_nil, decodeChars]
  | cons c cs ih =>
      obtain ⟨b, bytes, hbytes, hread⟩ := readChar_utf8EncodeChar c (encodeChars cs)
      rw [encodeChars_cons, hbytes, List.cons_append, decodeChars, hread, ih]

/-- Text that was written as UTF-8 is read without loss. -/
theorem decodeLossy_encode (s : String) : decodeLossy (encode s) = s := by
  rw [decodeLossy, encode, decodeChars_encodeChars, String.ofList_toList]

end DaqServer.Utf8
