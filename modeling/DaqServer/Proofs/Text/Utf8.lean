import DaqServer.Text.Utf8

/-!
# The length of text in UTF-8

Text that is cut to a limit keeps it. Text that was read without failing takes at most three times
the bytes it was read from: a character of three bytes or fewer may stand for one byte, a longer one
stands for at least two.
-/

namespace DaqServer.Utf8

theorem length_encodeChars_cons (c : Char) (cs : List Char) :
    (encodeChars (c :: cs)).length = c.utf8Size + (encodeChars cs).length := by
  rw [encodeChars_cons, List.length_append, String.length_utf8EncodeChar]

theorem encode_ofList (cs : List Char) : encode (String.ofList cs) = encodeChars cs := by
  rw [encode, String.toList_ofList]

theorem length_fitChars_le (limit : Nat) (cs : List Char) :
    (encodeChars (fitChars limit cs)).length ≤ limit := by
  induction cs generalizing limit with
  | nil => exact Nat.zero_le limit
  | cons c cs ih =>
      rw [fitChars]
      split
      · rename_i hfits
        rw [length_encodeChars_cons]
        have := ih (limit - c.utf8Size)
        omega
      · exact Nat.zero_le limit

theorem length_encode_fit_le (limit : Nat) (s : String) :
    (encode (fit limit s)).length ≤ limit := by
  rw [fit, encode_ofList]
  exact length_fitChars_le limit s.toList

theorem utf8Size_ofNat_of_lt {n : Nat} (h : n < 128) : (Char.ofNat n).utf8Size = 1 := by
  have hvalid : n.isValidChar := .inl (Nat.lt_trans h (by decide))
  rw [Char.utf8Size_eq_one_iff, Char.ofNat, dif_pos hvalid, UInt32.le_iff_toNat_le]
  exact Nat.le_of_lt_succ h

/-- A character takes at most three times the bytes that it was read from. -/
theorem utf8Size_readChar_le (b : UInt8) (rest : Bytes) :
    (readChar b rest).1.utf8Size + 3 * (readChar b rest).2.length ≤ 3 * (rest.length + 1) := by
  have hreplacement : replacement.utf8Size = 3 := by decide
  unfold readChar
  split
  · rename_i hascii
    rw [utf8Size_ofNat_of_lt (UInt8.lt_iff_toNat_lt.mp hascii)]
    dsimp only
    omega
  · split
    · rename_i lead second rest _
      rw [List.length_cons]
      split
      · have hchar := (tails lead.more (extend lead.bits second) rest).1.utf8Size_le_four
        have hrest := length_tails_le lead.more (extend lead.bits second) rest
        omega
      · rw [hreplacement, List.length_cons]
        omega
    · rw [hreplacement]
      dsimp only
      omega

theorem length_decodeChars_le (bs : Bytes) :
    (encodeChars (decodeChars bs)).length ≤ 3 * bs.length := by
  induction hn : bs.length using Nat.strongRecOn generalizing bs with
  | ind n ih =>
      cases bs with
      | nil =>
          rw [decodeChars]
          exact Nat.zero_le _
      | cons b rest =>
          have hchar := utf8Size_readChar_le b rest
          have hshorter := length_readChar_le b rest
          rw [List.length_cons] at hn
          have hrest := ih _ (by omega) (readChar b rest).2 rfl
          rw [decodeChars, length_encodeChars_cons]
          omega

theorem length_encode_decodeLossy_le (bs : Bytes) :
    (encode (decodeLossy bs)).length ≤ 3 * bs.length := by
  rw [decodeLossy, encode_ofList]
  exact length_decodeChars_le bs

theorem readChar_of_no_lead {b : UInt8} (hascii : ¬ b < 0x80) (hlead : Lead.of? b = none)
    (rest : Bytes) : readChar b rest = (replacement, rest) := by
  simp only [readChar, if_neg hascii, hlead]

/-- Bytes that begin no character take just three times as many when they are read. -/
theorem length_encode_decodeLossy_replicate (n : Nat) :
    (encode (decodeLossy (List.replicate n 0xFF))).length = 3 * n := by
  rw [decodeLossy, encode_ofList]
  induction n with
  | zero =>
      rw [List.replicate_zero, decodeChars]
      rfl
  | succ n ih =>
      rw [List.replicate_succ, decodeChars, readChar_of_no_lead (by decide) rfl,
        length_encodeChars_cons, ih, Nat.mul_succ, Nat.add_comm]
      rfl

end DaqServer.Utf8
