import DaqServer.Proofs.Text.Utf8
import DaqServer.Text.Boundary

/-!
# A text that is cut to fit is cut between characters

Going back from the limit ends where the longest leading run of characters ends that fits. Less than
a character of the limit is left over.
-/

namespace DaqServer.Utf8

theorem fitChars_zero (cs : List Char) : fitChars 0 cs = [] := by
  cases cs with
  | nil => rfl
  | cons c cs => exact if_neg (Nat.not_le_of_lt c.utf8Size_pos)

theorem isBoundary_zero (cs : List Char) : isBoundary cs 0 = true := by
  cases cs <;> rfl

/-- What fits up to a boundary ends there. -/
theorem length_fitChars_of_isBoundary {cs : List Char} {offset : Nat}
    (h : isBoundary cs offset = true) : (encodeChars (fitChars offset cs)).length = offset := by
  induction cs generalizing offset with
  | nil =>
      cases offset with
      | zero => rfl
      | succ offset => cases h
  | cons c cs ih =>
      cases offset with
      | zero => rw [fitChars_zero]; rfl
      | succ offset =>
          rw [isBoundary, Bool.and_eq_true, decide_eq_true_eq] at h
          rw [fitChars, if_pos h.1, length_encodeChars_cons, ih h.2]
          omega

/-- No more fits up to an offset within a character than up to the byte before it. -/
theorem fitChars_of_not_isBoundary {cs : List Char} {offset : Nat}
    (h : isBoundary cs (offset + 1) = false) : fitChars (offset + 1) cs = fitChars offset cs := by
  induction cs generalizing offset with
  | nil => rfl
  | cons c cs ih =>
      have hpos := c.utf8Size_pos
      rw [isBoundary] at h
      rw [fitChars, fitChars]
      by_cases hfits : c.utf8Size ≤ offset + 1
      · have hrest : isBoundary cs (offset + 1 - c.utf8Size) = false := by
          simpa [hfits] using h
        -- The character ends before the offset: a boundary would be where it ends.
        have hbefore : c.utf8Size ≤ offset := by
          refine Nat.le_of_not_lt fun hlast => ?_
          have hzero : offset + 1 - c.utf8Size = 0 := by omega
          rw [hzero, isBoundary_zero] at hrest
          cases hrest
        have hsucc : offset + 1 - c.utf8Size = offset - c.utf8Size + 1 := by omega
        rw [hsucc] at hrest
        rw [if_pos hfits, if_pos hbefore, hsucc, ih hrest]
      · rw [if_neg hfits, if_neg (by omega)]

theorem boundaryBefore_eq (cs : List Char) (offset : Nat) :
    boundaryBefore cs offset = .ok (encodeChars (fitChars offset cs)).length := by
  induction offset with
  | zero => rw [boundaryBefore, if_pos (isBoundary_zero cs), fitChars_zero]; rfl
  | succ offset ih =>
      rw [boundaryBefore]
      by_cases h : isBoundary cs (offset + 1) = true
      · rw [if_pos h, length_fitChars_of_isBoundary h]
      · rw [if_neg h, ih, fitChars_of_not_isBoundary (Bool.eq_false_iff.mpr h)]

theorem cutAt_fitChars (limit : Nat) (cs : List Char) :
    cutAt cs (encodeChars (fitChars limit cs)).length = .ok (fitChars limit cs) := by
  induction cs generalizing limit with
  | nil => rfl
  | cons c cs ih =>
      rw [fitChars]
      split
      · have hpos := c.utf8Size_pos
        rw [length_encodeChars_cons]
        obtain ⟨n, hn⟩ : ∃ n, c.utf8Size + (encodeChars (fitChars (limit - c.utf8Size) cs)).length =
            n + 1 := ⟨_, (Nat.succ_pred_eq_of_pos (by omega)).symm⟩
        have hrest : n + 1 - c.utf8Size =
            (encodeChars (fitChars (limit - c.utf8Size) cs)).length := by omega
        rw [hn, cutAt, if_pos (by omega), hrest, ih]
        rfl
      · rfl

/-- Beyond the end of a text a limit has no effect. -/
theorem fitChars_min (limit : Nat) (cs : List Char) :
    fitChars (min (encodeChars cs).length limit) cs = fitChars limit cs := by
  induction cs generalizing limit with
  | nil => rfl
  | cons c cs ih =>
      rw [fitChars, fitChars, length_encodeChars_cons]
      by_cases hfits : c.utf8Size ≤ limit
      · have hrest : min (c.utf8Size + (encodeChars cs).length) limit - c.utf8Size =
            min (encodeChars cs).length (limit - c.utf8Size) := by omega
        rw [if_pos hfits, if_pos (by omega), hrest, ih]
      · rw [if_neg hfits, if_neg (by omega)]

theorem cutToFit_eq (limit : Nat) (s : String) : cutToFit limit s = .ok (fit limit s) := by
  rw [cutToFit, boundaryBefore_eq, encode, fitChars_min]
  change (cutAt s.toList _).bind _ = _
  rw [cutAt_fitChars]
  rfl

/-! ### How much is kept -/

theorem fitChars_isPrefix (limit : Nat) (cs : List Char) : fitChars limit cs <+: cs := by
  induction cs generalizing limit with
  | nil => exact List.nil_prefix
  | cons c cs ih =>
      rw [fitChars]
      split
      · exact (List.prefix_cons_inj c).mpr (ih _)
      · exact List.nil_prefix

/-- Every leading run of characters that fits is part of the longest one. -/
theorem isPrefix_fitChars {limit : Nat} {run cs : List Char} (hrun : run <+: cs)
    (hfits : (encodeChars run).length ≤ limit) : run <+: fitChars limit cs := by
  induction cs generalizing limit run with
  | nil => exact hrun
  | cons c cs ih =>
      cases run with
      | nil => exact List.nil_prefix
      | cons d run =>
          obtain ⟨rfl, hrest⟩ := List.cons_prefix_cons.mp hrun
          rw [length_encodeChars_cons] at hfits
          rw [fitChars, if_pos (by omega)]
          exact (List.prefix_cons_inj d).mpr (ih hrest (by omega))

theorem fitChars_of_fits {limit : Nat} {cs : List Char} (h : (encodeChars cs).length ≤ limit) :
    fitChars limit cs = cs :=
  (fitChars_isPrefix limit cs).eq_of_length_le (isPrefix_fitChars List.prefix_rfl h).length_le

/-- What is cut off begins with a character that has no room, and none has more than four bytes. -/
theorem limit_le_length_fitChars {limit : Nat} {cs : List Char}
    (h : limit < (encodeChars cs).length) :
    limit ≤ (encodeChars (fitChars limit cs)).length + 3 := by
  induction cs generalizing limit with
  | nil => exact absurd h (Nat.not_lt_zero limit)
  | cons c cs ih =>
      rw [length_encodeChars_cons] at h
      rw [fitChars]
      split
      · have hover : limit - c.utf8Size < (encodeChars cs).length := by omega
        have hrest := ih hover
        rw [length_encodeChars_cons]
        omega
      · have hsize := c.utf8Size_le_four
        omega

/-- A text is what is left of another when that is cut to a byte limit: of the leading parts that
end between characters and take no more bytes, it is the longest. -/
structure CutTo (limit : Nat) (s cut : String) : Prop where
  leads : cut.toList <+: s.toList
  fits : (encode cut).length ≤ limit
  longest : ∀ part : String, part.toList <+: s.toList → (encode part).length ≤ limit →
    part.toList <+: cut.toList

theorem cutTo_fit (limit : Nat) (s : String) : CutTo limit s (fit limit s) where
  leads := by
    rw [fit, String.toList_ofList]
    exact fitChars_isPrefix limit s.toList
  fits := length_encode_fit_le limit s
  longest part hpart hfits := by
    rw [fit, String.toList_ofList]
    exact isPrefix_fitChars hpart hfits

theorem fit_of_fits {limit : Nat} {s : String} (h : (encode s).length ≤ limit) :
    fit limit s = s := by
  rw [fit, fitChars_of_fits h, String.ofList_toList]

theorem limit_le_length_fit {limit : Nat} {s : String} (h : limit < (encode s).length) :
    limit ≤ (encode (fit limit s)).length + 3 := by
  rw [fit, encode_ofList]
  exact limit_le_length_fitChars h

end DaqServer.Utf8
