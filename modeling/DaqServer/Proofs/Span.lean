import DaqServer.Span.Words

/-!
# Machine words compute with spans

The operations on words, with their carries and their range checks, are those on spans: they make
the same sums and products, and none where the span is beyond the longest.
-/

namespace DaqServer

namespace SpanWords

variable (w v : SpanWords)

theorem span_ofUnits {perSecond : UInt64} {unit : UInt32}
    (h : perSecond.toNat * unit.toNat = Span.second) (n : UInt64) :
    (ofUnits perSecond unit h n).span = ⟨n.toNat * unit.toNat⟩ := by
  have hseconds : (n / perSecond).toNat * Span.second =
      perSecond.toNat * (n.toNat / perSecond.toNat) * unit.toNat := by
    rw [UInt64.toNat_div, ← h, Nat.mul_comm perSecond.toNat (n.toNat / _), Nat.mul_assoc]
  refine congrArg Span.mk ?_
  change (n / perSecond).toNat * Span.second + ((n % perSecond).toUInt32 * unit).toNat = _
  rw [hseconds, toNat_rest h, ← Nat.add_mul, Nat.div_add_mod]

theorem span_ofMillis (n : UInt64) : (ofMillis n).span = .ofMillis n := span_ofUnits rfl n

theorem span_ofMicros (n : UInt64) : (ofMicros n).span = .ofMicros n := span_ofUnits rfl n

theorem word?_bind {α : Type} (seconds carry : Nat) (f : UInt64 → α) :
    ((word? seconds).bind fun word => (word? (word.toNat + carry)).map f) =
      (word? (seconds + carry)).map f := by
  rcases Nat.lt_or_ge seconds UInt64.size with hlt | hge
  · have hword : word? seconds = some (.ofNat seconds) := if_pos hlt
    rw [hword, Option.bind_some, UInt64.toNat_ofNat_of_lt' hlt]
  · have hword : word? seconds = none := if_neg (Nat.not_lt.mpr hge)
    have hsum : word? (seconds + carry) = none :=
      if_neg (Nat.not_lt.mpr (Nat.le_trans hge (Nat.le_add_right _ _)))
    rw [hword, hsum]
    rfl

theorem span_word? (seconds : Nat) (nanoseconds : UInt32) (h : nanoseconds.toNat < Span.second) :
    ((word? seconds).map fun word => span ⟨word, nanoseconds, h⟩) =
      if seconds < UInt64.size then some (.ofParts seconds nanoseconds.toNat) else none := by
  rw [word?]
  split
  · rename_i hlt
    rw [Option.map_some, span, UInt64.toNat_ofNat_of_lt' hlt]
  · rfl

end SpanWords

namespace Span

variable {s t : Span} {seconds nanoseconds count : Nat}

/-- A span is none too long if a word holds its seconds. -/
theorem ofParts_le_largest (h : nanoseconds < second) :
    (ofParts seconds nanoseconds).nanoseconds ≤ largest.nanoseconds ↔ seconds < UInt64.size := by
  change seconds * second + nanoseconds ≤ 0xFFFFFFFFFFFFFFFF * second + (second - 1) ↔
    seconds < 0x10000000000000000
  simp only [second] at *
  omega

theorem add?_of_parts (h : nanoseconds < second)
    (hsum : s.nanoseconds + t.nanoseconds = (ofParts seconds nanoseconds).nanoseconds) :
    s.add? t = if seconds < UInt64.size then some (ofParts seconds nanoseconds) else none := by
  simp only [add?, hsum, ofParts_le_largest h]

theorem times_of_parts (h : nanoseconds < second)
    (hproduct : s.nanoseconds * count = (ofParts seconds nanoseconds).nanoseconds) :
    s.times count = if seconds < UInt64.size then ofParts seconds nanoseconds else largest := by
  rw [times, hproduct]
  split
  · rename_i hlt
    rw [Nat.min_eq_left ((ofParts_le_largest h).mpr hlt)]
  · rename_i hge
    rw [Nat.min_eq_right (Nat.le_of_not_le (mt (ofParts_le_largest h).mp hge))]

end Span

namespace SpanWords

variable (w v : SpanWords)

/-- A sum of words, with its carry, is the sum of the spans. -/
theorem span_add? : (w.add? v).map span = w.span.add? v.span := by
  have hsum : w.span.nanoseconds + v.span.nanoseconds =
      (w.seconds.toNat + v.seconds.toNat) * Span.second +
        (w.nanoseconds.toNat + v.nanoseconds.toNat) := by
    rw [Nat.add_mul, Nat.add_add_add_comm]
    rfl
  rw [add?]
  split
  · rename_i hlt
    have hparts : w.span.nanoseconds + v.span.nanoseconds = (Span.ofParts
        (w.seconds.toNat + v.seconds.toNat) (w.nanoseconds + v.nanoseconds).toNat).nanoseconds := by
      rw [hsum, ← toNat_add_nanoseconds]
      rfl
    rw [Span.add?_of_parts hlt hparts, Option.map_map]
    exact span_word? _ _ hlt
  · rename_i hcarry
    obtain ⟨hcarried, hlt⟩ := toNat_carried hcarry
    have hparts : w.span.nanoseconds + v.span.nanoseconds = (Span.ofParts
        (w.seconds.toNat + v.seconds.toNat + 1)
        (w.nanoseconds + v.nanoseconds - 1000000000).toNat).nanoseconds := by
      rw [hsum, ← hcarried, Nat.add_comm _ Span.second, ← Nat.add_assoc, ← Nat.succ_mul]
      rfl
    rw [Span.add?_of_parts hlt hparts, word?_bind, Option.map_map]
    exact span_word? _ _ hlt

/-- A product of words carries the seconds that its nanoseconds make up. -/
theorem span_times? (count : UInt32) :
    let seconds := w.seconds.toNat * count.toNat + w.nanoseconds.toNat * count.toNat / Span.second
    (w.times? count).map span =
      if seconds < UInt64.size then
        some (.ofParts seconds (w.nanoseconds.toNat * count.toNat % Span.second))
      else none := by
  have hseconds : (w.nanoseconds.toUInt64 * count.toUInt64 / 1000000000).toNat =
      w.nanoseconds.toNat * count.toNat / Span.second := by
    rw [UInt64.toNat_div, toNat_mul_nanoseconds]
    rfl
  rw [times?, word?_bind, Option.map_map, hseconds, ← toNat_mul_nanoseconds,
    ← toNat_below_second]
  exact span_word? _ _ _

/-- A product of words, with its carry, is the product of the span. -/
theorem span_times (count : UInt32) : (w.times count).span = w.span.times count.toNat := by
  have hproduct : w.span.nanoseconds * count.toNat = (Span.ofParts
      (w.seconds.toNat * count.toNat + w.nanoseconds.toNat * count.toNat / Span.second)
      (w.nanoseconds.toNat * count.toNat % Span.second)).nanoseconds := by
    change (w.seconds.toNat * Span.second + w.nanoseconds.toNat) * count.toNat =
      (w.seconds.toNat * count.toNat + w.nanoseconds.toNat * count.toNat / Span.second) *
        Span.second + _
    rw [Nat.add_mul _ _ Span.second, Nat.add_assoc, Nat.div_add_mod', Nat.add_mul,
      Nat.mul_right_comm]
  have hspan := w.span_times? count
  rw [Span.times_of_parts (Nat.mod_lt _ (by decide)) hproduct, times]
  dsimp only at hspan
  split at hspan
  · rename_i hfits
    obtain ⟨product, hsome, hproduct⟩ := Option.map_eq_some_iff.mp hspan
    rw [hsome, if_pos hfits]
    exact hproduct
  · rename_i hlong
    rw [Option.map_eq_none_iff.mp hspan, if_neg hlong]
    rfl

end SpanWords

end DaqServer
