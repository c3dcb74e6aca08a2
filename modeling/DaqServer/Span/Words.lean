import DaqServer.Span

/-!
# Spans in machine words

A machine holds a span as whole seconds in a word of 64 bits and further nanoseconds, fewer than a
second, in a word of 32 bits. A sum carries the second that its nanoseconds may make up; a product
carries the seconds that its nanoseconds make up. There is no sum and no product whose seconds do
not fit their word.
-/

namespace DaqServer

/-- A span in machine words. -/
structure SpanWords where
  seconds : UInt64
  nanoseconds : UInt32
  below_second : nanoseconds.toNat < Span.second

namespace SpanWords

def span (w : SpanWords) : Span := .ofParts w.seconds.toNat w.nanoseconds.toNat

def largest : SpanWords := ⟨0xFFFFFFFFFFFFFFFF, 999999999, by decide⟩

/-! ## From other units -/

/-- What is left of a number of units without the whole seconds is less than a second. -/
theorem rest_lt {perSecond unit : Nat} (h : perSecond * unit = Span.second) (n : Nat) :
    n % perSecond * unit < Span.second := by
  have hpos : 0 < perSecond * unit := h ▸ (by decide : 0 < Span.second)
  have hrest : n % perSecond < perSecond := Nat.mod_lt _ (Nat.pos_of_mul_pos_right hpos)
  exact h ▸ Nat.mul_lt_mul_of_pos_right hrest (Nat.pos_of_mul_pos_left hpos)

theorem toNat_rest {perSecond : UInt64} {unit : UInt32}
    (h : perSecond.toNat * unit.toNat = Span.second) (n : UInt64) :
    ((n % perSecond).toUInt32 * unit).toNat = n.toNat % perSecond.toNat * unit.toNat := by
  have hlt := rest_lt h n.toNat
  have hpos : 0 < perSecond.toNat * unit.toNat := h ▸ (by decide : 0 < Span.second)
  have hrest : n.toNat % perSecond.toNat ≤ n.toNat % perSecond.toNat * unit.toNat :=
    Nat.le_mul_of_pos_right _ (Nat.pos_of_mul_pos_left hpos)
  have hsecond : Span.second < 2 ^ 32 := by decide
  rw [UInt32.toNat_mul, UInt64.toNat_toUInt32, UInt64.toNat_mod,
    Nat.mod_eq_of_lt (Nat.lt_trans (Nat.lt_of_le_of_lt hrest hlt) hsecond),
    Nat.mod_eq_of_lt (Nat.lt_trans hlt hsecond)]

/-- A number of units, of which so many make up a second, with the nanoseconds of one. -/
def ofUnits (perSecond : UInt64) (unit : UInt32)
    (h : perSecond.toNat * unit.toNat = Span.second) (n : UInt64) : SpanWords where
  seconds := n / perSecond
  nanoseconds := (n % perSecond).toUInt32 * unit
  below_second := toNat_rest h n ▸ rest_lt h n.toNat

def ofMillis : UInt64 → SpanWords := ofUnits 1000 1000000 rfl

def ofMicros : UInt64 → SpanWords := ofUnits 1000000 1000 rfl

/-! ## Sums and products -/

def word? (seconds : Nat) : Option UInt64 :=
  if seconds < UInt64.size then some (.ofNat seconds) else none

/-- The nanoseconds of two spans fit their word together. -/
theorem toNat_add_nanoseconds (w v : SpanWords) :
    (w.nanoseconds + v.nanoseconds).toNat = w.nanoseconds.toNat + v.nanoseconds.toNat := by
  have hw := w.below_second
  have hv := v.below_second
  have hsecond : Span.second + Span.second < 2 ^ 32 := by decide
  rw [UInt32.toNat_add, Nat.mod_eq_of_lt (Nat.lt_trans (Nat.add_lt_add hw hv) hsecond)]

/-- The nanoseconds of two spans without the second that they make up. -/
theorem toNat_carried {w v : SpanWords}
    (h : ¬ (w.nanoseconds + v.nanoseconds).toNat < Span.second) :
    (w.nanoseconds + v.nanoseconds - 1000000000).toNat + Span.second =
        w.nanoseconds.toNat + v.nanoseconds.toNat ∧
      (w.nanoseconds + v.nanoseconds - 1000000000).toNat < Span.second := by
  have hw := w.below_second
  have hv := v.below_second
  have hle : (1000000000 : UInt32) ≤ w.nanoseconds + v.nanoseconds :=
    UInt32.le_iff_toNat_le.mpr (Nat.le_of_not_lt h)
  rw [toNat_add_nanoseconds] at h
  rw [UInt32.toNat_sub_of_le _ _ hle, toNat_add_nanoseconds]
  change _ - Span.second + Span.second = _ ∧ _ - Span.second < _
  omega

/-- The sum of two spans, unless it is beyond the longest. -/
def add? (w v : SpanWords) : Option SpanWords :=
  let seconds := word? (w.seconds.toNat + v.seconds.toNat)
  if h : (w.nanoseconds + v.nanoseconds).toNat < Span.second then
    seconds.map fun seconds => ⟨seconds, w.nanoseconds + v.nanoseconds, h⟩
  else
    seconds.bind fun seconds => (word? (seconds.toNat + 1)).map fun seconds =>
      ⟨seconds, w.nanoseconds + v.nanoseconds - 1000000000, (toNat_carried h).2⟩

/-- The nanoseconds of a span taken so many times fit a word of 64 bits. -/
theorem toNat_mul_nanoseconds (w : SpanWords) (count : UInt32) :
    (w.nanoseconds.toUInt64 * count.toUInt64).toNat = w.nanoseconds.toNat * count.toNat := by
  have hlt : w.nanoseconds.toNat * count.toNat < 2 ^ 32 * 2 ^ 32 :=
    Nat.mul_lt_mul'' w.nanoseconds.toNat_lt count.toNat_lt
  rw [UInt64.toNat_mul, UInt32.toNat_toUInt64, UInt32.toNat_toUInt64]
  exact Nat.mod_eq_of_lt hlt

theorem toNat_below_second (n : UInt64) :
    (n % 1000000000).toUInt32.toNat = n.toNat % Span.second := by
  have hrest : n.toNat % Span.second < Span.second := Nat.mod_lt _ (by decide)
  rw [UInt64.toNat_toUInt32, UInt64.toNat_mod]
  exact Nat.mod_eq_of_lt (Nat.lt_trans hrest (by decide))

/-- A span taken `count` times, unless that is beyond the longest. -/
def times? (w : SpanWords) (count : UInt32) : Option SpanWords :=
  let total := w.nanoseconds.toUInt64 * count.toUInt64
  (word? (w.seconds.toNat * count.toNat)).bind fun seconds =>
    (word? (seconds.toNat + (total / 1000000000).toNat)).map fun seconds =>
      ⟨seconds, (total % 1000000000).toUInt32,
        toNat_below_second total ▸ Nat.mod_lt _ (by decide)⟩

/-- A span taken `count` times, cut to the longest. -/
def times (w : SpanWords) (count : UInt32) : SpanWords := (w.times? count).getD largest

end SpanWords

end DaqServer
