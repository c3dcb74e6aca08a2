/-!
# Spans of time

A span is a whole number of nanoseconds. `Span.largest` is the longest span the program holds: all
the seconds of a 64-bit word and one nanosecond less than a further second.
-/

namespace DaqServer

/-- A length of time in nanoseconds. -/
structure Span where
  nanoseconds : Nat
  deriving DecidableEq, Repr, Inhabited

namespace Span

def second : Nat := 1000000000

def millisecond : Nat := 1000000

def microsecond : Nat := 1000

def seconds (s : Span) : Nat := s.nanoseconds / second

def subsecond (s : Span) : Nat := s.nanoseconds % second

def ofParts (seconds nanoseconds : Nat) : Span := ⟨seconds * second + nanoseconds⟩

def ofMillis (n : UInt64) : Span := ⟨n.toNat * millisecond⟩

def ofMicros (n : UInt64) : Span := ⟨n.toNat * microsecond⟩

def largest : Span := ofParts 0xFFFFFFFFFFFFFFFF (second - 1)

def add? (s t : Span) : Option Span :=
  let sum := s.nanoseconds + t.nanoseconds
  if sum ≤ largest.nanoseconds then some ⟨sum⟩ else none

/-- A span taken `count` times, cut to the longest. -/
def times (s : Span) (count : Nat) : Span :=
  ⟨min (s.nanoseconds * count) largest.nanoseconds⟩

/-- A whole part and a fraction of so many decimal places, without the zeros that end it. -/
def decimalText (whole fraction places : Nat) : String :=
  let digits := Nat.toDigits 10 fraction
  let padded := List.replicate (places - digits.length) '0' ++ digits
  let kept := (padded.reverse.dropWhile (· == '0')).reverse
  if kept.isEmpty then toString whole else toString whole ++ "." ++ String.ofList kept

/-- The text of a span in the largest unit of which it holds at least one, with as many decimal
places as it needs. -/
def text (s : Span) : String :=
  if second ≤ s.nanoseconds then decimalText s.seconds s.subsecond 9 ++ "s"
  else if millisecond ≤ s.nanoseconds then
    decimalText (s.nanoseconds / millisecond) (s.nanoseconds % millisecond) 6 ++ "ms"
  else if microsecond ≤ s.nanoseconds then
    decimalText (s.nanoseconds / microsecond) (s.nanoseconds % microsecond) 3 ++ "µs"
  else toString s.nanoseconds ++ "ns"

end Span

end DaqServer
