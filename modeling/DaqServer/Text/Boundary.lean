import DaqServer.Text.Utf8
import DaqServer.Trap

/-!
# Cutting text at an offset

A text may be cut at an offset in bytes only if a character begins or the text ends there. The cut
of a text to a byte limit goes back from the limit to the nearest such offset.
-/

namespace DaqServer.Utf8

/-- Whether a character begins, or the text ends, at an offset. -/
def isBoundary : List Char → Nat → Bool
  | _, 0 => true
  | [], _ + 1 => false
  | c :: cs, offset + 1 => c.utf8Size ≤ offset + 1 && isBoundary cs (offset + 1 - c.utf8Size)

/-- The characters before an offset. -/
def cutAt : List Char → Nat → Checked (List Char)
  | _, 0 => .ok []
  | [], offset + 1 => .error (.cut (offset + 1))
  | c :: cs, offset + 1 =>
      if c.utf8Size ≤ offset + 1 then
        (cutAt cs (offset + 1 - c.utf8Size)).map (c :: ·)
      else .error (.cut (offset + 1))

def boundaryBefore (cs : List Char) : (offset : Nat) → Checked Nat
  | 0 => if isBoundary cs 0 then .ok 0 else .error .overflow
  | offset + 1 => if isBoundary cs (offset + 1) then .ok (offset + 1) else boundaryBefore cs offset

def cutToFit (limit : Nat) (s : String) : Checked String := do
  let stop ← boundaryBefore s.toList (min (encode s).length limit)
  let kept ← cutAt s.toList stop
  return String.ofList kept

end DaqServer.Utf8
