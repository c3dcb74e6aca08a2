import DaqServer.Connection

/-!
# Numbers for several listeners

The listeners have copies of one allocator and accept connections at the same time. A call of a copy
draws a word from the counter that all copies share, and hands its number out later; by then other
calls may have drawn and handed out theirs.
-/

namespace DaqServer

/-- Take the word of the counter and move the counter on, in one step. -/
def ConnectionIds.draw (ids : ConnectionIds) : UInt32 × ConnectionIds := (ids.next, ⟨ids.next + 1⟩)

/-- A call on its own draws a word and hands out its number. -/
theorem ConnectionIds.allocate_eq (ids : ConnectionIds) :
    ids.allocate = (.ofWire ids.draw.1, ids.draw.2) := rfl

/-- The copies of an allocator and the calls of them. -/
structure Numbering where
  /-- The counter that all copies share. -/
  ids : ConnectionIds
  copies : Nat
  /-- The words of the calls that have drawn and not returned. -/
  underway : List UInt32
  /-- The numbers of the calls that have returned. -/
  given : List ConnectionId
  deriving DecidableEq, Repr

/-- What happens to the copies of an allocator. -/
inductive NumberingAct
  /-- A copy is copied. -/
  | copy (copy : Nat)
  /-- A call of a copy draws its word. -/
  | draw (copy : Nat)
  /-- One of the calls underway returns. -/
  | give (call : Nat)
  deriving DecidableEq, Repr

def NumberingAct.draws : NumberingAct → Bool
  | draw _ => true
  | _ => false

namespace Numbering

def start : Numbering := ⟨.fresh, 1, [], []⟩

def step (n : Numbering) : NumberingAct → Option Numbering
  | .copy copy => if copy < n.copies then some { n with copies := n.copies + 1 } else none
  | .draw copy =>
      if copy < n.copies then
        let (word, ids) := n.ids.draw
        some { n with ids := ids, underway := n.underway ++ [word] }
      else none
  | .give call =>
      n.underway[call]?.map fun word =>
        { n with underway := n.underway.eraseIdx call, given := n.given ++ [.ofWire word] }

def run : List NumberingAct → Numbering → Option Numbering
  | [], n => some n
  | act :: acts, n => (n.step act).bind (run acts)

/-- The numbers handed out and those of the calls underway. -/
def issued (n : Numbering) : List ConnectionId := n.given ++ n.underway.map .ofWire

end Numbering

end DaqServer
