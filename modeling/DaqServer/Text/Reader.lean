/-!
# Readers

A reader takes a value from the front of a text and gives the rest, or fails. Of two alternatives
the second starts where the first did. Repetition reads at most one value for each character.
-/

namespace DaqServer

abbrev Reader (α : Type) := StateT (List Char) Option α

namespace Reader

variable {α : Type}

def satisfy (p : Char → Bool) : Reader Char := fun s =>
  match s with
  | c :: rest => if p c then some (c, rest) else none
  | [] => none

def char (c : Char) : Reader Unit := do
  let _ ← satisfy (· == c)

def chars : List Char → Reader Unit
  | [] => pure ()
  | c :: cs => do
      char c
      chars cs

def word (w : String) : Reader Unit := chars w.toList

def run (p : Char → Bool) : Reader (List Char) := fun s => some (s.span p)

def run1 (p : Char → Bool) : Reader (List Char) := do
  let cs ← run p
  if cs.isEmpty then failure else pure cs

def exactly (n : Nat) (p : Char → Bool) : Reader (List Char) := fun s =>
  let cs := s.take n
  if cs.length = n ∧ cs.all p then some (cs, s.drop n) else none

def finish : Reader Unit := fun s => if s.isEmpty then some ((), s) else none

def peek : Reader (Option Char) := fun s => some (s.head?, s)

/-- As many values as follow each other, after those `taken`, and the text after them. There are at
most as many as the ruler has characters. -/
def manyOnto (r : Reader α) : (ruler : List Char) → (taken : List α) → (s : List Char) →
    List α × List Char
  | _ :: ruler, taken, s =>
      match r s with
      | some (a, rest) => manyOnto r ruler (a :: taken) rest
      | none => (taken.reverse, s)
  | [], taken, s => (taken.reverse, s)

/-- As many values as follow each other, for a reader that takes at least one character: the text is
long enough as its own ruler. -/
def many (r : Reader α) : Reader (List α) := fun s => some (manyOnto r s [] s)

def sepBy1 (r : Reader α) (separator : Reader Unit) : Reader (List α) := do
  let a ← r
  let as ← many (do separator; r)
  return a :: as

def readAll? (r : Reader α) (s : String) : Option α :=
  (StateT.run (do let a ← r; finish; pure a) s.toList).map (·.1)

end Reader

end DaqServer
