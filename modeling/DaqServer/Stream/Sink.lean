import DaqServer.Bytes

/-!
# Sinks

The sending side of a streaming connection: what was written to it, how many more blocks its peer
takes, and how often it was closed.
-/

namespace DaqServer

structure Sink where
  /-- Blocks that the peer still takes; without a number it takes all. -/
  accepts : Option Nat
  /-- Everything written, oldest first. -/
  written : List Bytes
  /-- How often it was closed. -/
  closings : Nat
  deriving DecidableEq, Repr

abbrev SinkId := Nat

namespace Sink

def fresh (accepts : Option Nat) : Sink := ⟨accepts, [], 0⟩

def write (s : Sink) (bytes : Bytes) : Sink := { s with written := s.written ++ [bytes] }

def send (s : Sink) (block : Bytes) : Option Sink :=
  match s.accepts with
  | none => some (s.write block)
  | some 0 => none
  | some (n + 1) => some { s.write block with accepts := some n }

def close (s : Sink) : Sink := { s with closings := s.closings + 1 }

def hangUp (s : Sink) : Sink := { s with accepts := some 0 }

end Sink

end DaqServer
