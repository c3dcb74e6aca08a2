/-!
# Kinds of error

Every error has one of four kinds. The kind has a code on the wire and a word in texts.
-/

namespace DaqServer

inductive ErrorKind
  /-- The bytes of a message or item do not hang together, or an item code is unknown. -/
  | framing
  /-- The input is well formed and its values are refused. -/
  | semantic
  /-- The board or an acquisition failed. -/
  | operational
  /-- A socket or file failed. -/
  | io
  deriving DecidableEq, Repr

namespace ErrorKind

def code : ErrorKind → UInt8
  | framing => 1
  | semantic => 2
  | operational => 3
  | io => 4

def ofCode? : UInt8 → Option ErrorKind
  | 1 => some framing
  | 2 => some semantic
  | 3 => some operational
  | 4 => some io
  | _ => none

@[simp] theorem ofCode?_code (k : ErrorKind) : ofCode? k.code = some k := by
  cases k <;> rfl

def label : ErrorKind → String
  | framing => "framing"
  | semantic => "semantic"
  | operational => "operational"
  | io => "io"

end ErrorKind

end DaqServer
