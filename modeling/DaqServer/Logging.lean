/-!
# Log output

The levels and the line formats of the log, which are named without regard to capitals, and the
output that follows from a choice of both.
-/

namespace DaqServer

inductive LogLevel
  | trace
  | debug
  | info
  | warn
  | error
  deriving DecidableEq, Repr

inductive LogFormat
  /-- Several lines for a reader at a terminal. -/
  | pretty
  /-- One line. -/
  | compact
  /-- One object. -/
  | json
  deriving DecidableEq, Repr

/-- Why the log could not be set up. -/
inductive LoggingFault
  | unknownLevel (name : String)
  | unknownFormat (name : String)
  /-- A cause outside the choice of level and format. -/
  | other (text : String)
  deriving DecidableEq, Repr

def LoggingFault.message : LoggingFault → String
  | .unknownLevel name => "unknown log level '" ++ name ++ "'"
  | .unknownFormat name => "unknown log format '" ++ name ++ "'"
  | .other text => text

namespace LogLevel

def names : List String := ["trace", "debug", "info", "warning", "warn", "error"]

def ofName (name : String) : Except LoggingFault LogLevel :=
  match name.toLower with
  | "trace" => .ok .trace
  | "debug" => .ok .debug
  | "info" => .ok .info
  | "warn" | "warning" => .ok .warn
  | "error" => .ok .error
  | lower => .error (.unknownLevel lower)

def label : LogLevel → String
  | trace => "TRACE"
  | debug => "DEBUG"
  | info => "INFO"
  | warn => "WARN"
  | error => "ERROR"

end LogLevel

namespace LogFormat

def names : List String := ["pretty", "compact", "json"]

def ofName (name : String) : Except LoggingFault LogFormat :=
  match name.toLower with
  | "pretty" => .ok .pretty
  | "compact" => .ok .compact
  | "json" => .ok .json
  | lower => .error (.unknownFormat lower)

end LogFormat

/-- What the log looks like. -/
structure LogOutput where
  level : LogLevel
  format : LogFormat
  /-- Whether a line tells the place in the program. -/
  withPlace : Bool
  withThreadNames : Bool
  /-- Whether the pretty format is in colour. -/
  withColour : Bool
  deriving DecidableEq, Repr

namespace LogOutput

/-- The usual output at a level: compact, with thread names and without places. -/
def atLevel (level : LogLevel) : LogOutput := ⟨level, .compact, false, true, true⟩

/-- The output with the named level and format; the level is looked at first. -/
def ofNames (level format : String) : Except LoggingFault LogOutput := do
  let level ← LogLevel.ofName level
  let format ← LogFormat.ofName format
  return { atLevel level with format := format }

end LogOutput

end DaqServer
