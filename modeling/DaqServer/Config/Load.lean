import DaqServer.Config.Environment
import DaqServer.Config.Settings
import DaqServer.Config.Toml.Document

/-!
# Loading settings

Settings come in layers: defaults, a file, environment variables, the variable of the log level, and
a port given by the caller. A higher layer replaces what a lower one says.
-/

namespace DaqServer.DaemonSettings

/-- The table of all layers over the defaults; nothing if the file is malformed. -/
def layers? (file : Option String) (env : List (String × String)) (port : Option UInt16) :
    Option ConfigTable := do
  let fromFile ← match file with
    | none => some []
    | some text => Toml.read? text
  let fromCaller : ConfigTable := match port with
    | none => []
    | some p => .atPath ["server", "control_port"] (.integer p.toNat)
  let layers : List ConfigTable :=
    [fromFile, Environment.table env, Environment.levelTable env, fromCaller]
  return layers.foldl ConfigTable.merge []

def accept (s : DaemonSettings) : Except DaemonError DaemonSettings :=
  match s.validate with
  | .ok () => .ok s
  | .error fault => .error (.invalidConfig fault)

def ofTable (t : ConfigTable) : Except DaemonError DaemonSettings :=
  match ofTable? t with
  | none => .error .configLoad
  | some s => s.accept

def load (file : Option String) (env : List (String × String)) (port : Option UInt16) :
    Except DaemonError DaemonSettings :=
  match layers? file env port with
  | none => .error .configLoad
  | some t => ofTable t

end DaqServer.DaemonSettings
