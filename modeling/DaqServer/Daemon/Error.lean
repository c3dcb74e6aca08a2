import DaqServer.Address
import DaqServer.Adc.Error
import DaqServer.Logging

/-!
# Daemon errors

The causes for which a daemon does not come up, with the text and the kind of each.
-/

namespace DaqServer

inductive ConfigFault
  /-- There is no streaming port above the control port, or no control port at all. -/
  | noStreamingPort (control : UInt16)
  /-- A setting that has to be positive is zero. -/
  | notPositive (setting : String)
  /-- The streaming settings are refused. -/
  | stream (error : AcquisitionError)
  | badLevel (name : String)
  | badFormat (name : String)
  /-- Any other reason. -/
  | other (text : String)
  deriving DecidableEq, Repr

def ConfigFault.message : ConfigFault → String
  | .noStreamingPort control => s!"control_port {control} leaves no room for the streaming port"
  | .notPositive setting => setting ++ " must be positive"
  | .stream e => e.message
  | .badLevel name =>
      "Invalid log level '" ++ name ++ "'. Must be one of: " ++ ", ".intercalate LogLevel.names
  | .badFormat name =>
      "Invalid log format '" ++ name ++ "'. Must be one of: " ++ ", ".intercalate LogFormat.names
  | .other text => text

inductive ListenerRole
  | control
  | streaming
  deriving DecidableEq, Repr

def ListenerRole.label : ListenerRole → String
  | .control => "control"
  | .streaming => "streaming"

inductive DaemonError
  /-- A source of settings is malformed, or a setting has the wrong type. -/
  | configLoad
  | invalidConfig (fault : ConfigFault)
  | logging (fault : LoggingFault)
  /-- A listener could not take its address. -/
  | bind (role : ListenerRole) (address : SocketAddress) (cause : String)
  /-- A thread could not be started. -/
  | spawn (thread cause : String)
  /-- The board could not be opened. -/
  | board (error : BoardError)
  | acquisition (error : AcquisitionError)
  /-- The operating system reported a failure. -/
  | io (text : String)
  deriving DecidableEq, Repr

namespace DaemonError

def message : DaemonError → String
  | configLoad => "failed to load configuration"
  | invalidConfig fault => "invalid configuration: " ++ fault.message
  | logging fault => "failed to initialize logging: " ++ fault.message
  | bind role address cause =>
      "failed to bind " ++ role.label ++ " listener on " ++ address.text ++ ": " ++ cause
  | spawn thread cause => "failed to spawn thread " ++ thread ++ ": " ++ cause
  | board e => e.message
  | acquisition e => e.message
  | io text => "I/O error: " ++ text

def kind : DaemonError → ErrorKind
  | configLoad | invalidConfig _ | logging _ => .semantic
  | bind .. | spawn .. | io _ => .io
  | board e => e.kind
  | acquisition e => e.kind

end DaemonError

end DaqServer
