import DaqServer.Board.Error
import DaqServer.Connection
import DaqServer.Span

/-!
# Acquisition errors

The causes for which a scan or a streaming request fails, with the text and the kind of each.
-/

namespace DaqServer

inductive AdcOwner
  | scan
  | stream (id : ConnectionId)
  deriving DecidableEq, Repr

def AdcOwner.text : AdcOwner → String
  | .scan => "a scan"
  | .stream id => "streaming session " ++ id.text

/-- Why streaming parameters are refused. -/
inductive StreamFault
  | noRingSlots
  | emptyTransfers
  | noWait
  /-- Any other reason. -/
  | other (text : String)
  deriving DecidableEq, Repr

def StreamFault.message : StreamFault → String
  | .noRingSlots => "ring_slots must be greater than 0"
  | .emptyTransfers => "transfer_samples must be greater than 0"
  | .noWait => "logger_wait must be greater than 0"
  | .other text => text

/-- Why an acquisition failed. -/
inductive AcquisitionError
  /-- The last channel of a scan lies before the first. -/
  | reversedChannels (first last : UInt8)
  /-- The samples of a scan did not arrive in time. -/
  | scanTimeout (expected received : Nat) (elapsed : Span)
  /-- A scan was requested, or a session refused, because something holds the ADC. -/
  | adcBusy (owner : AdcOwner)
  /-- A session was requested while another is active. -/
  | streamBusy (active : ConnectionId)
  /-- No streaming client of this number is attached. -/
  | notConnected (id : ConnectionId)
  /-- The streaming parameters are refused. -/
  | badStream (cause : StreamFault)
  /-- The board refused an access. -/
  | board (error : BoardError)
  /-- The operating system reported a failure. -/
  | io (text : String)
  deriving DecidableEq, Repr

namespace AcquisitionError

def message : AcquisitionError → String
  | reversedChannels first last =>
      s!"Invalid scan configuration: end channel {last} precedes start channel {first}"
  | scanTimeout expected received elapsed =>
      "Scan timed out after " ++ elapsed.text ++
        s!": expected {expected} samples, received {received}"
  | adcBusy owner => "ADC busy: held by " ++ owner.text
  | streamBusy id => "Streaming session busy: active connection " ++ id.text
  | notConnected id => "No streaming connection " ++ id.text
  | badStream cause => "Invalid stream configuration: " ++ cause.message
  | board e => e.message
  | io text => "I/O error: " ++ text

def kind : AcquisitionError → ErrorKind
  | reversedChannels .. | badStream _ => .semantic
  | scanTimeout .. | adcBusy _ | streamBusy _ | notConnected _ => .operational
  | board e => e.kind
  | io _ => .io

end AcquisitionError

end DaqServer
