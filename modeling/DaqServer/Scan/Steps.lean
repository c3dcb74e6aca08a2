import DaqServer.Scan.Engine

/-!
# Scans step by step

What a scan does next depends on nothing but its settings, its stopwatch and the answers that it got
from the registers. It is found by running the scan on these answers alone, up to the first access
that none is left for. Between two accesses the board belongs to everyone.
-/

namespace DaqServer

inductive PortAccess
  | read (offset : UInt8)
  | write (offset : UInt8) (value : UInt32)
  deriving DecidableEq, Repr

/-- What an access gives back. A write that was done gives zero. -/
abbrev PortAnswer := Except BoardError UInt32

def PortAccess.perform {σ : Type} (port : Port σ) : PortAccess → Access σ UInt32
  | read offset => port.read offset
  | write offset value => do
      port.write offset value
      return 0

/-- Answers to come, whatever is asked. -/
structure Replay where
  answers : List PortAnswer
  /-- The access for which no answer was left. -/
  missing : Option PortAccess

namespace Replay

def of (answers : List PortAnswer) : Replay := ⟨answers, none⟩

/-- The next answer. An access for which none is left fails and is noted. -/
def answer (access : PortAccess) : Access Replay UInt32 := fun r =>
  match r.answers with
  | [] => (.error (.io "no answer"), { r with missing := some access })
  | answer :: rest => (answer, { r with answers := rest })

def port : Port Replay where
  read offset := answer (.read offset)
  write offset value := do
    let _ ← answer (.write offset value)

end Replay

/-- What a scan that holds the ADC does next. -/
inductive ScanMove
  | access (access : PortAccess)
  /-- Give up the ADC and return. -/
  | finish (result : Except AcquisitionError Readings)

/-- What a scan does next that got these answers so far. -/
def Scan.move (settings : ScanSettings) (watch : Stopwatch) (answers : List PortAnswer) :
    ScanMove :=
  match measure Replay.port settings watch (.of answers) with
  | (_, ⟨_, some access⟩) => .access access
  | (result, ⟨_, none⟩) => .finish result

end DaqServer
