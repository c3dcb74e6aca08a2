import DaqServer.Scan.Steps

/-!
# Accesses on record

A recorded port is the way to the same registers with a list beside them, into which every access
goes with its answer. What uses a port cannot tell the two apart.
-/

namespace DaqServer

def PortAccess.write? : PortAccess → Option (UInt8 × UInt32)
  | write offset value => some (offset, value)
  | read _ => none

structure PortEvent where
  access : PortAccess
  answer : PortAnswer

namespace PortEvent

def read (offset : UInt8) (word : UInt32) : PortEvent := ⟨.read offset, .ok word⟩

/-- The word that a read of a register gave. -/
def word? (offset : UInt8) (event : PortEvent) : Option UInt32 :=
  match event.access, event.answer with
  | .read read, .ok word => if read = offset then some word else none
  | _, _ => none

def write? (event : PortEvent) : Option (UInt8 × UInt32) := event.access.write?

def isDone (event : PortEvent) : Bool := event.answer.isOk

end PortEvent

namespace Port

variable {σ : Type} (port : Port σ)

def note (access : PortAccess) : Access (σ × List PortEvent) UInt32 := fun x =>
  let (answer, s) := access.perform port x.1
  (answer, s, x.2 ++ [⟨access, answer⟩])

/-- The same registers with a record of all accesses, oldest first. -/
def recorded : Port (σ × List PortEvent) where
  read offset := port.note (.read offset)
  write offset value := do
    let _ ← port.note (.write offset value)

end Port

end DaqServer
