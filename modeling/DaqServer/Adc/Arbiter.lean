import DaqServer.Adc.Error

/-!
# The arbiter of the ADC

The ADC is held by one scan or by one streaming session at a time. A claim is refused with the name
of the holder; a release counts only when it comes from the holder.
-/

namespace DaqServer

structure Arbiter where
  owner : Option AdcOwner
  deriving DecidableEq, Repr

namespace Arbiter

def idle : Arbiter := ⟨none⟩

def beginScan (a : Arbiter) : Except AcquisitionError Arbiter :=
  match a.owner with
  | none => .ok ⟨some .scan⟩
  | some owner => .error (.adcBusy owner)

def endScan (a : Arbiter) : Arbiter := if a.owner = some .scan then idle else a

def claimStream (id : ConnectionId) (a : Arbiter) : Except AcquisitionError Arbiter :=
  match a.owner with
  | none => .ok ⟨some (.stream id)⟩
  | some (.stream active) => .error (.streamBusy active)
  | some .scan => .error (.adcBusy .scan)

def isStreamOf (a : Arbiter) (id : ConnectionId) : Bool := a.owner == some (.stream id)

def releaseStream (id : ConnectionId) (a : Arbiter) : Arbiter := if a.isStreamOf id then idle else a

def streamingOwner (a : Arbiter) : Option ConnectionId :=
  match a.owner with
  | some (.stream id) => some id
  | _ => none

@[simp] theorem beginScan_idle : idle.beginScan = .ok ⟨some .scan⟩ := rfl

@[simp] theorem endScan_scan : endScan ⟨some .scan⟩ = idle := rfl

@[simp] theorem releaseStream_stream (id : ConnectionId) :
    releaseStream id ⟨some (.stream id)⟩ = idle := by
  simp [releaseStream, isStreamOf]

end Arbiter

end DaqServer
