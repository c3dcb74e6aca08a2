import DaqServer.Item.Error
import DaqServer.Register
import DaqServer.Scan.Readings
import DaqServer.Stream.Control

/-!
# Requests and their results

A request is what an item asks for, with all indices in range. `Request.Result` gives for every
request the type of what it yields when it is carried out.
-/

namespace DaqServer

/-- Requests that only write registers and yield nothing. -/
inductive Command
  | resetBoard
  | write (offset : UInt8) (value : UInt32)
  | clearBits (offset : UInt8) (mask : UInt32)
  | setBits (offset : UInt8) (mask : UInt32)
  | toggleBits (offset : UInt8) (mask : UInt32)
  | dacOutput (channel : Fin dacChannels) (value : UInt32)
  | dioDirection (value : UInt32)
  | dioOutputs (value : UInt32)
  deriving DecidableEq, Repr

/-- The calibration of a group of channels, two 32-bit floating-point patterns. -/
structure Calibration where
  scale : UInt32
  offset : UInt32
  deriving DecidableEq, Repr

/-- The scan registers as written and read by items. -/
structure ScanSetup where
  first : UInt8
  last : UInt8
  oversample : UInt8
  deriving DecidableEq, Repr

/-- In which form a scan is replied. -/
inductive ScanView
  | raw
  | counts
  | volts
  deriving DecidableEq, Repr

def ScanView.name : ScanView → String
  | raw => "Raw"
  | counts => "Counts"
  | volts => "Volts"

/-- What an item asks for. -/
inductive Request
  /-- Nothing; the item could not be read. -/
  | invalid
  | command (command : Command)
  /-- Read a register that the kind of item implies. -/
  | readback (offset : UInt8)
  /-- Read both words of the running clock. -/
  | clock
  /-- Request shutdown. -/
  | reboot
  /-- Read a register that the item names. -/
  | registerRead (offset : UInt8)
  | dacRange (channel : Fin dacChannels) (value : UInt32)
  | adcRange (group : Fin adcGroups) (value : UInt32)
  /-- Write the ranges of all groups, if there are any to write, and read them. -/
  | adcRanges (write : Option (Vector UInt32 adcGroups))
  /-- Write the calibration of a group, if there is one to write, and read it. -/
  | calibration (group : Fin adcGroups) (write : Option Calibration)
  /-- Write the scan registers, if there is something to write, and read them. -/
  | scanSetup (write : Option ScanSetup)
  | scan (view : ScanView)
  | streamStart (target : ConnectionId)
  | streamStop
  | streamStatus
  | dioInput (bit : Fin dioLines)
  | dioOutput (bit : Fin dioLines) (level : Bool)
  /-- Tell the connection that asks. -/
  | connectionId
  /-- Tell an error; there is nothing to carry out. -/
  | diagnostic (kind : Option ErrorKind) (message : String)
  deriving DecidableEq, Repr

/-- What a request yields. -/
@[reducible] def Request.Result : Request → Type
  | readback _ => UInt32
  | registerRead _ => UInt32
  | clock => UInt64
  | adcRanges _ => Vector UInt32 adcGroups
  | calibration _ _ => Calibration
  | scanSetup _ => ScanSetup
  | scan _ => Readings
  | streamStop => Bool
  | streamStatus => StreamStatus
  | dioInput _ => Bool
  | connectionId => ConnectionId
  | invalid => Unit
  | command _ => Unit
  | reboot => Unit
  | dacRange _ _ => Unit
  | adcRange _ _ => Unit
  | streamStart _ => Unit
  | dioOutput _ _ => Unit
  | diagnostic _ _ => Unit

end DaqServer
