/-!
# Item identifiers

Every kind of item has a 16-bit code on the wire and a name in texts. The high byte of the code
groups the items: board, registers, DAC, ADC, digital lines, connection.
-/

namespace DaqServer

inductive ItemId
  | boardReset
  | boardDeviceId
  | boardFeatures
  | boardFirmware
  | boardClock
  | boardReboot
  | registerRead
  | registerWrite
  | registerClear
  | registerSet
  | registerToggle
  | dacOutput
  | dacRange
  | adcRange
  | adcRanges
  | adcCalibration
  | scanSetup
  | scanRaw
  | scanCounts
  | scanVolts
  | streamStart
  | streamStop
  | streamStatus
  | dioConfigure
  | dioInput
  | dioOutput
  | dioInputs
  | dioOutputs
  | connectionId
  | diagnostic
  deriving DecidableEq, Repr

namespace ItemId

def all : List ItemId :=
  [boardReset, boardDeviceId, boardFeatures, boardFirmware, boardClock, boardReboot, registerRead,
    registerWrite, registerClear, registerSet, registerToggle, dacOutput, dacRange, adcRange,
    adcRanges, adcCalibration, scanSetup, scanRaw, scanCounts, scanVolts, streamStart, streamStop,
    streamStatus, dioConfigure, dioInput, dioOutput, dioInputs, dioOutputs, connectionId,
    diagnostic]

def code : ItemId → UInt16
  | boardReset => 0x0001
  | boardDeviceId => 0x0002
  | boardFeatures => 0x0003
  | boardFirmware => 0x0004
  | boardClock => 0x0005
  | boardReboot => 0x0006
  | registerRead => 0x0101
  | registerWrite => 0x0104
  | registerClear => 0x0107
  | registerSet => 0x0108
  | registerToggle => 0x0109
  | dacOutput => 0x0201
  | dacRange => 0x0202
  | adcRange => 0x1001
  | adcRanges => 0x1002
  | adcCalibration => 0x1003
  | scanSetup => 0x1004
  | scanRaw => 0x1010
  | scanCounts => 0x1011
  | scanVolts => 0x1012
  | streamStart => 0x1020
  | streamStop => 0x1021
  | streamStatus => 0x1022
  | dioConfigure => 0x2001
  | dioInput => 0x2002
  | dioOutput => 0x2003
  | dioInputs => 0x2004
  | dioOutputs => 0x2005
  | connectionId => 0x8001
  | diagnostic => 0x8002

def ofCode? (code : UInt16) : Option ItemId := all.find? fun id => id.code == code

theorem mem_all (id : ItemId) : id ∈ all := by
  cases id <;> decide

@[simp] theorem ofCode?_code (id : ItemId) : ofCode? id.code = some id := by
  cases id <;> rfl

def name : ItemId → String
  | boardReset => "BRD_Reset"
  | boardDeviceId => "BRD_DeviceId"
  | boardFeatures => "BRD_Features"
  | boardFirmware => "BRD_FirmwareRev"
  | boardClock => "BRD_Clock"
  | boardReboot => "BRD_Reboot"
  | registerRead => "REG_Read1"
  | registerWrite => "REG_Write1"
  | registerClear => "REG_ClearBits"
  | registerSet => "REG_SetBits"
  | registerToggle => "REG_ToggleBits"
  | dacOutput => "DAC_Output1"
  | dacRange => "DAC_Range1"
  | adcRange => "ADC_Range1"
  | adcRanges => "ADC_RangeAll"
  | adcCalibration => "ADC_Calibration1"
  | scanSetup => "ADC_ScanSetup"
  | scanRaw => "ADC_ScanRaw"
  | scanCounts => "ADC_ScanCounts"
  | scanVolts => "ADC_ScanVolts"
  | streamStart => "ADC_StreamStart"
  | streamStop => "ADC_StreamStop"
  | streamStatus => "ADC_StreamStatus"
  | dioConfigure => "DIO_Configure"
  | dioInput => "DIO_Input1"
  | dioOutput => "DIO_Output1"
  | dioInputs => "DIO_InputAll"
  | dioOutputs => "DIO_OutputAll"
  | connectionId => "TCP_ConnectionId"
  | diagnostic => "Diagnostic"

end ItemId

end DaqServer
