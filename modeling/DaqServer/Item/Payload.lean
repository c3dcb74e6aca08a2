import DaqServer.Item.Basic

/-!
# Items on the wire

A request is written with the payload as received. In a reply an item that was carried out is
written with what it yielded, every other item with the payload as received.
-/

namespace DaqServer

def ScanView.bytes (view : ScanView) (r : Readings) : Bytes :=
  match view with
  | raw => r.raw.flatMap Bytes.ofUInt32
  | counts => r.counts.flatMap Bytes.ofUInt16
  | volts => r.volts.flatMap fun v => Bytes.ofUInt32 v.bits32

/-- What a request writes when it has been carried out; nothing where the payload as received is
repeated. -/
def Request.replyBytes : (r : Request) → r.Result → Option Bytes
  | .readback _, value => some (Bytes.ofUInt32 value)
  | .registerRead offset, value => some (offset :: Bytes.ofUInt32 value)
  | .clock, ticks => some (Bytes.ofUInt64 ticks)
  | .dacRange channel value, _ => some (UInt8.ofNat channel :: Bytes.ofUInt32 value)
  | .adcRange group value, _ => some (UInt8.ofNat group :: Bytes.ofUInt32 value)
  | .adcRanges _, values => some (values.toList.flatMap Bytes.ofUInt32)
  | .calibration group _, c =>
      some (UInt8.ofNat group :: (Bytes.ofUInt32 c.scale ++ Bytes.ofUInt32 c.offset))
  | .scanSetup _, s => some [s.first, s.last, s.oversample]
  | .scan view, readings => some (view.bytes readings)
  | .streamStatus, status =>
      some (Bytes.ofUInt32 ((status.active.map ConnectionId.value).getD 0xFFFFFFFF))
  | .dioInput bit, level => some [UInt8.ofNat bit, if level then 1 else 0]
  | .connectionId, id => some (Bytes.ofUInt32 id.value)
  | .diagnostic kind message, _ => some ((kind.map ErrorKind.code).getD 0 :: Utf8.encode message)
  | .invalid, _ => none
  | .command _, _ => none
  | .reboot, _ => none
  | .streamStart _, _ => none
  | .streamStop, _ => none
  | .dioOutput _ _, _ => none

namespace Item

/-- The payload that is written. -/
def wirePayload (i : Item) (asReply : Bool) : Bytes :=
  match i.status with
  | .done result => if asReply then (i.request.replyBytes result).getD i.payload else i.payload
  | _ => i.payload

/-- The header and the payload of an item. The length field holds the low sixteen bits of the
length. -/
def frame (code : UInt16) (payload : Bytes) : Bytes :=
  Bytes.ofUInt16 code ++ Bytes.ofUInt16 (UInt16.ofNat payload.length) ++ payload

def encode (i : Item) (asReply : Bool) : Bytes := frame i.code (i.wirePayload asReply)

end Item

end DaqServer
