import DaqServer.Item.Basic
import DaqServer.Number.Decimal

/-!
# Items in words

One line for an item, as a request or as a reply: its name and, after a blank, its details.
-/

namespace DaqServer

def wordText (w : UInt32) : String := Text.hex 8 w.toNat

def wordsText (ws : List UInt32) : String :=
  Text.bracketed (ws.map fun w => Text.hexDigits 1 w.toNat)

def Calibration.text (c : Calibration) : String :=
  "scale " ++ Number.Layout.plain.text c.scale ++ " offset " ++ Number.Layout.plain.text c.offset

def ScanSetup.text (s : ScanSetup) : String :=
  s!"channels {s.first}..={s.last} oversample {s.oversample}"

def levelText (level : Bool) : String := if level then "1" else "0"

def ScanView.text (view : ScanView) (r : Readings) : String :=
  match view with
  | raw => wordsText r.raw
  | counts => Text.bracketed (r.counts.map fun c => toString c)
  | volts => Text.bracketed (r.volts.map fun v => Number.Layout.pointed.text v.bits32)

/-- The details of a request, given the payload as received. -/
def Request.detail (payload : Bytes) : Request → String
  | .command _ | .invalid => Text.hexBytes " " payload
  | .readback offset | .registerRead offset => "@" ++ Text.hex 2 offset.toNat
  | .dacRange channel value => s!"channel {channel} <- " ++ wordText value
  | .adcRange group value => s!"group {group} <- " ++ wordText value
  | .adcRanges (some values) => "<- " ++ wordsText values.toList
  | .calibration group (some c) => s!"group {group} <- " ++ c.text
  | .calibration group none => s!"group {group}"
  | .scanSetup (some s) => "<- " ++ s.text
  | .scan view => view.name
  | .streamStart target => "to " ++ target.text
  | .dioInput bit => s!"bit {bit}"
  | .dioOutput bit level => s!"bit {bit} <- " ++ levelText level
  | .diagnostic (some kind) message => kind.label ++ ": " ++ message
  | .diagnostic none message => message
  | _ => ""

/-- The details of a request that has been carried out. -/
def Request.resultDetail (payload : Bytes) : (r : Request) → r.Result → String
  | .readback offset, value => "@" ++ Text.hex 2 offset.toNat ++ " = " ++ wordText value
  | .registerRead offset, value => "@" ++ Text.hex 2 offset.toNat ++ " = " ++ wordText value
  | .clock, ticks => s!"= {ticks} ticks"
  | .dacRange channel value, _ =>
      s!"channel {channel}: wrote " ++ wordText value ++ " to register " ++
        Text.hex 2 (Register.dacRange (UInt8.ofNat channel)).toNat
  | .adcRange group value, _ =>
      s!"group {group}: wrote " ++ wordText value ++ " to register " ++
        Text.hex 2 (Register.adcRange (UInt8.ofNat group)).toNat
  | .adcRanges _, values => "= " ++ wordsText values.toList
  | .calibration group _, c => s!"group {group} = " ++ c.text
  | .scanSetup _, s => "= " ++ s.text
  | .scan view, readings => "= " ++ view.text readings
  | .streamStart target, _ => "streaming to " ++ target.text
  | .streamStop, wasActive => if wasActive then "stopping" else "no active session"
  | .streamStatus, status =>
      match status.active with
      | some id => "active " ++ id.text ++ s!" ({status.blocksSent} blocks sent)"
      | none => "idle"
  | .dioInput bit, level => s!"bit {bit} = " ++ levelText level
  | .dioOutput bit level, _ => s!"bit {bit} set to " ++ levelText level
  | .connectionId, id => "= " ++ id.text
  | .command c, _ => (Request.command c).detail payload
  | .invalid, _ => Request.invalid.detail payload
  | .reboot, _ => Request.reboot.detail payload
  | .diagnostic kind message, _ => (Request.diagnostic kind message).detail payload

namespace Item

def nameText (i : Item) : String :=
  match i.id? with
  | some id => id.name
  | none => "item " ++ Text.hex 4 i.code.toNat

def withDetail (name detail : String) : String :=
  if detail.isEmpty then name else name ++ " " ++ detail

def describe (i : Item) (asReply : Bool) : String :=
  match i.status with
  | .failed fault => i.nameText ++ s!" ({i.payload.length} bytes) failed: " ++ fault.text
  | .pending => withDetail i.nameText (i.request.detail i.payload)
  | .done result =>
      withDetail i.nameText
        (if asReply then i.request.resultDetail i.payload result else i.request.detail i.payload)

end Item

end DaqServer
