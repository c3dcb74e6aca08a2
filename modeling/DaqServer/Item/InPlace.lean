import DaqServer.Item.Raw

/-!
# Items carried out in place

A raw item stands where it is while it is carried out: what is read for it is assigned to its
fields, and its status is set when it has come to its end. Nothing takes an assignment back, so a
field that was assigned too early would keep its value when a later access fails. `RawItem.execute`
gives the same in one piece.
-/

namespace DaqServer

open Trapping (total check board)

variable {β δ : Type} {α : Type}

/-- A computation on the fields of an item and on the instrument. It may fail or stop at a trap, and
what it assigned before it failed stays. -/
abbrev Filling (β δ : Type) (α : Type) := Trapping ItemError (RawKind × Instrument β δ) α

namespace Filling

def use (act : Trapping ItemError (Instrument β δ) α) : Filling β δ α := fun s => do
  let (result, x) ← act s.2
  return (result, (s.1, x))

def access (act : Trapping BoardError β α) : Filling β δ α := use (board act)

def assign (kind : RawKind) : Filling β δ Unit := fun s => return (.ok (), (kind, s.2))

end Filling

open Filling (use access assign)

/-- Do what an item asks for and assign to its fields what that yields. -/
def RawKind.fill (setup : Setup β δ) (connection : ConnectionId) (code : UInt16) (payload : Bytes) :
    RawKind → Filling β δ Unit
  | .invalid | .diagnostic _ _ => return
  | .primitive => do
      match ItemId.ofCode? code with
      | none => throw (.unknownId code)
      | some id => (action setup.port payload id).forM access
  | .readback offset _ => do
      let value ← access (total (setup.port.read offset))
      assign (.readback offset (some value))
  | .registerRead offset _ => do
      let value ← access (total (setup.port.read offset))
      assign (.registerRead offset (some value))
  | .clock _ => do
      let low ← access (total (setup.port.read Register.clockLow))
      let high ← access (total (setup.port.read Register.clockHigh))
      assign (.clock (some (high.toUInt64 <<< 32 ||| low.toUInt64)))
  | .reboot => use (total (ItemAction.act fun x => ((), { x with shutdown := x.shutdown.request })))
  | .dacRange channel value => do
      let offset ← use (check (Checked.dacRange channel))
      access (total (setup.port.write offset value))
  | .adcRange group value => do
      let offset ← use (check (Checked.adcRange group))
      access (total (setup.port.write offset value))
  | .adcRanges write _ => do
      access (write.forM (writeRanges setup.port))
      let current ← access (readRanges setup.port)
      assign (.adcRanges write (some current))
  | .calibration group write _ => do
      access (write.forM (writeCalibration setup.port group))
      let current ← access (readCalibration setup.port group)
      assign (.calibration group write (some current))
  | .scanSetup write _ => do
      access (total (write.forM setup.port.writeScanSetup))
      let first ← access (total (setup.port.read Register.startChannel))
      let last ← access (total (setup.port.read Register.endChannel))
      let oversample ← access (total (setup.port.read Register.oversamples))
      assign (.scanSetup write (some ⟨first.toUInt8, last.toUInt8, oversample.toUInt8⟩))
  | .scan view _ => do
      let readings ← use (runScan setup)
      assign (.scan view (some readings))
  | .streamStart target =>
      use (total (ItemAction.acquisition (Instrument.startStream setup target)))
  | .streamStop _ => do
      let wasActive ← use (total (ItemAction.act (Instrument.stopStream setup)))
      assign (.streamStop (some wasActive))
  | .streamStatus _ => do
      let status ← use (total (ItemAction.act fun x => (x.streamStatus, x)))
      assign (.streamStatus (some status))
  | .dioInput bit _ => do
      let level ← access (readInput setup.port bit)
      assign (.dioInput bit (some level))
  | .dioOutput bit level => access (driveOutput setup.port bit level)
  | .connectionId _ => assign (.connectionId (some connection))

namespace RawItem

/-- Carry out an item where it stands, unless that was done or it failed before. -/
def executeInPlace (setup : Setup β δ) (connection : ConnectionId) (item : RawItem)
    (x : Instrument β δ) : Checked ((Except ItemError Unit × RawItem) × Instrument β δ) :=
  match item.status with
  | .pending => do
      let (result, kind, x) ←
        item.kind.fill setup connection item.code item.payload (item.kind, x)
      match result with
      | .ok () =>
          let done := { item with kind := kind, status := .done }
          let _ ← done.describe true
          return ((.ok (), done), x)
      | .error e =>
          return ((.error e, { item with kind := kind, status := .failed (.ofError e) }), x)
  | _ => return ((.ok (), item), x)

end RawItem

/-- An occasion on which an item is carried out: for whom, and the instrument at that time. -/
structure Turn (β δ : Type) where
  setup : Setup β δ
  connection : ConnectionId
  instrument : Instrument β δ

/-- What comes of an item that is carried out on one occasion after the other: every time the
outcome, the item after it and the instrument after it. -/
def RawItem.takeTurns : List (Turn β δ) → RawItem →
    Checked (List ((Except ItemError Unit × RawItem) × Instrument β δ))
  | [], _ => return []
  | turn :: turns, item => do
      let ((result, item), x) ← item.executeInPlace turn.setup turn.connection turn.instrument
      let later ← takeTurns turns item
      return ((result, item), x) :: later

/-- What comes of a guarded item on one occasion after the other. -/
def Item.takeTurns : List (Turn β δ) → Item →
    List ((Except ItemError Unit × Item) × Instrument β δ)
  | [], _ => []
  | turn :: turns, item =>
      let ((result, item), x) := item.execute turn.setup turn.connection turn.instrument
      ((result, item), x) :: takeTurns turns item

end DaqServer
