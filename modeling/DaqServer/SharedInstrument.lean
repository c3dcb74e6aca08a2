import DaqServer.Scan.Steps
import DaqServer.Stream.Bench

/-!
# Scans and sessions at one instrument

A shared instrument is a bench with the scans that are under way on its instrument. A scan takes its
steps between those of the calls and threads of the streaming session: it claims the ADC, does its
accesses one by one and gives the ADC up. Every scan has a stopwatch of its own, since what others
do in between takes time.
-/

namespace DaqServer

variable {β δ : Type}

inductive ScanPoint
  /-- About to claim the ADC. -/
  | claiming
  /-- The ADC is claimed, and the registers gave these answers so far. -/
  | measuring (answers : List PortAnswer)
  /-- The ADC is not claimed any more, if it ever was. -/
  | returned (result : Except AcquisitionError Readings)

inductive ScanStep
  | claim
  | access (access : PortAccess)
  /-- Give up the claim and return. -/
  | finish
  deriving DecidableEq, Repr

/-- A scan that was asked for. -/
structure ScanCall where
  watch : Stopwatch
  point : ScanPoint

/-- Whether a scan is between its claim on the ADC and the end of that. -/
def ScanCall.isMeasuring (scan : ScanCall) : Bool :=
  match scan.point with
  | .measuring _ => true
  | _ => false

def ScanPoint.step (setup : Setup β δ) (watch : Stopwatch) (b : Bench β δ) :
    ScanStep → ScanPoint → Option (ScanPoint × Bench β δ)
  | .claim, .claiming =>
      match b.instrument.arbiter.beginScan with
      | .error e => some (.returned (.error e), b)
      | .ok held => some (.measuring [], b.on fun x => { x with arbiter := held })
  | .access access, .measuring answers =>
      match Scan.move setup.scan watch answers with
      | .access next =>
          if next = access then
            let (answer, board) := access.perform setup.port b.instrument.board
            some (.measuring (answers ++ [answer]), b.on fun x => { x with board := board })
          else none
      | .finish _ => none
  | .finish, .measuring answers =>
      match Scan.move setup.scan watch answers with
      | .access _ => none
      | .finish result =>
          some (.returned result, b.on fun x => { x with arbiter := x.arbiter.endScan })
  | _, _ => none

/-- A bench and the scans on its instrument. -/
structure SharedInstrument (β δ : Type) where
  bench : Bench β δ
  /-- All scans so far, numbered from zero. -/
  scans : List ScanCall

/-- One step of someone in a shared instrument. -/
inductive SharedAct (β δ : Type)
  /-- Someone other than a scan acts at the bench. -/
  | bench (act : Act β δ)
  /-- A new scan is asked for. -/
  | arrive (watch : Stopwatch)
  | scan (number : Nat) (step : ScanStep)

namespace SharedInstrument

def fresh (board : β) (dma : δ) : SharedInstrument β δ := ⟨.fresh board dma, []⟩

/-- Whether a scan of this number is between its claim on the ADC and the end of that. -/
def IsMeasuring (shared : SharedInstrument β δ) (number : Nat) : Prop :=
  ∃ scan, shared.scans[number]? = some scan ∧ scan.isMeasuring

def step (setup : Setup β δ) (shared : SharedInstrument β δ) :
    SharedAct β δ → Option (SharedInstrument β δ)
  | .bench act =>
      if act.isScan then none
      else (shared.bench.step setup act).map fun bench => { shared with bench := bench }
  | .arrive watch => some { shared with scans := shared.scans ++ [⟨watch, .claiming⟩] }
  | .scan number step =>
      shared.scans[number]?.bind fun scan =>
        (scan.point.step setup scan.watch shared.bench step).map fun next =>
          ⟨next.2, shared.scans.set number { scan with point := next.1 }⟩

def run (setup : Setup β δ) :
    List (SharedAct β δ) → SharedInstrument β δ → Option (SharedInstrument β δ)
  | [], shared => some shared
  | act :: acts, shared => (shared.step setup act).bind (run setup acts)

end SharedInstrument

end DaqServer
