import DaqServer.Shutdown

/-!
# Requesting and awaiting a shutdown

All clones of a shutdown signal share its state, and calls of them overlap: some request shutdown,
others wait for it. A call is one that arrives and then takes its atomic steps one by one; between
two of them any other call may take its own.
-/

namespace DaqServer

open ShutdownSignal (Requester Waiter)

/-- A signal with the calls that were made of its clones, in the order in which they arrived. -/
structure ShutdownCalls where
  signal : ShutdownSignal
  requesters : List Requester
  waiters : List Waiter
  deriving DecidableEq, Repr

/-- What happens around a signal. -/
inductive ShutdownAct
  /-- A clone is asked to request shutdown. -/
  | request
  /-- A clone is asked to wait for it. -/
  | await
  /-- A requester takes its next step. -/
  | requester (number : Nat)
  /-- A waiter takes its next step. -/
  | waiter (number : Nat)
  deriving DecidableEq, Repr

namespace ShutdownCalls

def start : ShutdownCalls := ⟨.quiet, [], []⟩

/-- One act, if it can be done. A call that is over has no next step, and neither has a waiter whose
ticket no wake-up has reached. -/
def step (v : ShutdownCalls) : ShutdownAct → Option ShutdownCalls
  | .request => some { v with requesters := v.requesters ++ [.arriving] }
  | .await => some { v with waiters := v.waiters ++ [.arriving] }
  | .requester number => do
      let requester ← v.requesters[number]?
      let (next, signal) ← requester.step v.signal
      return { v with signal := signal, requesters := v.requesters.set number next }
  | .waiter number => do
      let waiter ← v.waiters[number]?
      let next ← waiter.step v.signal
      return { v with waiters := v.waiters.set number next }

def run : List ShutdownAct → ShutdownCalls → Option ShutdownCalls
  | [], v => some v
  | act :: acts, v => (v.step act).bind (run acts)

def wakesBy (v : ShutdownCalls) : ShutdownAct → Bool
  | .requester number => v.requesters[number]? == some .setting
  | _ => false

def wakings : List ShutdownAct → ShutdownCalls → Nat
  | [], _ => 0
  | act :: acts, v => (if v.wakesBy act then 1 else 0) + ((v.step act).map (wakings acts)).getD 0

end ShutdownCalls

end DaqServer
