/-!
# The shutdown request

A shutdown request is a flag that is set once and a counter of wake-ups. A waiter takes a ticket,
the value of the counter, before it looks at the flag; a wake-up reaches every ticket taken before
it. The steps of requesters and waiters are the atomic ones, so that their interleavings can be
spoken of.
-/

namespace DaqServer

/-- The shared state of a shutdown request. -/
structure ShutdownSignal where
  /-- Whether shutdown has been requested. -/
  requested : Bool
  /-- How often the waiters have been woken. -/
  wakeups : Nat
  deriving DecidableEq, Repr

namespace ShutdownSignal

def quiet : ShutdownSignal := ⟨false, 0⟩

inductive Requester
  | arriving
  /-- The flag is set, and it was this requester that set it. -/
  | setting
  | finished
  deriving DecidableEq, Repr

/-- One atomic step of a requester: set the flag, then wake the waiters if it was not set before. -/
def Requester.step (s : ShutdownSignal) : Requester → Option (Requester × ShutdownSignal)
  | arriving =>
      some (if s.requested then .finished else .setting, { s with requested := true })
  | setting => some (.finished, { s with wakeups := s.wakeups + 1 })
  | finished => none

inductive Waiter
  | arriving
  /-- A ticket is taken and the flag not yet looked at. -/
  | holding (ticket : Nat)
  /-- The flag was not set; only a wake-up after the ticket helps. -/
  | suspended (ticket : Nat)
  | returned
  deriving DecidableEq, Repr

/-- One atomic step of a waiter, if it can take one. -/
def Waiter.step (s : ShutdownSignal) : Waiter → Option Waiter
  | arriving => some (.holding s.wakeups)
  | holding ticket => some (if s.requested then .returned else .suspended ticket)
  | suspended ticket => if ticket < s.wakeups then some .arriving else none
  | returned => none

/-- Request shutdown: a requester taken through all its steps. -/
def request (s : ShutdownSignal) : ShutdownSignal :=
  if s.requested then s else { requested := true, wakeups := s.wakeups + 1 }

/-- Whether a waiter that arrives now returns without anyone else acting. -/
def resolves (s : ShutdownSignal) : Bool :=
  ((Waiter.arriving.step s).bind (Waiter.step s)) == some .returned

@[simp] theorem requested_request (s : ShutdownSignal) : s.request.requested = true := by
  unfold request
  split <;> simp_all

theorem resolves_eq_requested (s : ShutdownSignal) : s.resolves = s.requested := by
  cases h : s.requested <;> simp [resolves, Waiter.step, h]

end ShutdownSignal

end DaqServer
