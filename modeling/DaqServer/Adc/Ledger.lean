import DaqServer.Adc.Arbiter

/-!
# Claims of the ADC

A ledger keeps the outstanding claims beside the arbiter. It goes by what the callers are told: a
claim is entered when it is granted and struck off when its guard is dropped or when the arbiter
tells that it was released. Every claim of a scan has a guard with a number of its own; who has the
guard can drop it, and nobody else. The arbiter answers under a lock, so calls come one at a time.
-/

namespace DaqServer

/-- A claim that was granted and has not been given up. -/
inductive Claim
  /-- The claim of a scan, with the number of its guard. -/
  | scan (guard : Nat)
  /-- The claim of the session of a connection. -/
  | stream (id : ConnectionId)
  deriving DecidableEq, Repr

namespace Claim

def owner : Claim → AdcOwner
  | scan _ => .scan
  | stream id => .stream id

def connection? : Claim → Option ConnectionId
  | scan _ => none
  | stream id => some id

end Claim

/-- What callers ask of the arbiter. -/
inductive ClaimCall
  | beginScan
  /-- Drop the guard of a scan. -/
  | dropScan (guard : Nat)
  | claimStream (id : ConnectionId)
  | releaseStream (id : ConnectionId)
  deriving DecidableEq, Repr

/-- What they are told. -/
inductive ClaimAnswer
  /-- A scan may begin; its guard has this number. -/
  | scanning (guard : Nat)
  | streaming
  | refused (e : AcquisitionError)
  /-- Whether the connection had a claim to release. -/
  | released (held : Bool)
  | dropped
  deriving DecidableEq, Repr

/-- The arbiter with the claims that are outstanding. -/
structure Ledger where
  arbiter : Arbiter
  /-- How many guards have been handed out. -/
  issued : Nat
  claims : List Claim
  deriving DecidableEq, Repr

namespace Ledger

def blank : Ledger := ⟨.idle, 0, []⟩

/-- Make a call. A guard that is not there cannot be dropped. -/
def step (l : Ledger) : ClaimCall → Option (ClaimAnswer × Ledger)
  | .beginScan =>
      match l.arbiter.beginScan with
      | .ok held => some (.scanning l.issued, ⟨held, l.issued + 1, .scan l.issued :: l.claims⟩)
      | .error e => some (.refused e, l)
  | .dropScan guard =>
      if .scan guard ∈ l.claims then
        some (.dropped,
          { l with arbiter := l.arbiter.endScan, claims := l.claims.erase (.scan guard) })
      else none
  | .claimStream id =>
      match l.arbiter.claimStream id with
      | .ok held => some (.streaming, { l with arbiter := held, claims := .stream id :: l.claims })
      | .error e => some (.refused e, l)
  | .releaseStream id =>
      let held := l.arbiter.isStreamOf id
      some (.released held,
        { l with
          arbiter := l.arbiter.releaseStream id
          claims := if held then l.claims.erase (.stream id) else l.claims })

def run : List ClaimCall → Ledger → Option Ledger
  | [], l => some l
  | call :: calls, l => (l.step call).bind fun next => run calls next.2

end Ledger

end DaqServer
