import DaqServer.Adc.Ledger
import Mathlib.Data.List.Basic

/-!
# The arbiter tracks claims

The state word of the arbiter knows nothing of guards, and callers know nothing of the state word.
`HeldBy` says that they agree: the word names the one claim that is outstanding, if there is one.
From that what a call does can be read off (`step_of_heldBy`), and every call keeps it. Main
statement: whatever was claimed, dropped and released before, the arbiter grants a claim exactly
when none is outstanding, and ends one only for its holder.
-/

namespace DaqServer

def Claim.refusal : Claim → AcquisitionError
  | scan _ => .adcBusy .scan
  | stream active => .streamBusy active

namespace Ledger

/-- What is claimed by at most one holder: the arbiter names it, and no other claim is outstanding.
-/
structure HeldBy (holder : Option Claim) (l : Ledger) : Prop where
  owner : l.arbiter.owner = holder.map Claim.owner
  claims : l.claims = holder.toList

variable {holder : Option Claim} {l l' : Ledger} {call : ClaimCall} {answer : ClaimAnswer}

/-- What a call is answered and what becomes of the ledger, by the claim that is outstanding. -/
def expected (holder : Option Claim) (l : Ledger) : ClaimCall → Option (ClaimAnswer × Ledger)
  | .beginScan =>
      match holder with
      | none => some (.scanning l.issued, ⟨⟨some .scan⟩, l.issued + 1, [.scan l.issued]⟩)
      | some claim => some (.refused (.adcBusy claim.owner), l)
  | .dropScan guard =>
      if holder = some (.scan guard) then some (.dropped, ⟨.idle, l.issued, []⟩) else none
  | .claimStream id =>
      match holder with
      | none => some (.streaming, ⟨⟨some (.stream id)⟩, l.issued, [.stream id]⟩)
      | some claim => some (.refused claim.refusal, l)
  | .releaseStream id =>
      if holder = some (.stream id) then some (.released true, ⟨.idle, l.issued, []⟩)
      else some (.released false, l)

/-- The arbiter names a connection exactly when its session has the claim. -/
theorem HeldBy.isStreamOf (h : l.HeldBy holder) (id : ConnectionId) :
    l.arbiter.isStreamOf id ↔ holder = some (.stream id) := by
  rw [Arbiter.isStreamOf, beq_iff_eq, h.owner]
  rcases holder with _ | _ | active <;> simp [Claim.owner]

theorem HeldBy.mem_claims (h : l.HeldBy holder) (claim : Claim) :
    claim ∈ l.claims ↔ holder = some claim := by
  rw [h.claims, Option.mem_toList]

/-- Every call is answered by the claim that is outstanding. -/
theorem step_of_heldBy (h : l.HeldBy holder) (call : ClaimCall) :
    l.step call = expected holder l call := by
  cases call with
  | beginScan =>
      rw [step, Arbiter.beginScan, h.owner, h.claims]
      rcases holder with _ | _ | _ <;> rfl
  | claimStream id =>
      rw [step, Arbiter.claimStream, h.owner, h.claims]
      rcases holder with _ | _ | _ <;> rfl
  | dropScan guard =>
      rw [step, expected]
      by_cases hholder : holder = some (.scan guard)
      · have howner : l.arbiter.owner = some .scan := by rw [h.owner, hholder]; rfl
        rw [if_pos ((h.mem_claims _).mpr hholder), if_pos hholder, Arbiter.endScan, if_pos howner,
          h.claims, hholder, Option.toList_some, List.erase_cons_head]
      · rw [if_neg (mt (h.mem_claims _).mp hholder), if_neg hholder]
  | releaseStream id =>
      rw [step, expected, Arbiter.releaseStream]
      by_cases hholder : holder = some (.stream id)
      · rw [if_pos hholder, (h.isStreamOf id).mpr hholder, h.claims, hholder, Option.toList_some,
          if_pos rfl, if_pos rfl, List.erase_cons_head]
      · have hnot : l.arbiter.isStreamOf id = false :=
          Bool.eq_false_iff.mpr (mt (h.isStreamOf id).mp hholder)
        rw [if_neg hholder, hnot]
        rfl

/-! ### Runs -/

/-- What is true of a ledger after some calls on a blank one. -/
structure Sound (past : List ClaimCall) (l : Ledger) : Prop where
  heldBy : ∃ holder, l.HeldBy holder
  /-- A guard that was handed out is there, or it was dropped, once. -/
  guards : ∀ guard, past.count (.dropScan guard) + l.claims.count (.scan guard) =
    if guard < l.issued then 1 else 0

variable {past calls : List ClaimCall}

theorem sound_blank : Sound [] blank := ⟨⟨none, rfl, rfl⟩, fun _ => rfl⟩

/-- Calls that have nothing to do with guards keep account of them. -/
theorem Sound.of_guards_eq (h : Sound past l) (hcall : ∀ guard, call ≠ .dropScan guard)
    (hheld : l'.HeldBy holder) (hissued : l'.issued = l.issued)
    (hclaims : ∀ guard, l'.claims.count (.scan guard) = l.claims.count (.scan guard)) :
    Sound (past ++ [call]) l' := by
  refine ⟨⟨holder, hheld⟩, fun guard => ?_⟩
  rw [List.count_append, List.count_singleton, if_neg (by simpa using hcall guard), hclaims,
    hissued]
  exact h.guards guard

theorem Sound.step (h : Sound past l) (hstep : l.step call = some (answer, l')) :
    Sound (past ++ [call]) l' := by
  obtain ⟨holder, hheld⟩ := h.heldBy
  rw [step_of_heldBy hheld] at hstep
  cases call with
  | beginScan =>
      rcases holder with _ | claim
      · cases hstep
        refine ⟨⟨some (.scan l.issued), rfl, rfl⟩, fun guard => ?_⟩
        -- The guard that is handed out is the first one that was not there before.
        have hguard := h.guards guard
        simp only [hheld.claims, List.count_append, List.count_cons] at hguard ⊢
        grind
      · cases hstep
        exact h.of_guards_eq nofun hheld rfl fun _ => rfl
  | claimStream id =>
      rcases holder with _ | claim
      · cases hstep
        have hheld' : HeldBy (some (.stream id)) ⟨⟨some (.stream id)⟩, l.issued, [.stream id]⟩ :=
          ⟨rfl, rfl⟩
        refine h.of_guards_eq nofun hheld' rfl fun guard => ?_
        rw [hheld.claims]
        rfl
      · cases hstep
        exact h.of_guards_eq nofun hheld rfl fun _ => rfl
  | dropScan guard =>
      rw [expected] at hstep
      split at hstep
      · rename_i hholder
        cases hstep
        refine ⟨⟨none, rfl, rfl⟩, fun other => ?_⟩
        have hother := h.guards other
        simp only [hheld.claims, hholder, List.count_append, Option.toList_some,
          List.count_singleton] at hother ⊢
        grind
      · cases hstep
  | releaseStream id =>
      rw [expected] at hstep
      split at hstep
      · rename_i hholder
        cases hstep
        have hheld' : HeldBy none ⟨.idle, l.issued, []⟩ := ⟨rfl, rfl⟩
        refine h.of_guards_eq nofun hheld' rfl fun guard => ?_
        rw [hheld.claims, hholder]
        rfl
      · cases hstep
        exact h.of_guards_eq nofun hheld rfl fun _ => rfl

theorem Sound.run (h : Sound past l) (hrun : l.run calls = some l') : Sound (past ++ calls) l' := by
  induction calls generalizing past l with
  | nil =>
      cases hrun
      rwa [List.append_nil]
  | cons call calls ih =>
      obtain ⟨⟨answer, next⟩, hstep, hrest⟩ := Option.bind_eq_some_iff.mp hrun
      rw [List.append_cons]
      exact ih (h.step hstep) hrest

/-- The arbiter tracks claims exactly. Whatever has been claimed, dropped and released on an idle
ADC, by whom and in what order:

* at most one claim is outstanding, and the arbiter names its holder and no other;
* a scan or a session gets the ADC if no claim is outstanding, and otherwise it is told who has it
  and nothing changes;
* a connection releases the claim of its own session and frees the ADC with it; without one it
  changes nothing;
* a guard that is there frees the ADC when it is dropped, and would not if a session had the claim;
* of every guard that was handed out either the claim is outstanding, or it was dropped, once. -/
theorem tracks_claims {ledger : Ledger} (h : blank.run calls = some ledger) :
    ledger.claims.length ≤ 1 ∧
    ledger.arbiter.owner = ledger.claims.head?.map Claim.owner ∧
    ledger.arbiter.streamingOwner = ledger.claims.head?.bind Claim.connection? ∧
    (ledger.claims = [] →
      ledger.step .beginScan = some (.scanning ledger.issued,
        ⟨⟨some .scan⟩, ledger.issued + 1, [.scan ledger.issued]⟩) ∧
      ∀ id, ledger.step (.claimStream id) =
        some (.streaming, ⟨⟨some (.stream id)⟩, ledger.issued, [.stream id]⟩)) ∧
    (∀ claim ∈ ledger.claims,
      ledger.step .beginScan = some (.refused (.adcBusy claim.owner), ledger) ∧
      ∀ id, ledger.step (.claimStream id) = some (.refused claim.refusal, ledger)) ∧
    (∀ id, ledger.step (.releaseStream id) =
      if .stream id ∈ ledger.claims then some (.released true, ⟨.idle, ledger.issued, []⟩)
      else some (.released false, ledger)) ∧
    (∀ guard, ledger.step (.dropScan guard) =
      if .scan guard ∈ ledger.claims then some (.dropped, ⟨.idle, ledger.issued, []⟩) else none) ∧
    (∀ id, .stream id ∈ ledger.claims → ledger.arbiter.endScan = ledger.arbiter) ∧
    (∀ guard, calls.count (.dropScan guard) + ledger.claims.count (.scan guard) =
      if guard < ledger.issued then 1 else 0) := by
  obtain ⟨⟨holder, hheld⟩, hguards⟩ := sound_blank.run h
  have hstep := step_of_heldBy hheld
  have hhead : ledger.claims.head? = holder := by
    rw [hheld.claims]
    cases holder <;> rfl
  refine ⟨?_, by rw [hheld.owner, hhead], ?_, fun hfree => ?_, fun claim hclaim => ?_, fun id => ?_,
    fun guard => ?_, fun id hid => ?_, hguards⟩
  · rw [hheld.claims]
    cases holder <;> simp
  · rw [hhead, Arbiter.streamingOwner, hheld.owner]
    rcases holder with _ | _ | _ <;> rfl
  · rw [hfree] at hhead
    subst hhead
    exact ⟨hstep _, fun id => hstep _⟩
  · obtain rfl := (hheld.mem_claims claim).mp hclaim
    exact ⟨hstep _, fun id => hstep _⟩
  · rw [hstep, if_congr (hheld.mem_claims _) rfl rfl]
    rfl
  · rw [hstep, if_congr (hheld.mem_claims _) rfl rfl]
    rfl
  · have howner : ledger.arbiter.owner = some (.stream id) := by
      rw [hheld.owner, (hheld.mem_claims _).mp hid]
      rfl
    rw [Arbiter.endScan, howner, if_neg nofun]

/-- A scan is over when two connections ask for a session; the one that is refused releases what it
does not have. -/
theorem tracks_claims_of_rollback :
    let calls : List ClaimCall := [.beginScan, .claimStream ⟨3⟩, .dropScan 0, .claimStream ⟨3⟩,
      .claimStream ⟨4⟩, .releaseStream ⟨4⟩]
    ∃ ledger, blank.run calls = some ledger ∧ ledger.claims = [.stream ⟨3⟩] ∧
      ledger.arbiter.streamingOwner = some ⟨3⟩ ∧ calls.count (.dropScan 0) = 1 := by
  intro calls
  have hrun : blank.run calls = some ⟨⟨some (.stream ⟨3⟩)⟩, 1, [.stream ⟨3⟩]⟩ := by decide
  obtain ⟨-, -, howner, -, -, -, -, -, hguards⟩ := tracks_claims hrun
  exact ⟨_, hrun, rfl, howner, hguards 0⟩

end Ledger

end DaqServer
