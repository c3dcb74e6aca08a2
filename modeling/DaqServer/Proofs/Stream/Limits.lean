import DaqServer.Proofs.Stream.Session
import DaqServer.Proofs.Stream.Transfers
import DaqServer.Stream.Limits

/-!
# Sessions at and beyond their limits

Where the sizes of a session have room, its checked start is `Instrument.startStream`. Beyond that
the start stops after it has claimed the ADC, or the worker stops as it makes the ring; either way
nobody is left who would give the ADC up. Main statements: `startStream_eq`, `startStream_traps` and
`startStream_without_ring`.
-/

namespace DaqServer

/-- A transfer has room in a slot, and the slots have room in the row of the ring. -/
structure StreamSettings.Fits (s : StreamSettings) : Prop where
  transfer : s.blockBytes < Checked.pieceLimit
  row : 16 * s.ringSlots.toNat < Checked.pieceLimit

theorem SimulatedDma.resize_eq {bytes : UInt64} (h : bytes.toNat < Checked.pieceLimit) :
    resize bytes = .total (configure bytes.toNat) := by
  funext d
  simp only [resize, configure, Halting.total, badSize_iff,
    Checked.copies_of_lt (show 1 * bytes.toNat < Checked.pieceLimit by rwa [Nat.one_mul])]
  split
  · rfl
  · split <;> rfl

namespace Checked

theorem ring_of_lt {slots slotBytes : UInt64} (hslot : slotBytes.toNat < pieceLimit)
    (hrow : 16 * slots.toNat < pieceLimit) :
    ring slots slotBytes = .ok (.make slots.toNat slotBytes.toNat) := by
  rw [ring, copies_of_lt (by rwa [Nat.one_mul])]
  change (copies 16 slots _ >>= _) = _
  rw [copies_of_lt hrow]
  rfl

theorem ring_of_le {slots slotBytes : UInt64} (hslot : slotBytes.toNat < pieceLimit)
    (hrow : pieceLimit ≤ 16 * slots.toNat) : ring slots slotBytes = .error .capacity := by
  rw [ring, copies_of_lt (by rwa [Nat.one_mul])]
  change (copies 16 slots _ >>= _) = _
  rw [copies_of_le hrow]
  rfl

section

variable {β : Type} {setup : Setup β SimulatedDma} {id : ConnectionId} {sink : SinkId}
  {x : Instrument β SimulatedDma} {held : Arbiter}

theorem startDma_of_lt (hdma : setup.dma = SimulatedDma.engine)
    (hroom : setup.stream.blockBytes < pieceLimit) : ∃ bytes : UInt64,
      bytes.toNat = setup.stream.blockBytes ∧ ∀ d, startDma setup d =
        (.ok ((Instrument.startDma setup d).1.map fun _ => bytes),
          (Instrument.startDma setup d).2) := by
  obtain ⟨bytes, hbytes, hexact⟩ :=
    StreamSettings.transferBytes_of_lt (Nat.lt_trans hroom (by decide))
  refine ⟨bytes, hexact, fun d => ?_⟩
  have hresize : setup.dma.resize bytes = .total (setup.dma.configure setup.stream.blockBytes) := by
    rw [hdma, ← hexact]
    exact SimulatedDma.resize_eq (hexact ▸ hroom)
  rw [startDma, hbytes, Instrument.startDma_eq]
  dsimp only
  rw [hresize, Halting.total]
  rcases setup.dma.configure setup.stream.blockBytes d with ⟨e | ⟨⟩, d'⟩
  · rfl
  · simp only [Halting.total, bind, ExceptT.bind, ExceptT.mk, StateT.bind]
    rcases setup.dma.start d' with ⟨e | ⟨⟩, d''⟩ <;> rfl

/-- Where all sizes have room, nothing stops a start. -/
theorem startStream_eq (hdma : setup.dma = SimulatedDma.engine) (hfits : setup.stream.Fits)
    (id : ConnectionId) :
    startStream setup id = .total (Instrument.startStream setup id) := by
  obtain ⟨bytes, hexact, hstart⟩ := startDma_of_lt hdma hfits.transfer
  have hring : ring setup.stream.ringSlots bytes =
      .ok (.make setup.stream.ringSlots.toNat setup.stream.blockBytes) := by
    rw [← hexact]
    exact ring_of_lt (hexact ▸ hfits.transfer) hfits.row
  funext x
  rw [startStream, Halting.total, Instrument.startStream]
  cases x.arbiter.claimStream id with
  | error e => rfl
  | ok held =>
      dsimp only
      cases x.endpoint? id with
      | none => rfl
      | some sink =>
          dsimp only
          rw [hstart]
          rcases Instrument.startDma setup x.dma with ⟨e | ⟨⟩, dma⟩
          · rfl
          · dsimp only [Except.map]
            rw [hring]
            rfl

/-- A claim on the ADC that was granted keeps everyone else from it. -/
theorem refused_of_claimStream {a : Arbiter} (hclaim : a.claimStream id = .ok held) :
    held.beginScan = .error (.adcBusy (.stream id)) ∧
      ∀ other, held.claimStream other = .error (.streamBusy id) := by
  rw [Arbiter.claimStream] at hclaim
  split at hclaim <;> cases hclaim
  exact ⟨rfl, fun _ => rfl⟩

/-- A transfer has no room in a slot. An engine that is stopped has its size if a word counts it. -/
theorem startDma_of_le (hdma : setup.dma = SimulatedDma.engine)
    (hsamples : setup.stream.transferSamples ≠ 0) (htight : pieceLimit ≤ setup.stream.blockBytes)
    {d : SimulatedDma} (hstopped : d.running = false) :
    startDma setup d = if setup.stream.blockBytes < UInt64.size then
        (.error .capacity, { d with transferBytes := setup.stream.blockBytes })
      else (.error .overflow, d) := by
  by_cases hcounted : setup.stream.blockBytes < UInt64.size
  · obtain ⟨bytes, hbytes, -, -, -, hresize⟩ :=
      StreamSettings.resize_transferBytes hsamples hcounted
    have htrap := (hresize d hstopped).trans (if_neg (Nat.not_lt_of_le htight))
    rw [if_pos hcounted, startDma, hbytes, hdma]
    dsimp only [SimulatedDma.engine]
    rw [htrap]
    rfl
  · rw [if_neg hcounted, startDma, StreamSettings.transferBytes_of_le (Nat.le_of_not_lt hcounted)]

/-- Where a transfer has no room, a start stops with the ADC claimed and the sink gone, and nobody
gets the ADC after that. -/
theorem startStream_traps (hdma : setup.dma = SimulatedDma.engine)
    (hsamples : setup.stream.transferSamples ≠ 0) (htight : pieceLimit ≤ setup.stream.blockBytes)
    (hclaim : x.arbiter.claimStream id = .ok held) (hsink : x.endpoint? id = some sink)
    (hstopped : x.dma.running = false) :
    ∃ trap dma, startDma setup x.dma = (.error trap, dma) ∧ dma.running = false ∧
      startStream setup id x =
        (.error trap, { x.removeEndpoint id with arbiter := held, dma := dma }) ∧
      held.beginScan = .error (.adcBusy (.stream id)) ∧
      ∀ other, held.claimStream other = .error (.streamBusy id) := by
  obtain ⟨trap, dma, hstart, hrunning⟩ : ∃ trap dma,
      startDma setup x.dma = (.error trap, dma) ∧ dma.running = false := by
    rw [startDma_of_le hdma hsamples htight hstopped]
    split <;> exact ⟨_, _, rfl, hstopped⟩
  refine ⟨trap, dma, hstart, hrunning, ?_, refused_of_claimStream hclaim⟩
  rw [startStream, hclaim, hsink]
  dsimp only
  rw [hstart]

/-- The slots have no room in the row of the ring. The start succeeds, the engine runs and the ADC
is claimed; but the worker has ended, so that neither thread of the run takes a step. -/
theorem startStream_without_ring (hdma : setup.dma = SimulatedDma.engine)
    (hsamples : setup.stream.transferSamples ≠ 0) (hroom : setup.stream.blockBytes < pieceLimit)
    (hrow : pieceLimit ≤ 16 * setup.stream.ringSlots.toNat)
    (hclaim : x.arbiter.claimStream id = .ok held) (hsink : x.endpoint? id = some sink)
    (hstopped : x.dma.running = false) :
    ∃ y, startStream setup id x = (.ok (.ok ()), y) ∧ y.arbiter = held ∧ y.dma.running = true ∧
      y.isJoined = true ∧ y.workerStep setup = none ∧ y.loggerStep setup = none := by
  obtain ⟨bytes, hexact, hstart⟩ := startDma_of_lt hdma hroom
  have hring : ring setup.stream.ringSlots bytes = .error .capacity :=
    ring_of_le (hexact ▸ hroom) hrow
  have hpositive : setup.stream.transferSamples.toNat ≠ 0 :=
    fun hzero => hsamples (UInt64.toNat_inj.mp hzero)
  have hsize : ¬ (setup.stream.blockBytes = 0 ∨ setup.stream.blockBytes % 4 ≠ 0) := by
    rw [StreamSettings.blockBytes]
    omega
  have hstarted : ∃ dma, Instrument.startDma setup x.dma = (.ok (), dma) ∧ dma.running = true := by
    rw [Instrument.startDma_eq, hdma]
    simp only [SimulatedDma.engine, SimulatedDma.configure, if_neg hsize, hstopped,
      if_neg Bool.false_ne_true, SimulatedDma.start, if_neg (not_or.mp hsize).1]
    exact ⟨_, rfl, rfl⟩
  obtain ⟨dma, hdmaStart, hrunning⟩ := hstarted
  rw [startStream, hclaim, hsink]
  dsimp only
  rw [hstart, hdmaStart]
  dsimp only [Except.map]
  rw [hring]
  exact ⟨_, rfl, rfl, hrunning, rfl, rfl, rfl⟩

end

end Checked

end DaqServer
