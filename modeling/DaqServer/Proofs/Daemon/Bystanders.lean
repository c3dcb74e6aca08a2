import DaqServer.Message.Executor

/-!
# Who else uses the instrument

An item does not notice everything that becomes of the instrument before it is carried out: a
relation that items are `Blind` to is kept by carrying them out, and they yield the same on related
instruments. Main statement: unless they start a session, items are blind to streaming connections
that come and go, to stops and to requests for a shutdown.
-/

namespace DaqServer

variable {β δ : Type} {setup : Setup β δ}

/-- The same results, and instruments that are related. -/
def UpTo {α : Type} (R : Instrument β δ → Instrument β δ → Prop) (p q : α × Instrument β δ) :
    Prop :=
  p.1 = q.1 ∧ R p.2 q.2

/-- A relation of instruments that items do not notice. -/
structure Blind (setup : Setup β δ) (R : Instrument β δ → Instrument β δ → Prop)
    (asked : Item → Prop) : Prop where
  refl : ∀ x, R x x
  trans : ∀ {x y z}, R x y → R y z → R x z
  execute : ∀ {item}, asked item → ∀ connection {x y}, R x y →
    UpTo R (item.execute setup connection x) (item.execute setup connection y)

theorem upTo_eq {α : Type} {p q : α × Instrument β δ} : UpTo Eq p q ↔ p = q :=
  Prod.ext_iff.symm

/-- Every item is blind to nothing at all. -/
theorem blind_eq (setup : Setup β δ) : Blind setup Eq fun _ => True where
  refl _ := rfl
  trans := Eq.trans
  execute _ _ _ _ h := upTo_eq.mpr (h ▸ rfl)

variable {R : Instrument β δ → Instrument β δ → Prop} {asked : Item → Prop}

theorem Blind.executeItems (h : Blind setup R asked) {items : List Item}
    (hasked : ∀ item ∈ items, asked item) (connection : ConnectionId) {x y : Instrument β δ}
    (hxy : R x y) :
    UpTo R (executeItems setup connection items x) (executeItems setup connection items y) := by
  induction items generalizing x y with
  | nil => exact ⟨rfl, hxy⟩
  | cons item rest ih =>
      have hitem := h.execute (hasked item List.mem_cons_self) connection hxy
      rw [DaqServer.executeItems, DaqServer.executeItems]
      rcases hx : item.execute setup connection x with ⟨⟨result, done⟩, x'⟩
      rcases hy : item.execute setup connection y with ⟨other, y'⟩
      rw [hx, hy] at hitem
      obtain rfl : (result, done) = other := hitem.1
      have hnext : R x' y' := hitem.2
      cases result with
      | error e => exact ⟨rfl, hnext⟩
      | ok _ =>
          obtain ⟨hrest, hlast⟩ :=
            ih (fun item hmem => hasked item (List.mem_cons_of_mem _ hmem)) hnext
          exact ⟨congrArg (done :: ·) hrest, hlast⟩

namespace Instrument

/-- Instruments with the same board, the same owner of the ADC and the same progress of the last
run. -/
structure Alike (x y : Instrument β δ) : Prop where
  board : x.board = y.board
  arbiter : x.arbiter = y.arbiter
  blocksSent : x.session.run.map (·.flags.blocksSent) = y.session.run.map (·.flags.blocksSent)

namespace Alike

variable {x y z : Instrument β δ}

theorem refl (x : Instrument β δ) : x.Alike x := ⟨rfl, rfl, rfl⟩

theorem symm (h : x.Alike y) : y.Alike x := ⟨h.board.symm, h.arbiter.symm, h.blocksSent.symm⟩

theorem trans (h : x.Alike y) (h' : y.Alike z) : x.Alike z :=
  ⟨h.board.trans h'.board, h.arbiter.trans h'.arbiter, h.blocksSent.trans h'.blocksSent⟩

end Alike

/-! ### What others do -/

theorem alike_registerEndpoint (id : ConnectionId) (sink : Sink) (x : Instrument β δ) :
    x.Alike (x.registerEndpoint id sink).2 := ⟨rfl, rfl, rfl⟩

theorem alike_requestStop (setup : Setup β δ) (x : Instrument β δ) :
    x.Alike (x.requestStop setup) := by
  rw [requestStop]
  cases hrun : x.session.run with
  | none => exact .refl x
  | some run => exact ⟨rfl, rfl, by rw [hrun]; rfl⟩

end Instrument

/-! ### What requests do -/

open Instrument (Alike)

def Request.startsNothing : Request → Bool
  | streamStart _ => false
  | _ => true

theorem upTo_alike_board {α : Type} (access : Access β α) {x y : Instrument β δ} (h : x.Alike y) :
    UpTo Alike (ItemAction.board access x) (ItemAction.board access y) := by
  simp only [ItemAction.board, Instrument.onBoard, h.board]
  exact ⟨rfl, rfl, h.arbiter, h.blocksSent⟩

theorem upTo_alike_scan (setup : Setup β δ) {x y : Instrument β δ} (h : x.Alike y) :
    UpTo Alike (x.scan setup) (y.scan setup) := by
  rw [Instrument.scan, Instrument.scan, h.board, h.arbiter]
  exact ⟨rfl, rfl, rfl, h.blocksSent⟩

theorem Request.upTo_alike_run (r : Request) (setup : Setup β δ)
    (hstart : r.startsNothing = true) (connection : ConnectionId) {x y : Instrument β δ}
    (h : x.Alike y) :
    UpTo Alike (r.run setup connection x) (r.run setup connection y) := by
  cases r with
  | streamStart target => cases hstart
  | invalid | diagnostic | connectionId => exact ⟨rfl, h⟩
  | reboot => exact ⟨rfl, h.board, h.arbiter, h.blocksSent⟩
  | scan view =>
      obtain ⟨hreadings, halike⟩ := upTo_alike_scan setup h
      exact ⟨congrArg (Except.mapError ItemError.acquisition) hreadings, halike⟩
  | streamStop =>
      refine ⟨?_, ((Instrument.alike_requestStop setup x).symm.trans h).trans
        (Instrument.alike_requestStop setup y)⟩
      exact congrArg (fun arbiter => Except.ok arbiter.streamingOwner.isSome) h.arbiter
  | streamStatus =>
      refine ⟨?_, h⟩
      change Except.ok x.streamStatus = Except.ok y.streamStatus
      rw [Instrument.streamStatus, Instrument.streamStatus, h.arbiter, h.blocksSent]
  | _ => exact upTo_alike_board _ h

theorem Item.upTo_alike_execute {item : Item} (hitem : item.request.startsNothing = true)
    (connection : ConnectionId) {x y : Instrument β δ} (h : x.Alike y) :
    UpTo Alike (item.execute setup connection x) (item.execute setup connection y) := by
  obtain ⟨code, payload, request, status⟩ := item
  cases status with
  | done | failed => exact ⟨rfl, h⟩
  | pending =>
      have hrun := request.upTo_alike_run setup hitem connection h
      rw [execute, execute]
      dsimp only
      rcases hx : request.run setup connection x with ⟨result, x'⟩
      rcases hy : request.run setup connection y with ⟨other, y'⟩
      rw [hx, hy] at hrun
      obtain rfl : result = other := hrun.1
      cases result <;> exact ⟨rfl, hrun.2⟩

/-- Items that start no session notice nothing but board, owner and progress. -/
theorem blind_alike (setup : Setup β δ) :
    Blind setup Alike fun item => item.request.startsNothing = true where
  refl := .refl
  trans := .trans
  execute hitem connection _ _ h := Item.upTo_alike_execute hitem connection h

end DaqServer
