import DaqServer.Item.Execute
import DaqServer.Proofs.Board.Backends
import Mathlib.Data.List.Basic

/-!
# Accesses of which one fails

Nothing that was done is taken back when an access fails. What becomes of a register that is read to
be written again, and of several writes in a row, is told for both boards: on a simulated board the
writes of a row are all taken (`SimulatedBoard.total_writeAll`), on a mapped one those that its
window has room for (`MappedBoard.writeAll_eq`).
-/

namespace DaqServer

def Port.writeAll {σ : Type} (port : Port σ) (stores : List (UInt8 × UInt32)) : Access σ Unit :=
  stores.forM fun store => port.write store.1 store.2

namespace SimulatedBoard

open Register

variable {clock : Clock} {b b' : SimulatedBoard} {offset : UInt8} {value : UInt32} {e : BoardError}

theorem total_read (h : IsRegister offset) : Total ((port clock).read offset) := fun b => by
  rw [read_of_isRegister h]
  rfl

theorem total_writeAll {stores : List (UInt8 × UInt32)}
    (h : ∀ store ∈ stores, Takes store.1 store.2) : Total ((port clock).writeAll stores) :=
  chains_total.forM fun store hmem b => by
    rw [write_of_takes (h store hmem)]
    rfl

theorem eq_of_write_error (h : (port clock).write offset value b = (.error e, b')) : b' = b := by
  by_cases htakes : Takes offset value
  · rw [write_of_takes htakes] at h
    cases h
  · rw [write_of_not_takes htakes] at h
    exact (congrArg Prod.snd h).symm

def storeAll (b : SimulatedBoard) (stores : List (UInt8 × UInt32)) : SimulatedBoard :=
  stores.foldl (fun b store => b.store store.1 store.2) b

theorem storeAll_cons (b : SimulatedBoard) (store : UInt8 × UInt32)
    (stores : List (UInt8 × UInt32)) :
    b.storeAll (store :: stores) = (b.store store.1 store.2).storeAll stores := rfl

theorem storeAll_eq (b : SimulatedBoard) (stores : List (UInt8 × UInt32)) :
    b.storeAll stores = { b with
      registers := (b.storeAll stores).registers
      writes := b.writes ++ stores } := by
  induction stores generalizing b with
  | nil => rw [List.append_nil]; rfl
  | cons store stores ih =>
      rw [storeAll_cons, ih, List.append_cons]
      rfl

theorem peek_storeAll_of_not_mem {stores : List (UInt8 × UInt32)}
    (h : offset ∉ stores.map Prod.fst) (b : SimulatedBoard) :
    (b.storeAll stores).peek offset = b.peek offset := by
  induction stores generalizing b with
  | nil => rfl
  | cons store stores ih =>
      obtain ⟨hfirst, hrest⟩ := not_or.mp (mt List.mem_cons.mpr h)
      rw [storeAll_cons, ih hrest, peek_store_of_ne _ (Ne.symm hfirst)]

/-- Where no register is written twice, each holds what was written to it. -/
theorem peek_storeAll_of_mem {stores : List (UInt8 × UInt32)}
    (hnodup : (stores.map Prod.fst).Nodup) {store : UInt8 × UInt32} (h : store ∈ stores)
    (b : SimulatedBoard) : (b.storeAll stores).peek store.1 = store.2 := by
  induction stores generalizing b with
  | nil => exact absurd h List.not_mem_nil
  | cons first rest ih =>
      obtain ⟨hfirst, hrest⟩ := List.nodup_cons.mp hnodup
      rw [storeAll_cons]
      rcases List.mem_cons.mp h with rfl | hmem
      · rw [peek_storeAll_of_not_mem hfirst, peek_store_self]
      · exact ih hrest hmem _

theorem writeAll_of_stored {stores : List (UInt8 × UInt32)}
    (h : ∀ store ∈ stores, Takes store.1 store.2 ∧ IsStored store.1) (b : SimulatedBoard) :
    (port clock).writeAll stores b = (.ok (), b.storeAll stores) := by
  induction stores generalizing b with
  | nil => rfl
  | cons store rest ih =>
      obtain ⟨htakes, hstored⟩ := h store List.mem_cons_self
      have hwrite : (port clock).write store.1 store.2 b = _ := write_of_takes htakes b
      rw [written_of_stored hstored.ne_reset hstored.ne_softwareStart] at hwrite
      change ((port clock).write store.1 store.2 >>= fun _ => (port clock).writeAll rest) b = _
      rw [bind_of_ok hwrite, ih fun later hmem => h later (List.mem_cons_of_mem _ hmem)]
      rfl

/-- All that reading a register does: the FIFO loses its oldest sample, or the clock goes on. -/
theorem afterRead_eq (b : SimulatedBoard) (offset : UInt8) :
    b.afterRead offset = { b with
      fifo := if offset = fifoData then b.fifo.tail else b.fifo
      instant := (b.afterRead offset).instant } := by
  by_cases hdata : offset = fifoData
  · rw [afterRead, if_pos hdata, if_pos hdata]
  · rw [afterRead, if_neg hdata, if_neg hdata]
    split <;> rfl

/-- A register that cannot be written again has been read. -/
theorem eq_of_modify_error {f : UInt32 → UInt32}
    (h : (port clock).modify offset f b = (.error e, b')) :
    b' = { b with
      fifo := if offset = fifoData then b.fifo.tail else b.fifo
      instant := b'.instant } := by
  rw [Port.modify] at h
  by_cases hregister : IsRegister offset
  · -- The read was done, so it was the write that failed.
    rw [bind_of_ok (read_of_isRegister hregister b)] at h
    rw [eq_of_write_error h]
    exact afterRead_eq b offset
  · have hdata : offset ≠ fifoData := fun heq => hregister (heq ▸ by decide)
    rw [bind_of_error (read_of_not_isRegister hregister b)] at h
    cases h
    rw [if_neg hdata]

end SimulatedBoard

namespace MappedBoard

open Register

variable {board board' : MappedBoard} {offset : UInt8} {value : UInt32} {e : BoardError}

theorem silent_read (offset : UInt8) : Silent (port.read offset) := fun board => by
  rw [read_eq, Memory.port_read]
  split
  · rfl
  · split <;> rfl

/-- A write that a window has no room for is refused. -/
theorem write_of_leaves (h : Leaves board.window offset) :
    port.write offset value board = (.error (.unmapped offset), board) := by
  rw [write_eq, Memory.port_write, if_pos h]

theorem write_of_takes (h : Takes offset value) (hroom : ¬ Leaves board.window offset) :
    port.write offset value board = (.ok (), { board with
      file := Memory.file.store offset.toNat (widthOf offset) value board.file }) := by
  rw [write_eq, Memory.port_write, if_neg hroom, if_pos h]

theorem eq_of_write_error (h : port.write offset value board = (.error e, board')) :
    board' = board := by
  by_cases hleaves : Leaves board.window offset
  · rw [write_of_leaves hleaves] at h
    exact (congrArg Prod.snd h).symm
  · by_cases htakes : Takes offset value
    · rw [write_of_takes htakes hleaves] at h
      cases h
    · rw [write_eq, Memory.port_write, if_neg hleaves, if_neg htakes] at h
      exact (congrArg Prod.snd h).symm

theorem eq_of_modify_error {f : UInt32 → UInt32}
    (h : port.modify offset f board = (.error e, board')) : board' = board :=
  (silent_read offset).eq_of_bind_error (fun _ => eq_of_write_error) h

def storeAll (file : Array UInt8) (stores : List (UInt8 × UInt32)) : Array UInt8 :=
  stores.foldl
    (fun file store => Memory.file.store store.1.toNat (widthOf store.1) store.2 file) file

/-- Of writes in ascending order those are done that the window has room for. -/
theorem writeAll_eq {stores : List (UInt8 × UInt32)}
    (htakes : ∀ store ∈ stores, Takes store.1 store.2)
    (hascending : stores.Pairwise fun first later => stop first.1 ≤ stop later.1)
    (board : MappedBoard) :
    (port.writeAll stores board).2 = { board with
      file := storeAll board.file (stores.filter fun store => stop store.1 ≤ board.window) } := by
  induction stores generalizing board with
  | nil => rfl
  | cons store rest ih =>
      obtain ⟨hfirst, hrest⟩ := List.pairwise_cons.mp hascending
      have htake := htakes store List.mem_cons_self
      by_cases hroom : stop store.1 ≤ board.window
      · have hstays : ¬ Leaves board.window store.1 := fun h => Nat.not_lt.mpr hroom h.2
        have hdone : (store :: rest).filter (fun store => stop store.1 ≤ board.window) =
            store :: rest.filter fun store => stop store.1 ≤ board.window :=
          List.filter_cons_of_pos (decide_eq_true hroom)
        rw [hdone]
        change ((port.write store.1 store.2 >>= fun _ => port.writeAll rest) board).2 = _
        rw [bind_of_ok (write_of_takes htake hstays),
          ih (fun later hmem => htakes later (List.mem_cons_of_mem _ hmem)) hrest]
        rfl
      · have hleaves : Leaves board.window store.1 := ⟨htake.1, Nat.lt_of_not_le hroom⟩
        -- What comes later ends even further behind the window.
        have hnone : (store :: rest).filter (fun store => stop store.1 ≤ board.window) = [] := by
          refine List.filter_eq_nil_iff.mpr fun later hmem hstop => hroom ?_
          rcases List.mem_cons.mp hmem with rfl | hlater
          · exact of_decide_eq_true hstop
          · exact Nat.le_trans (hfirst later hlater) (of_decide_eq_true hstop)
        rw [hnone]
        change ((port.write store.1 store.2 >>= fun _ => port.writeAll rest) board).2 = _
        rw [bind_of_error (write_of_leaves hleaves)]
        rfl

end MappedBoard

end DaqServer
