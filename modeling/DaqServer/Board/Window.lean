import DaqServer.Board.Mapped

/-!
# Windows on memory

The registers of a mapped board lie in a window on memory that belongs to the hardware. An access
that passes the checks is a single load or store; what a load or a store does is the memory's own
affair. A file is memory whose loads do nothing. Watched memory keeps a list of its loads and
stores.
-/

namespace DaqServer

/-- Memory that is loaded and stored by offset, a register at a time. -/
structure Memory (σ : Type) where
  load : Nat → Width → σ → UInt32 × σ
  store : Nat → Width → UInt32 → σ → σ

/-- A load or a store: where and how wide. -/
structure Touch where
  offset : Nat
  width : Width
  deriving DecidableEq, Repr

namespace Memory

def file : Memory (Array UInt8) where
  load offset w := fun bytes =>
    (Bytes.toUInt32 (bytes.extract offset (offset + w.bytes)).toList, bytes)
  store offset w value := fun bytes =>
    MappedBoard.overwrite bytes offset (Bytes.ofNat w.bytes value.toNat)

variable {σ : Type} (memory : Memory σ)

/-- The same memory with a list of its loads and stores, oldest first. -/
def watched : Memory (σ × List Touch) where
  load offset w := fun (s, touches) =>
    let (word, s) := memory.load offset w s
    (word, s, touches ++ [⟨offset, w⟩])
  store offset w value := fun (s, touches) =>
    (memory.store offset w value s, touches ++ [⟨offset, w⟩])

def bounds (window : Nat) (offset : UInt8) (w : Width) : Except BoardError Unit :=
  if window < offset.toNat + w.bytes then .error (.unmapped offset) else .ok ()

def port (window : Nat) : Port σ where
  read offset := fun s =>
    match Register.width offset with
    | .error e => (.error e, s)
    | .ok w => match bounds window offset w with
      | .error e => (.error e, s)
      | .ok () =>
          let (word, s) := memory.load offset.toNat w s
          (.ok word, s)
  write offset value := fun s =>
    match Register.checkWrite (bounds window offset) offset value with
    | .error e => (.error e, s)
    | .ok w => (.ok (), memory.store offset.toNat w value s)

end Memory

end DaqServer
