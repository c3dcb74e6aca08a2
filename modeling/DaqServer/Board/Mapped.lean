import DaqServer.Board.Port

/-!
# The mapped board

A board whose registers are the first bytes of a file. An access is refused when any of its bytes
lies outside the mapped window.
-/

namespace DaqServer

/-- A register file and the size of the window on it that is mapped. -/
structure MappedBoard where
  file : Array UInt8
  window : Nat
  deriving DecidableEq, Repr

namespace MappedBoard

/-- Map the first `window` bytes of a file. -/
def open? (path : String) (file : Option (Array UInt8)) (window : Nat) :
    Except BoardError MappedBoard :=
  match file with
  | some file => .ok ⟨file, window⟩
  | none => .error (.mapFailed path "No such file or directory (os error 2)")

def bounds (b : MappedBoard) (offset : UInt8) (w : Width) : Except BoardError Unit :=
  if b.window < offset.toNat + w.bytes then .error (.unmapped offset) else .ok ()

def bytesAt (b : MappedBoard) (offset count : Nat) : Bytes :=
  (b.file.extract offset (offset + count)).toList

def overwrite (file : Array UInt8) : (index : Nat) → Bytes → Array UInt8
  | _, [] => file
  | index, b :: bs => overwrite (file.setIfInBounds index b) (index + 1) bs

def read (offset : UInt8) : Access MappedBoard UInt32 := fun b =>
  match Register.width offset with
  | .error e => (.error e, b)
  | .ok w => match b.bounds offset w with
    | .error e => (.error e, b)
    | .ok () => (.ok (Bytes.toUInt32 (b.bytesAt offset.toNat w.bytes)), b)

def write (offset : UInt8) (value : UInt32) : Access MappedBoard Unit := fun b =>
  match Register.checkWrite (b.bounds offset) offset value with
  | .error e => (.error e, b)
  | .ok w =>
      (.ok (), { b with file := overwrite b.file offset.toNat (Bytes.ofNat w.bytes value.toNat) })

def port : Port MappedBoard := ⟨read, write⟩

end MappedBoard

end DaqServer
