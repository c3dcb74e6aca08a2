/-!
# Register files

The stored words of a board, one for every offset.
-/

namespace DaqServer

/-- One 32-bit word for every register offset. -/
structure RegisterFile where
  words : Vector UInt32 256
  deriving DecidableEq, Repr

namespace RegisterFile

def zero : RegisterFile := ⟨Vector.replicate 256 0⟩

def get (r : RegisterFile) (offset : UInt8) : UInt32 :=
  getElem r.words offset.toNat offset.toNat_lt

def set (r : RegisterFile) (offset : UInt8) (value : UInt32) : RegisterFile :=
  ⟨r.words.set offset.toNat value offset.toNat_lt⟩

def setAll (r : RegisterFile) (offsets : List UInt8) (value : UInt32) : RegisterFile :=
  offsets.foldl (fun r o => r.set o value) r

@[simp] theorem get_set_self (r : RegisterFile) (o : UInt8) (v : UInt32) :
    (r.set o v).get o = v := by
  simp [get, set]

theorem get_set_of_ne (r : RegisterFile) {o p : UInt8} (v : UInt32) (h : o ≠ p) :
    (r.set o v).get p = r.get p := by
  have hne : o.toNat ≠ p.toNat := fun e => h (UInt8.toNat_inj.1 e)
  simp [get, set, hne]

@[simp] theorem get_zero (o : UInt8) : zero.get o = 0 := by
  simp [get, zero]

end RegisterFile

end DaqServer
