import DaqServer.Bytes
import DaqServer.Register

/-!
# Operations that may trap

A machine looks at an index, the ends of a slice, the range of a word and the width of a shift when
it comes to them, and stops where one of them is wrong. `Checked` computations stop at a trap;
`Trapping` computations have a state and may also fail for a reason that they report; of `Halting`
ones the state is known also where they stop.
-/

namespace DaqServer

/-- Why a machine stops. -/
inductive Trap
  /-- An index outside a sequence. -/
  | index (index length : Nat)
  /-- A slice that ends before it begins or after its sequence. -/
  | slice (first last length : Nat)
  /-- A number that its word does not hold. -/
  | overflow
  /-- A shift by the width of the word or more. -/
  | shift (count : UInt8)
  /-- A text that is cut within a character or behind its end. -/
  | cut (offset : Nat)
  /-- A sum of spans beyond the longest. -/
  | span
  /-- More bytes than a piece of memory may have. -/
  | capacity
  deriving DecidableEq, Repr

abbrev Checked (α : Type) := Except Trap α

namespace Checked

variable {α : Type}

def element (xs : List α) (i : Nat) : Checked α :=
  match xs[i]? with
  | some x => .ok x
  | none => .error (.index i xs.length)

def slice (xs : List α) (first last : Nat) : Checked (List α) :=
  if first ≤ last ∧ last ≤ xs.length then .ok ((xs.take last).drop first)
  else .error (.slice first last xs.length)

def add (a b : UInt8) : Checked UInt8 :=
  if a.toNat + b.toNat < UInt8.size then .ok (a + b) else .error .overflow

def sub (a b : UInt8) : Checked UInt8 := if b ≤ a then .ok (a - b) else .error .overflow

def mul (a b : UInt8) : Checked UInt8 :=
  if a.toNat * b.toNat < UInt8.size then .ok (a * b) else .error .overflow

def product (a b : UInt64) : Checked UInt64 :=
  if a.toNat * b.toNat < UInt64.size then .ok (a * b) else .error .overflow

/-- Half as many bytes as there are addresses; a piece of memory has fewer. -/
def pieceLimit : Nat := 0x8000000000000000

/-- Copies of something in one piece of memory, where each takes so many bytes. -/
def copies (width : Nat) (count : UInt64) (x : α) : Checked (List α) :=
  if width * count.toNat < pieceLimit then .ok (List.replicate count.toNat x) else .error .capacity

def shiftRight (w : UInt32) (count : UInt8) : Checked UInt32 :=
  if count < 32 then .ok (w >>> count.toUInt32) else .error (.shift count)

def shiftLeft (w : UInt32) (count : UInt8) : Checked UInt32 :=
  if count < 32 then .ok (w <<< count.toUInt32) else .error (.shift count)

/-- The word that at most four bytes spell, the first of them the lowest. -/
def word (bs : Bytes) : Checked UInt32 := do
  let low ← slice bs 0 (min bs.length 4)
  return UInt32.ofNat (Bytes.toNat low)

/-- A register of a group that lies at multiples of `stride` above a base. -/
def register (base stride index : UInt8) : Checked UInt8 := do
  let offset ← mul stride index
  add base offset

theorem element_of_getElem? {xs : List α} {i : Nat} {x : α} (h : xs[i]? = some x) :
    element xs i = .ok x := by
  rw [element, h]

theorem slice_of_le {xs : List α} {first last : Nat} (hfirst : first ≤ last)
    (hlast : last ≤ xs.length) : slice xs first last = .ok ((xs.take last).drop first) :=
  if_pos ⟨hfirst, hlast⟩

theorem sub_of_le {a b : UInt8} (h : b ≤ a) : sub a b = .ok (a - b) := if_pos h

theorem shiftRight_of_lt (w : UInt32) {count : UInt8} (h : count < 32) :
    shiftRight w count = .ok (w >>> count.toUInt32) := if_pos h

theorem shiftLeft_of_lt (w : UInt32) {count : UInt8} (h : count < 32) :
    shiftLeft w count = .ok (w <<< count.toUInt32) := if_pos h

@[simp] theorem word_eq (bs : Bytes) : word bs = .ok (Bytes.toUInt32 bs) := by
  rw [word, slice_of_le (Nat.zero_le _) (Nat.min_le_left _ _), List.drop_zero]
  rw [Nat.min_comm, ← List.take_eq_take_min]
  rfl

/-- As long as the last register of a group has an offset, so have the others. -/
theorem register_of_lt {base stride index : UInt8}
    (h : base.toNat + stride.toNat * index.toNat < UInt8.size) :
    register base stride index = .ok (base + stride * index) := by
  have hmul : stride.toNat * index.toNat < UInt8.size := Nat.lt_of_le_of_lt (Nat.le_add_left _ _) h
  have hproduct : (stride * index).toNat = stride.toNat * index.toNat := by
    rw [UInt8.toNat_mul]
    exact Nat.mod_eq_of_lt hmul
  rw [register, mul, if_pos hmul]
  change add base (stride * index) = _
  rw [add, hproduct, if_pos h]

end Checked

abbrev Trapping (ε σ α : Type) := ExceptT ε (StateT σ (Except Trap)) α

namespace Trapping

variable {ε σ α β : Type}

def total (x : ExceptT ε (StateM σ) α) : Trapping ε σ α := fun s => .ok (x s)

def check (c : Checked α) : Trapping ε σ α := fun s => c.map fun a => (.ok a, s)

@[simp] theorem check_ok (a : α) : (check (.ok a) : Trapping ε σ α) = pure a := rfl

@[simp] theorem total_pure (a : α) : (total (pure a) : Trapping ε σ α) = pure a := rfl

theorem total_bind (x : ExceptT ε (StateM σ) α) (f : α → ExceptT ε (StateM σ) β) :
    total (x >>= f) = total x >>= fun a => total (f a) := by
  funext s
  simp only [total, bind, ExceptT.bind, ExceptT.mk, StateT.bind, Except.bind]
  rcases x s with ⟨e | a, s'⟩ <;> rfl

theorem total_map (f : α → β) (x : ExceptT ε (StateM σ) α) :
    total (f <$> x) = f <$> total x := by
  rw [map_eq_pure_bind, map_eq_pure_bind, total_bind]
  rfl

theorem total_forM {γ : Type} (xs : List γ) (f : γ → ExceptT ε (StateM σ) Unit) :
    total (xs.forM f) = xs.forM fun x => total (f x) := by
  induction xs with
  | nil => rfl
  | cons x xs ih =>
      change total (f x >>= fun _ => xs.forM f) =
        total (f x) >>= fun _ => xs.forM fun x => total (f x)
      rw [total_bind, ih]

theorem total_ofFnM {n : Nat} (f : Fin n → ExceptT ε (StateM σ) α) :
    total (Vector.ofFnM f) = Vector.ofFnM fun i => total (f i) := by
  induction n with
  | zero => rw [Vector.ofFnM_zero, Vector.ofFnM_zero, total_pure]
  | succ n ih =>
      rw [Vector.ofFnM_succ, Vector.ofFnM_succ, total_bind, ih]
      simp only [total_bind, total_pure]

end Trapping

/-- A computation with a state that may fail for a reason or stop at a trap. What it did to the
state before it stopped stays. -/
abbrev Halting (ε σ α : Type) := σ → Checked (Except ε α) × σ

def Halting.total {ε σ α : Type} (x : ExceptT ε (StateM σ) α) : Halting ε σ α :=
  fun s => (.ok (x s).1, (x s).2)

end DaqServer
