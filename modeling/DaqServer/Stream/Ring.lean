import DaqServer.Bytes

/-!
# The slot ring

One writer fills slots and one reader empties them. A permit of the `empty` pool allows the writer
to fill its next slot, a permit of the `full` pool allows the reader to copy its next slot out; a
filled slot belongs to the reader until it is released. The operations are the atomic steps of the
two sides; `push` and `pop` put the steps of one side together.
-/

namespace DaqServer

structure Ring where
  slots : List Bytes
  slotBytes : Nat
  /-- Permits to fill a slot. -/
  empty : Nat
  /-- Permits to copy a slot out. -/
  full : Nat
  /-- The slot that the writer fills next. -/
  writeIndex : Nat
  /-- The slot that the reader copies next. -/
  readIndex : Nat
  deriving DecidableEq, Repr

namespace Ring

def make (slots slotBytes : Nat) : Ring where
  slots := List.replicate slots (List.replicate slotBytes 0)
  slotBytes := slotBytes
  empty := slots
  full := 0
  writeIndex := 0
  readIndex := 0

def capacity (r : Ring) : Nat := r.slots.length

def occupied (r : Ring) : Nat := r.capacity - r.empty

def next (r : Ring) (index : Nat) : Nat := (index + 1) % r.capacity

def takeEmpty (r : Ring) : Option Ring :=
  if r.empty = 0 then none else some { r with empty := r.empty - 1 }

def writeSlot (r : Ring) : Bytes := r.slots.getD r.writeIndex []

def fill (r : Ring) (contents : Bytes) : Ring :=
  { r with slots := r.slots.set r.writeIndex contents }

def giveBack (r : Ring) : Ring := { r with empty := r.empty + 1 }

def publish (r : Ring) : Ring :=
  { r with writeIndex := r.next r.writeIndex, full := r.full + 1 }

def takeFull (r : Ring) : Option Ring :=
  if r.full = 0 then none else some { r with full := r.full - 1 }

def readSlot (r : Ring) : Bytes := r.slots.getD r.readIndex []

def release (r : Ring) : Ring :=
  { r with readIndex := r.next r.readIndex, empty := r.empty + 1 }

/-- Fill the next slot if there is an empty one. `write` turns the old contents of the slot into the
new ones and may fail, in which case the permit is returned; what it wrote stays. -/
def push {ε : Type} (r : Ring) (write : Bytes → Except ε Unit × Bytes) : Except ε Bool × Ring :=
  match r.takeEmpty with
  | none => (.ok false, r)
  | some r =>
      let (result, contents) := write r.writeSlot
      match result with
      | .error e => (.error e, (r.fill contents).giveBack)
      | .ok () => (.ok true, (r.fill contents).publish)

/-- Copy the next slot out if there is a full one. -/
def pop (r : Ring) : Option Bytes × Ring :=
  match r.takeFull with
  | none => (none, r)
  | some r => (some r.readSlot, r)

@[simp] theorem capacity_make (slots slotBytes : Nat) :
    (make slots slotBytes).capacity = slots := by
  simp [make, capacity]

@[simp] theorem capacity_fill (r : Ring) (contents : Bytes) :
    (r.fill contents).capacity = r.capacity := by
  simp [fill, capacity]

@[simp] theorem capacity_publish (r : Ring) : r.publish.capacity = r.capacity := rfl

@[simp] theorem capacity_giveBack (r : Ring) : r.giveBack.capacity = r.capacity := rfl

@[simp] theorem capacity_release (r : Ring) : r.release.capacity = r.capacity := rfl

end Ring

end DaqServer
