import DaqServer.Item.Catalogue
import DaqServer.Message.Basic

/-!
# Framing

`frame` cuts one message off the front of a byte string. `parseItems` splits the item bytes of a
message into records of code and data, reads each record on its own, and keeps what is left over as
one failed item. A `Framer` does this for the bytes of a connection as they arrive.
-/

namespace DaqServer

inductive FramingError
  /-- The bytes end before the message does. -/
  | incomplete (available needed : Nat)
  /-- The message announces more bytes than are allowed. -/
  | tooLarge (declared limit : Nat)
  /-- No type of message has this byte; the message takes so many bytes. -/
  | unknownType (tag : UInt8) (consumed : Nat)
  deriving DecidableEq, Repr

namespace FramingError

def message : FramingError → String
  | incomplete available needed =>
      s!"Incomplete message: have {available} bytes, need {needed}"
  | tooLarge declared limit => s!"Message of {declared} bytes exceeds the {limit} byte limit"
  | unknownType tag _ => "Unknown message type " ++ Text.hex 2 tag.toNat

def kind (_ : FramingError) : ErrorKind := .framing

end FramingError

/-- An item before its data is read. -/
structure Record where
  code : UInt16
  data : Bytes
  deriving DecidableEq, Repr

namespace Record

/-- The first record of a byte string and what follows it. -/
def take? : Bytes → Option (Record × Bytes)
  | c0 :: c1 :: l0 :: l1 :: body =>
      let length := (Bytes.toUInt16 l0 l1).toNat
      let data := body.take length
      if data.length < length then none
      else some (⟨Bytes.toUInt16 c0 c1, data⟩, body.drop length)
  | _ => none

theorem length_lt_of_take? {bytes rest : Bytes} {r : Record} (h : take? bytes = some (r, rest)) :
    rest.length < bytes.length := by
  unfold take? at h
  split at h
  · simp only [Option.ite_none_left_eq_some, Option.some.injEq, Prod.mk.injEq] at h
    obtain ⟨-, -, rfl⟩ := h
    simp only [List.length_drop, List.length_cons]
    omega
  · simp at h

/-- The records at the front of a byte string, as many as there are, and the residue. -/
def split (bytes : Bytes) : List Record × Bytes :=
  match h : take? bytes with
  | none => ([], bytes)
  | some (r, rest) =>
      have : rest.length < bytes.length := length_lt_of_take? h
      let (records, residue) := split rest
      (r :: records, residue)
termination_by bytes.length

def toItem (r : Record) : Item := Catalogue.constructOrReject r.code r.data

end Record

/-- What stands for the residue at an offset: nothing if it is empty, otherwise a failed item with
the bytes after its header, or with all of them if the header itself is cut. -/
def residueItems (offset : Nat) : Bytes → List Item
  | [] => []
  | c0 :: c1 :: _ :: _ :: body => [.rejected (Bytes.toUInt16 c0 c1) body (.truncated offset)]
  | residue => [.rejected 0 residue (.truncated offset)]

def parseItems (payload : Bytes) : List Item :=
  let (records, residue) := Record.split payload
  records.map Record.toItem ++ residueItems (payload.length - residue.length) residue

namespace Message

def headerLength : Nat := 5

/-- Cut one message off the front of a byte string; gives the number of bytes it takes. -/
def frame (limit : Nat) (buffer : Bytes) : Except FramingError (Message × Nat) :=
  match buffer with
  | tag :: l0 :: l1 :: l2 :: l3 :: rest =>
      let declared := Bytes.toNat [l0, l1, l2, l3]
      let total := headerLength + declared + 1
      if limit < declared then .error (.tooLarge declared limit)
      else match rest.drop declared, MessageType.ofTag? tag with
        | [], _ => .error (.incomplete buffer.length total)
        | _ :: _, none => .error (.unknownType tag total)
        | trailer :: _, some kind => .ok (⟨kind, parseItems (rest.take declared), trailer⟩, total)
  | _ => .error (.incomplete buffer.length headerLength)

/-- Bytes that a frame or a message of unknown type takes, and whether anything was decided at all.
-/
def taken : Except FramingError (Message × Nat) → Option Nat
  | .ok (_, consumed) | .error (.unknownType _ consumed) => some consumed
  | _ => none

theorem length_pos_of_frame (limit : Nat) {buffer : Bytes}
    (h : ∀ a n, frame limit buffer ≠ .error (.incomplete a n)) : 0 < buffer.length := by
  cases buffer with
  | nil => exact absurd rfl (h 0 headerLength)
  | cons b rest => simp

theorem taken_frame_pos {limit consumed : Nat} {buffer : Bytes}
    (h : taken (frame limit buffer) = some consumed) : 0 < consumed := by
  unfold frame at h
  split at h
  · dsimp only at h
    split at h
    · simp [taken] at h
    · split at h <;> simp [taken] at h <;> omega
  · simp [taken] at h

end Message

/-- The bytes of a connection that wait for the rest of their message. -/
structure Framer where
  limit : Nat
  buffer : Bytes
  deriving DecidableEq, Repr

namespace Framer

def empty (limit : Nat) : Framer := ⟨limit, []⟩

def extend (f : Framer) (bytes : Bytes) : Framer := { f with buffer := f.buffer ++ bytes }

def buffered (f : Framer) : Nat := f.buffer.length

/-- The next message or error, if the waiting bytes decide one. A message that is too large clears
all waiting bytes; one of unknown type is skipped. -/
def next (f : Framer) : Option (Except FramingError Message) × Framer :=
  match Message.frame f.limit f.buffer with
  | .ok (message, consumed) =>
      (some (.ok message), { f with buffer := f.buffer.drop consumed })
  | .error (.incomplete _ _) => (none, f)
  | .error (.tooLarge declared limit) =>
      (some (.error (.tooLarge declared limit)), { f with buffer := [] })
  | .error (.unknownType tag consumed) =>
      (some (.error (.unknownType tag consumed)), { f with buffer := f.buffer.drop consumed })

/-- Every message or error takes bytes from the framer. -/
theorem buffered_next_lt {f g : Framer} {r : Except FramingError Message}
    (h : f.next = (some r, g)) : g.buffered < f.buffered := by
  have drop_lt {consumed : Nat}
      (hn : Message.taken (Message.frame f.limit f.buffer) = some consumed)
      (hb : 0 < f.buffer.length) : (f.buffer.drop consumed).length < f.buffer.length := by
    have := Message.taken_frame_pos hn
    rw [List.length_drop]
    omega
  have hb : 0 < f.buffer.length := by
    refine Message.length_pos_of_frame f.limit fun a n hf => ?_
    simp [next, hf] at h
  unfold next at h
  split at h <;> rename_i hf <;> simp only [Prod.mk.injEq, Option.some.injEq] at h
  · rw [← h.2]
    exact drop_lt (by rw [hf]; rfl) hb
  · simp at h
  · rw [← h.2]
    exact hb
  · rw [← h.2]
    exact drop_lt (by rw [hf]; rfl) hb

/-- All messages and errors that the waiting bytes decide. -/
def drain (f : Framer) : List (Except FramingError Message) × Framer :=
  match h : f.next with
  | (none, g) => ([], g)
  | (some r, g) =>
      have : g.buffered < f.buffered := buffered_next_lt h
      let (results, last) := drain g
      (r :: results, last)
termination_by f.buffered

end Framer

end DaqServer
