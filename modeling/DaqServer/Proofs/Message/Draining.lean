import DaqServer.Proofs.Message.Wire
import Mathlib.Data.List.Forall2

/-!
# Draining a framer

Everything a framer hands out is paid for with bytes from its front: `Framer.Takes` says which bytes
stand for which result, and `next_cases` that the next result takes such a front or that too little
waits for one. Over a row of calls the fronts and the bytes that still wait are the bytes that
arrived, in their order. So asking for messages comes to an end, and what waits then is shorter than
the longest message within the limit.
-/

namespace DaqServer

namespace Message

/-- Bytes that wait for the rest of a message within the limit are fewer than such a message has. -/
theorem length_le_of_incomplete {limit available needed : Nat} {buffer : Bytes}
    (h : frame limit buffer = .error (.incomplete available needed)) :
    buffer.length ≤ headerLength + limit := by
  rw [frame_eq] at h
  split_ifs at h with hheader hlimit htotal
  · omega
  · cases h
  · omega
  · cases hkind : MessageType.ofTag? (buffer.headD 0) <;> rw [hkind] at h <;> cases h

/-- A message that is there as a whole is decided, whatever its type and its length. -/
theorem frame_wire_ne_incomplete (limit : Nat) {tag trailer : UInt8} {body : Bytes}
    (hlength : body.length < 2 ^ 32) (more : Bytes) (available needed : Nat) :
    frame limit (wire tag body trailer ++ more) ≠ .error (.incomplete available needed) := by
  intro h
  by_cases hlimit : body.length ≤ limit
  · rw [frame_wire_eq hlimit hlength] at h
    cases hkind : MessageType.ofTag? tag <;> rw [hkind] at h <;> cases h
  · have hheader : ¬ (wire tag body trailer ++ more).length < headerLength := by
      rw [List.length_append, length_wire]
      omega
    rw [frame_eq, declared_wire hlength, if_neg hheader, if_pos (by omega)] at h
    cases h

end Message

namespace Framer

/-- The bytes at the front of a framer that a result stands for. -/
inductive Takes (limit : Nat) : Bytes → Except FramingError Message → Prop
  /-- A message takes the bytes it is laid out as. -/
  | message (kind : MessageType) (body : Bytes) (trailer : UInt8) (hlimit : body.length ≤ limit)
      (hlength : body.length < 2 ^ 32) :
      Takes limit (Message.wire kind.tag body trailer) (.ok ⟨kind, parseItems body, trailer⟩)
  /-- So does a message whose type nobody knows. -/
  | unknownType (tag : UInt8) (body : Bytes) (trailer : UInt8)
      (htag : MessageType.ofTag? tag = none) (hlimit : body.length ≤ limit)
      (hlength : body.length < 2 ^ 32) :
      Takes limit (Message.wire tag body trailer)
        (.error (.unknownType tag (Message.headerLength + body.length + 1)))
  /-- A header that declares too much takes at least itself. -/
  | tooLarge (front : Bytes) (hheader : Message.headerLength ≤ front.length)
      (hlimit : limit < Message.declared front) :
      Takes limit front (.error (.tooLarge (Message.declared front) limit))

namespace Takes

variable {limit : Nat} {front : Bytes} {result : Except FramingError Message}

/-- Nothing is handed out for less than a header. -/
theorem headerLength_le (h : Takes limit front result) : Message.headerLength ≤ front.length := by
  cases h with
  | message => simp; omega
  | unknownType => simp; omega
  | tooLarge _ hheader => exact hheader

/-- What is not too large takes its header, as many bytes as declared there, and a closing byte. -/
theorem length_eq (h : Takes limit front result)
    (hresult : ∀ declared bound, result ≠ .error (.tooLarge declared bound)) (rest : Bytes) :
    front.length = Message.headerLength + Message.declared (front ++ rest) + 1 := by
  cases h with
  | message kind body trailer hlimit hlength =>
      rw [Message.length_wire, Message.declared_wire hlength]
  | unknownType tag body trailer htag hlimit hlength =>
      rw [Message.length_wire, Message.declared_wire hlength]
  | tooLarge => exact absurd rfl (hresult _ _)

end Takes

/-- The next result takes a front of the waiting bytes, or nothing can be handed out: then the bytes
are few, and no whole message is at their front. -/
theorem next_cases (f : Framer) :
    (f.next = (none, f) ∧ f.buffered ≤ Message.headerLength + f.limit ∧
      ∀ tag body trailer more, body.length < 2 ^ 32 →
        f.buffer ≠ Message.wire tag body trailer ++ more) ∨
    ∃ front rest result, f.buffer = front ++ rest ∧
      f.next = (some result, { f with buffer := rest }) ∧ Takes f.limit front result := by
  obtain ⟨limit, buffer⟩ := f
  rcases Message.frame_cases limit buffer with ⟨_, -, hf⟩ | ⟨hheader, hlimit, hf⟩ | ⟨hle, htotal, -⟩
  · refine .inl ⟨next_of_incomplete hf, Message.length_le_of_incomplete hf, ?_⟩
    rintro tag body trailer more hlength rfl
    exact Message.frame_wire_ne_incomplete limit hlength more _ _ hf
  · exact .inr ⟨buffer, [], _, (List.append_nil _).symm, next_of_tooLarge hf,
      .tooLarge buffer hheader hlimit⟩
  · obtain ⟨tag, body, trailer, more, rfl, hbody, hlength⟩ := Message.exists_eq_wire htotal
    rw [← hbody] at hle
    have hrest : (Message.wire tag body trailer ++ more).drop
        (Message.headerLength + body.length + 1) = more :=
      List.drop_left' (Message.length_wire tag body trailer)
    have hframe : Message.frame limit (Message.wire tag body trailer ++ more) = _ :=
      Message.frame_wire_eq hle hlength more
    refine .inr ⟨Message.wire tag body trailer, more, ?_⟩
    cases hkind : MessageType.ofTag? tag with
    | none =>
        simp only [hkind] at hframe
        refine ⟨_, rfl, ?_, .unknownType tag body trailer hkind hle hlength⟩
        simp only [next, hframe, hrest]
    | some kind =>
        simp only [hkind] at hframe
        obtain rfl := MessageType.tag_of_ofTag? hkind
        refine ⟨_, rfl, ?_, .message kind body trailer hle hlength⟩
        simp only [next, hframe, hrest]

/-- What waited and what arrived is what was handed out, front by front, and what still waits. -/
theorem exists_fronts (calls : List Call) (f : Framer) :
    ∃ fronts : List Bytes, f.buffer ++ arrived calls = fronts.flatten ++ (run calls f).2.buffer ∧
      List.Forall₂ (Takes f.limit) fronts (run calls f).1 := by
  induction calls generalizing f with
  | nil => exact ⟨[], List.append_nil _, .nil⟩
  | cons call calls ih =>
      cases call with
      | extend bytes =>
          obtain ⟨fronts, hbytes, hfronts⟩ := ih (f.extend bytes)
          refine ⟨fronts, ?_, hfronts⟩
          rw [run_extend, ← hbytes]
          exact (List.append_assoc ..).symm
      | next =>
          rcases next_cases f with ⟨hnext, -, -⟩ | ⟨front, rest, result, hbuffer, hnext, htakes⟩
          · rw [run_next, hnext]
            exact ih f
          · obtain ⟨fronts, hbytes, hfronts⟩ := ih { f with buffer := rest }
            refine ⟨front :: fronts, ?_, ?_⟩
            · rw [run_next, hnext, List.flatten_cons, List.append_assoc, ← hbytes, hbuffer,
                List.append_assoc]
              rfl
            · rw [run_next, hnext]
              exact .cons htakes hfronts

/-- Every result is paid for with the bytes of a header. -/
theorem length_le_of_fronts {limit : Nat} {fronts : List Bytes}
    {results : List (Except FramingError Message)} (h : List.Forall₂ (Takes limit) fronts results) :
    Message.headerLength * results.length ≤ fronts.flatten.length := by
  induction h with
  | nil => exact Nat.zero_le _
  | cons htakes _ ih =>
      have hfront := htakes.headerLength_le
      rw [List.length_cons, List.flatten_cons, List.length_append, Nat.mul_succ]
      omega

/-- Calls hand out no more than the bytes are worth that waited or arrived. -/
theorem headerLength_mul_length_run_le (calls : List Call) (f : Framer) :
    Message.headerLength * (run calls f).1.length + (run calls f).2.buffered ≤
      f.buffered + (arrived calls).length := by
  obtain ⟨fronts, hbytes, hfronts⟩ := exists_fronts calls f
  have hlengths := congrArg List.length hbytes
  rw [List.length_append, List.length_append] at hlengths
  have hresults := length_le_of_fronts hfronts
  unfold buffered
  omega

/-- Asking a framer for messages ends, and its memory is bounded. However bytes arrive and messages
are asked for:

* a result removes at least a header from the waiting bytes, and, unless it is a message that is too
  large, exactly the header, the declared length and the closing byte;
* asking until there is nothing takes one question for each result and one more, and there are at
  most as many results as headers fit into the waiting bytes;
* the bytes that arrived are the bytes of the results, in their order, and those that still wait;
* when nothing is handed out, nothing changes, at most a header and `limit` bytes wait, and no whole
  message is at their front. -/
theorem draining_ends_and_memory_is_bounded (limit : Nat) (calls : List Call) :
    let f := (run calls (empty limit)).2
    (∀ result, f.next.1 = some result →
      f.next.2.buffered + Message.headerLength ≤ f.buffered ∧
      ((∀ declared bound, result ≠ .error (.tooLarge declared bound)) →
        f.next.2.buffered + (Message.headerLength + Message.declared f.buffer + 1) =
          f.buffered)) ∧
    (f.drain = run (List.replicate f.drain.1.length .next) f ∧ f.drain.2.next.1 = none ∧
      Message.headerLength * f.drain.1.length + f.drain.2.buffered ≤ f.buffered) ∧
    (∃ fronts : List Bytes, arrived calls = fronts.flatten ++ f.buffer ∧
      List.Forall₂ (Takes limit) fronts (run calls (empty limit)).1) ∧
    (f.next.1 = none →
      f.next.2 = f ∧ f.buffered ≤ limit + Message.headerLength ∧
      ∀ tag body trailer more, body.length < 2 ^ 32 →
        f.buffer ≠ Message.wire tag body trailer ++ more) := by
  intro f
  have hlimit : f.limit = limit := limit_run calls (empty limit)
  refine ⟨?_, ⟨drain_eq_run f, by rw [next_drain], ?_⟩, exists_fronts calls (empty limit), ?_⟩
  · intro result hresult
    rcases next_cases f with ⟨hnext, -, -⟩ | ⟨front, rest, taken, hbuffer, hnext, htakes⟩
    · rw [hnext] at hresult
      cases hresult
    · rw [hnext] at hresult ⊢
      cases hresult
      have hbuffered : f.buffered = front.length + rest.length := by
        rw [buffered, hbuffer, List.length_append]
      refine ⟨?_, fun hsmall => ?_⟩
      · have hheader := htakes.headerLength_le
        change rest.length + _ ≤ _
        omega
      · have hfront := htakes.length_eq hsmall rest
        rw [← hbuffer] at hfront
        change rest.length + _ = _
        omega
  · have hrun := headerLength_mul_length_run_le (List.replicate f.drain.1.length .next) f
    rwa [← drain_eq_run f, arrived_replicate_next] at hrun
  · intro hnone
    rcases next_cases f with ⟨hnext, hfew, hwhole⟩ | ⟨_, _, _, -, hnext, -⟩
    · rw [hnext]
      rw [hlimit, Nat.add_comm] at hfew
      exact ⟨rfl, hfew, hwhole⟩
    · rw [hnext] at hnone
      cases hnone

/-- A message without items takes six bytes, and one byte too many waits on. -/
example : (run [.extend [0x51, 0, 0, 0, 0, 9, 0x43], .next, .next] (empty 16)).2 = ⟨16, [0x43]⟩ :=
  rfl

end Framer

end DaqServer
