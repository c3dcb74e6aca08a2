import DaqServer.Message.Framing
import Mathlib.Data.List.GetD

/-!
# Framing a stream of bytes

`sequence limit stream` frames a stream from its front, one message after the other, until the bytes
run out or a message is too large. The owner of a framer sees the same stream in pieces and asks for
messages in between, in any order of `Framer.Call`s. Main statement: what it is handed does not
depend on the pieces.

Everything rests on `frame_append`: a frame that decided anything decides the same when more bytes
follow.
-/

namespace DaqServer

namespace Message

def declared (buffer : Bytes) : Nat := Bytes.toNat ((buffer.drop 1).take 4)

theorem declared_append {buffer : Bytes} (h : headerLength ≤ buffer.length) (more : Bytes) :
    declared (buffer ++ more) = declared buffer := by
  have h1 : 1 ≤ buffer.length := Nat.le_trans (by decide) h
  have h4 : 4 ≤ (buffer.drop 1).length := by
    rw [List.length_drop]
    exact Nat.le_sub_of_add_le h
  rw [declared, declared, List.drop_append_of_le_length h1, List.take_append_of_le_length h4]

theorem headD_append {buffer : Bytes} (h : headerLength ≤ buffer.length) (more : Bytes) :
    (buffer ++ more).headD 0 = buffer.headD 0 := by
  cases buffer with
  | nil => simp [headerLength] at h
  | cons b rest => rfl

/-- Framing with the checks written out in their order. -/
theorem frame_eq (limit : Nat) (buffer : Bytes) :
    frame limit buffer =
      if buffer.length < headerLength then .error (.incomplete buffer.length headerLength)
      else if limit < declared buffer then .error (.tooLarge (declared buffer) limit)
      else if buffer.length < headerLength + declared buffer + 1 then
        .error (.incomplete buffer.length (headerLength + declared buffer + 1))
      else match MessageType.ofTag? (buffer.headD 0) with
        | none => .error (.unknownType (buffer.headD 0) (headerLength + declared buffer + 1))
        | some kind => .ok (⟨kind, parseItems ((buffer.drop headerLength).take (declared buffer)),
            buffer.getD (headerLength + declared buffer) 0⟩,
          headerLength + declared buffer + 1) := by
  match buffer with
  | [] | [_] | [_, _] | [_, _, _] | [_, _, _, _] => rfl
  | tag :: l0 :: l1 :: l2 :: l3 :: rest =>
      have hlong : ¬ (tag :: l0 :: l1 :: l2 :: l3 :: rest).length < headerLength := by
        simp [headerLength]
      have hdeclared : declared (tag :: l0 :: l1 :: l2 :: l3 :: rest) =
          Bytes.toNat [l0, l1, l2, l3] := rfl
      rw [if_neg hlong, hdeclared]
      simp only [frame]
      generalize Bytes.toNat [l0, l1, l2, l3] = n
      by_cases hlimit : limit < n
      · rw [if_pos hlimit, if_pos hlimit]
      rw [if_neg hlimit, if_neg hlimit]
      cases hrest : rest.drop n with
      | nil =>
          have hshort : rest.length ≤ n := List.drop_eq_nil_iff.mp hrest
          rw [if_pos (by simp [headerLength]; omega)]
      | cons trailer after =>
          have hget : rest[n]? = some trailer := by
            have h : (rest.drop n)[0]? = rest[n + 0]? := List.getElem?_drop
            rw [hrest] at h
            exact h.symm
          obtain ⟨hlen, -⟩ := List.getElem?_eq_some_iff.mp hget
          have htrailer :
              (tag :: l0 :: l1 :: l2 :: l3 :: rest).getD (headerLength + n) 0 = trailer := by
            rw [Nat.add_comm headerLength n]
            change (rest[n]?).getD 0 = trailer
            rw [hget]
            rfl
          rw [if_neg (by simp [headerLength]; omega), htrailer, List.headD_cons]
          cases MessageType.ofTag? tag <;> rfl

/-- A frame that decided anything decides the same when more bytes follow. -/
theorem frame_append {limit : Nat} {buffer : Bytes}
    (h : ∀ available needed, frame limit buffer ≠ .error (.incomplete available needed))
    (more : Bytes) : frame limit (buffer ++ more) = frame limit buffer := by
  rw [frame_eq limit buffer] at h
  by_cases hheader : buffer.length < headerLength
  · exact absurd (if_pos hheader) (h _ _)
  have hheader' : headerLength ≤ buffer.length := Nat.le_of_not_lt hheader
  have hlonger : ¬ (buffer ++ more).length < headerLength := by
    rw [List.length_append]
    omega
  rw [frame_eq, frame_eq limit buffer, declared_append hheader', if_neg hheader, if_neg hlonger]
  rw [if_neg hheader] at h
  by_cases hlimit : limit < declared buffer
  · rw [if_pos hlimit, if_pos hlimit]
  rw [if_neg hlimit] at h
  by_cases htotal : buffer.length < headerLength + declared buffer + 1
  · exact absurd (if_pos htotal) (h _ _)
  have htotal' : ¬ (buffer ++ more).length < headerLength + declared buffer + 1 := by
    rw [List.length_append]
    omega
  have hbody : declared buffer ≤ (buffer.drop headerLength).length := by
    rw [List.length_drop]
    omega
  rw [if_neg hlimit, if_neg hlimit, if_neg htotal, if_neg htotal', headD_append hheader',
    List.drop_append_of_le_length hheader', List.take_append_of_le_length hbody,
    List.getD_append _ _ _ _ (by omega)]

/-- What a frame hands out and how many bytes that takes, if it hands out anything and goes on. -/
def outcome? : Except FramingError (Message × Nat) → Option (Except FramingError Message × Nat)
  | .ok (message, consumed) => some (.ok message, consumed)
  | .error (.unknownType tag consumed) => some (.error (.unknownType tag consumed), consumed)
  | .error (.incomplete _ _) | .error (.tooLarge _ _) => none

/-- The three ways in which framing ends, each with what it says about the bytes. -/
theorem frame_cases (limit : Nat) (buffer : Bytes) :
    (∃ needed, buffer.length < needed ∧
      frame limit buffer = .error (.incomplete buffer.length needed)) ∨
    (headerLength ≤ buffer.length ∧ limit < declared buffer ∧
      frame limit buffer = .error (.tooLarge (declared buffer) limit)) ∨
    (declared buffer ≤ limit ∧ headerLength + declared buffer + 1 ≤ buffer.length ∧
      ∃ result, outcome? (frame limit buffer) =
        some (result, headerLength + declared buffer + 1)) := by
  rw [frame_eq]
  by_cases hheader : buffer.length < headerLength
  · exact .inl ⟨headerLength, hheader, if_pos hheader⟩
  rw [if_neg hheader]
  by_cases hlimit : limit < declared buffer
  · exact .inr (.inl ⟨Nat.le_of_not_lt hheader, hlimit, if_pos hlimit⟩)
  rw [if_neg hlimit]
  by_cases htotal : buffer.length < headerLength + declared buffer + 1
  · exact .inl ⟨_, htotal, if_pos htotal⟩
  rw [if_neg htotal]
  refine .inr (.inr ⟨Nat.le_of_not_lt hlimit, Nat.le_of_not_lt htotal, ?_⟩)
  cases MessageType.ofTag? (buffer.headD 0) with
  | none => exact ⟨_, rfl⟩
  | some kind => exact ⟨_, rfl⟩

theorem bounds_of_outcome {limit consumed : Nat} {buffer : Bytes}
    {result : Except FramingError Message}
    (h : outcome? (frame limit buffer) = some (result, consumed)) :
    0 < consumed ∧ consumed ≤ buffer.length := by
  rcases frame_cases limit buffer with ⟨_, -, hf⟩ | ⟨-, -, hf⟩ | ⟨-, hle, _, hf⟩
  · rw [hf] at h
    cases h
  · rw [hf] at h
    cases h
  · rw [hf] at h
    cases h
    exact ⟨Nat.succ_pos _, hle⟩

theorem outcome_append {limit consumed : Nat} {buffer : Bytes}
    {result : Except FramingError Message}
    (h : outcome? (frame limit buffer) = some (result, consumed)) (more : Bytes) :
    outcome? (frame limit (buffer ++ more)) = some (result, consumed) := by
  rw [frame_append, h]
  intro available needed hf
  rw [hf] at h
  cases h

/-- The messages and errors of a stream that is framed from its front, and the bytes that are left
when no further frame can be taken. -/
def sequence (limit : Nat) (stream : Bytes) : List (Except FramingError Message) × Bytes :=
  match h : outcome? (frame limit stream) with
  | none => ([], stream)
  | some (result, consumed) =>
      have : stream.length - consumed < stream.length := by
        obtain ⟨hpos, hle⟩ := bounds_of_outcome h
        omega
      let (results, tail) := sequence limit (stream.drop consumed)
      (result :: results, tail)
termination_by stream.length

theorem sequence_of_none {limit : Nat} {stream : Bytes}
    (h : outcome? (frame limit stream) = none) : sequence limit stream = ([], stream) := by
  rw [sequence]
  split
  · rfl
  · simp_all

theorem sequence_of_some {limit consumed : Nat} {stream : Bytes}
    {result : Except FramingError Message}
    (h : outcome? (frame limit stream) = some (result, consumed)) :
    sequence limit stream =
      (result :: (sequence limit (stream.drop consumed)).1,
        (sequence limit (stream.drop consumed)).2) := by
  rw [sequence]
  split
  · simp_all
  · simp_all

/-- Framing a stream never meets a header that declares more than the limit. -/
def WithinLimit (limit : Nat) (stream : Bytes) : Prop :=
  ∀ length bound, frame limit (sequence limit stream).2 ≠ .error (.tooLarge length bound)

end Message

namespace Framer

theorem next_of_outcome {f : Framer} {consumed : Nat} {result : Except FramingError Message}
    (h : Message.outcome? (Message.frame f.limit f.buffer) = some (result, consumed)) :
    f.next = (some result, { f with buffer := f.buffer.drop consumed }) := by
  unfold next
  split <;> rename_i hf <;> rw [hf] at h <;> cases h <;> rfl

theorem next_of_incomplete {f : Framer} {available needed : Nat}
    (h : Message.frame f.limit f.buffer = .error (.incomplete available needed)) :
    f.next = (none, f) := by
  rw [next, h]

theorem next_of_tooLarge {f : Framer} {declared limit : Nat}
    (h : Message.frame f.limit f.buffer = .error (.tooLarge declared limit)) :
    f.next = (some (.error (.tooLarge declared limit)), { f with buffer := [] }) := by
  rw [next, h]

theorem eq_of_next_none {f g : Framer} (h : f.next = (none, g)) : g = f := by
  rcases Message.frame_cases f.limit f.buffer with ⟨_, -, hf⟩ | ⟨-, -, hf⟩ | ⟨-, -, _, hf⟩
  · rw [next_of_incomplete hf] at h
    exact (Prod.mk.inj h).2.symm
  · rw [next_of_tooLarge hf] at h
    cases h
  · rw [next_of_outcome hf] at h
    cases h

theorem outcome_of_next_none {f g : Framer} (h : f.next = (none, g)) :
    Message.outcome? (Message.frame f.limit f.buffer) = none := by
  cases hf : Message.outcome? (Message.frame f.limit f.buffer) with
  | none => rfl
  | some decided =>
      rw [next_of_outcome hf] at h
      cases h

theorem limit_next (f : Framer) : f.next.2.limit = f.limit := by
  unfold next
  split <;> rfl

/-! ## Asking for messages while bytes arrive -/

/-- What the owner of a framer does with it. -/
inductive Call
  /-- Bytes arrive. -/
  | extend (bytes : Bytes)
  /-- Ask for the next message. -/
  | next

def arrived : List Call → Bytes
  | [] => []
  | .extend bytes :: calls => bytes ++ arrived calls
  | .next :: calls => arrived calls

def run : List Call → Framer → List (Except FramingError Message) × Framer
  | [], f => ([], f)
  | .extend bytes :: calls, f => run calls (f.extend bytes)
  | .next :: calls, f =>
      let (result, f) := f.next
      let (results, f) := run calls f
      (result.toList ++ results, f)

@[simp] theorem run_nil (f : Framer) : run [] f = ([], f) := rfl

theorem run_extend (bytes : Bytes) (calls : List Call) (f : Framer) :
    run (.extend bytes :: calls) f = run calls (f.extend bytes) := rfl

theorem run_next (calls : List Call) (f : Framer) :
    run (.next :: calls) f =
      (f.next.1.toList ++ (run calls f.next.2).1, (run calls f.next.2).2) := rfl

theorem run_append (calls more : List Call) (f : Framer) :
    run (calls ++ more) f =
      ((run calls f).1 ++ (run more (run calls f).2).1, (run more (run calls f).2).2) := by
  induction calls generalizing f with
  | nil => rfl
  | cons call calls ih =>
      cases call with
      | extend bytes => rw [List.cons_append, run_extend, run_extend, ih]
      | next => rw [List.cons_append, run_next, run_next, ih, List.append_assoc]

theorem limit_run (calls : List Call) (f : Framer) : (run calls f).2.limit = f.limit := by
  induction calls generalizing f with
  | nil => rfl
  | cons call calls ih =>
      cases call with
      | extend bytes => exact ih (f.extend bytes)
      | next => exact (ih f.next.2).trans (limit_next f)

/-- What was handed out, followed by what the waiting bytes still hold, is what the waiting bytes
and the arriving ones hold together. -/
theorem sequence_eq_run (calls : List Call) (f : Framer)
    (h : Message.WithinLimit f.limit (f.buffer ++ arrived calls)) :
    Message.sequence f.limit (f.buffer ++ arrived calls) =
      ((run calls f).1 ++ (Message.sequence f.limit (run calls f).2.buffer).1,
        (Message.sequence f.limit (run calls f).2.buffer).2) := by
  induction calls generalizing f with
  | nil => simp [arrived]
  | cons call calls ih =>
      cases call with
      | extend bytes =>
          have happend : f.buffer ++ arrived (.extend bytes :: calls) =
              (f.extend bytes).buffer ++ arrived calls := (List.append_assoc ..).symm
          rw [happend] at h ⊢
          exact ih (f.extend bytes) h
      | next =>
          change Message.WithinLimit f.limit (f.buffer ++ arrived calls) at h
          change Message.sequence f.limit (f.buffer ++ arrived calls) = _
          rw [run_next]
          rcases Message.frame_cases f.limit f.buffer with
            ⟨_, -, hf⟩ | ⟨-, -, hf⟩ | ⟨-, hle, result, hf⟩
          · rw [next_of_incomplete hf]
            exact ih f h
          · -- The header would be too large for the whole stream as well.
            have hframe := Message.frame_append (by rw [hf]; simp) (arrived calls)
            rw [hf] at hframe
            have hnone : Message.outcome? (Message.frame f.limit (f.buffer ++ arrived calls)) =
                none := by rw [hframe]; rfl
            refine absurd ?_ (h (Message.declared f.buffer) f.limit)
            rw [Message.sequence_of_none hnone]
            exact hframe
          · have hsome := Message.sequence_of_some (Message.outcome_append hf (arrived calls))
            rw [List.drop_append_of_le_length hle] at hsome
            have hrest := ih { f with buffer := f.buffer.drop _ }
              (by rw [Message.WithinLimit, hsome] at h; exact h)
            rw [next_of_outcome hf, hsome, hrest]
            rfl

/-- What comes out of waiting bytes when messages are asked for until there are none. -/
theorem drain_of_none {f g : Framer} (h : f.next = (none, g)) : f.drain = ([], g) := by
  rw [drain]
  split <;> simp_all

theorem drain_of_some {f g : Framer} {result : Except FramingError Message}
    (h : f.next = (some result, g)) : f.drain = (result :: g.drain.1, g.drain.2) := by
  rw [drain]
  split <;> simp_all

/-- A drained framer has nothing to hand out. -/
theorem next_drain (f : Framer) : f.drain.2.next = (none, f.drain.2) := by
  induction hn : f.buffered using Nat.strongRecOn generalizing f with
  | ind n ih =>
      rcases hnext : f.next with ⟨result, g⟩
      cases result with
      | none =>
          obtain rfl := eq_of_next_none hnext
          rw [drain_of_none hnext]
          exact hnext
      | some result =>
          rw [drain_of_some hnext]
          exact ih g.buffered (hn ▸ buffered_next_lt hnext) g rfl

/-- Draining a framer is asking it for messages as often as it hands one out. -/
theorem drain_eq_run (f : Framer) : f.drain = run (List.replicate f.drain.1.length .next) f := by
  induction hn : f.buffered using Nat.strongRecOn generalizing f with
  | ind n ih =>
      rcases hnext : f.next with ⟨result, g⟩
      cases result with
      | none =>
          obtain rfl := eq_of_next_none hnext
          rw [drain_of_none hnext]
          rfl
      | some result =>
          have hrun := ih g.buffered (hn ▸ buffered_next_lt hnext) g rfl
          rw [drain_of_some hnext, List.length_cons, List.replicate_succ, run_next, hnext, ← hrun]
          rfl

/-- Draining a framer is asking it for messages a number of times. -/
theorem exists_drain_eq_run (f : Framer) :
    ∃ count, f.drain = run (List.replicate count .next) f :=
  ⟨_, drain_eq_run f⟩

theorem arrived_append (calls more : List Call) :
    arrived (calls ++ more) = arrived calls ++ arrived more := by
  induction calls with
  | nil => rfl
  | cons call calls ih =>
      cases call with
      | extend bytes => rw [List.cons_append, arrived, arrived, ih, List.append_assoc]
      | next => exact ih

theorem arrived_replicate_next (count : Nat) : arrived (List.replicate count .next) = [] := by
  induction count with
  | zero => rfl
  | succ count ih => exact ih

/-- When the last call has left nothing to hand out, the calls have handed out everything. -/
theorem run_eq_sequence (calls : List Call) (f : Framer)
    (h : Message.WithinLimit f.limit (f.buffer ++ arrived calls))
    (hlast : (run calls f).2.next = (none, (run calls f).2)) :
    run calls f = ((Message.sequence f.limit (f.buffer ++ arrived calls)).1,
      ⟨f.limit, (Message.sequence f.limit (f.buffer ++ arrived calls)).2⟩) := by
  have hsequence := sequence_eq_run calls f h
  have hnone := outcome_of_next_none hlast
  rw [limit_run] at hnone
  rw [Message.sequence_of_none hnone, List.append_nil] at hsequence
  rw [hsequence, ← limit_run calls f]

/-- Framing does not depend on how the bytes arrive. However a stream is cut and whenever messages
are asked for, what was handed out so far begins the list of the whole stream, and after the last
message the list is complete and the undecided bytes of the stream wait. -/
theorem results_independent_of_arrival {limit : Nat} {stream : Bytes}
    (hlimit : Message.WithinLimit limit stream) (calls : List Call)
    (hcalls : arrived calls = stream) :
    (∀ sofar, sofar <+: calls →
      (run sofar (empty limit)).1 <+: (Message.sequence limit stream).1) ∧
    (run calls (empty limit)).1 ++ (run calls (empty limit)).2.drain.1 =
      (Message.sequence limit stream).1 ∧
    (run calls (empty limit)).2.drain.2 = ⟨limit, (Message.sequence limit stream).2⟩ ∧
    (run calls (empty limit)).2.drain.2.next.1 = none := by
  obtain ⟨count, hdrain⟩ := exists_drain_eq_run (run calls (empty limit)).2
  have harrived : arrived (calls ++ List.replicate count .next) = stream := by
    rw [arrived_append, arrived_replicate_next, List.append_nil, hcalls]
  have hall := run_append calls (List.replicate count .next) (empty limit)
  rw [← hdrain] at hall
  have hlast := next_drain (run calls (empty limit)).2
  have hsequence := run_eq_sequence (calls ++ List.replicate count .next) (empty limit)
    (harrived.symm ▸ hlimit) (by rw [hall]; exact hlast)
  rw [hall, harrived] at hsequence
  obtain ⟨hresults, hframer⟩ := Prod.mk.inj hsequence
  refine ⟨?_, hresults, hframer, by rw [hlast]⟩
  rintro sofar ⟨later, rfl⟩
  rw [run_append, List.append_assoc] at hresults
  exact ⟨_, hresults⟩

/-- A message of unknown type and a request, both cut inside the header, and one byte more. -/
theorem unknown_and_request_in_pieces :
    let stream : Bytes := [0x5a, 1, 0, 0, 0, 7, 0, 0x51, 0, 0, 0, 0, 9, 0x43]
    let calls := [.extend [0x5a, 1, 0], .next, .extend [0, 0, 7, 0, 0x51, 0], .next, .next,
      .extend [0, 0, 0, 9, 0x43], .next]
    Message.WithinLimit 16 stream ∧ arrived calls = stream ∧
      (run calls (empty 16)).1 ++ (run calls (empty 16)).2.drain.1 =
        [.error (.unknownType 0x5a 7), .ok ⟨.query, parseItems [], 9⟩] := by
  intro stream calls
  have hsequence : Message.sequence 16 stream =
      ([.error (.unknownType 0x5a 7), .ok ⟨.query, parseItems [], 9⟩], [0x43]) := by
    have hunknown : Message.outcome? (Message.frame 16 stream) =
        some (.error (.unknownType 0x5a 7), 7) := rfl
    have hrequest : Message.outcome? (Message.frame 16 (stream.drop 7)) =
        some (.ok ⟨.query, parseItems [], 9⟩, 6) := rfl
    rw [Message.sequence_of_some hunknown, Message.sequence_of_some hrequest,
      Message.sequence_of_none rfl]
    rfl
  have hlimit : Message.WithinLimit 16 stream := by
    intro length bound
    rw [hsequence]
    nofun
  have harrived : arrived calls = stream := rfl
  refine ⟨hlimit, harrived, ?_⟩
  rw [(results_independent_of_arrival hlimit calls harrived).2.1, hsequence]

end Framer

end DaqServer
