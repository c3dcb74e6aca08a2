import Mathlib
import DaqServer.Proofs.Message.Wire

/-!
# Messages beyond the limit

A message that is too large clears whatever waits at the moment its header is complete, and nothing
else: the framer forgets that more of the message may follow. `Delivery` is such a message with one
within the limit behind it, cut into pieces. Main statement: the pieces after the one that completes
the header are framed like a new stream, so the second message is sure to come out, and nothing else
with it, exactly when that piece ends where the large message ends.
-/

namespace DaqServer

namespace Message

/-- A message that is handed out has the type of the first byte. -/
theorem kind_of_outcome {limit consumed : Nat} {buffer : Bytes} {message : Message}
    (h : outcome? (frame limit buffer) = some (.ok message, consumed)) :
    MessageType.ofTag? (buffer.headD 0) = some message.kind := by
  rw [frame_eq] at h
  split_ifs at h
  · cases h
  · cases h
  · cases h
  cases hkind : MessageType.ofTag? (buffer.headD 0) with
  | none =>
      rw [hkind] at h
      cases h
  | some kind =>
      rw [hkind] at h
      cases h
      rfl

end Message

namespace Framer

/-! ## Bytes in pieces -/

/-- Pieces arrive one after the other, and after each everything decided is handed out. -/
def receive : List Bytes → Framer → List (Except FramingError Message) × Framer
  | [], f => ([], f)
  | piece :: pieces, f =>
      let (results, f) := (f.extend piece).drain
      let (later, f) := receive pieces f
      (results ++ later, f)

theorem receive_cons (piece : Bytes) (pieces : List Bytes) (f : Framer) :
    receive (piece :: pieces) f =
      ((f.extend piece).drain.1 ++ (receive pieces (f.extend piece).drain.2).1,
        (receive pieces (f.extend piece).drain.2).2) := rfl

theorem exists_receive_eq_run (pieces : List Bytes) (f : Framer) :
    ∃ calls, arrived calls = pieces.flatten ∧ receive pieces f = run calls f := by
  induction pieces generalizing f with
  | nil => exact ⟨[], rfl, rfl⟩
  | cons piece pieces ih =>
      obtain ⟨count, hdrain⟩ := exists_drain_eq_run (f.extend piece)
      obtain ⟨calls, harrived, hrun⟩ := ih (f.extend piece).drain.2
      refine ⟨.extend piece :: (List.replicate count .next ++ calls), ?_, ?_⟩
      · rw [arrived, arrived_append, arrived_replicate_next, harrived]
        rfl
      · rw [receive_cons, hrun, run_extend, run_append, ← hdrain]

/-- A framer that has nothing to hand out has nothing to hand out after pieces either. -/
theorem next_receive {f : Framer} (h : f.next = (none, f)) (pieces : List Bytes) :
    (receive pieces f).2.next = (none, (receive pieces f).2) := by
  induction pieces generalizing f with
  | nil => exact h
  | cons piece pieces ih => exact ih (next_drain _)

theorem next_empty (limit : Nat) : (empty limit).next = (none, empty limit) := rfl

/-- Pieces that stay within the limit are framed like the whole. -/
theorem receive_eq_sequence {limit : Nat} (pieces : List Bytes)
    (h : Message.WithinLimit limit pieces.flatten) :
    receive pieces (empty limit) = ((Message.sequence limit pieces.flatten).1,
      ⟨limit, (Message.sequence limit pieces.flatten).2⟩) := by
  obtain ⟨calls, harrived, hrun⟩ := exists_receive_eq_run pieces (empty limit)
  have hlast := next_receive (next_empty limit) pieces
  rw [hrun] at hlast ⊢
  rw [← harrived] at h ⊢
  exact run_eq_sequence calls (empty limit) h hlast

/-! ## A header beyond the limit -/

/-- How many pieces of the given lengths it takes until so many bytes are there. -/
def piecesFor : (count : Nat) → List Nat → Nat
  | _, [] => 0
  | count, length :: lengths =>
      if count ≤ length then 1 else piecesFor (count - length) lengths + 1

/-- A framer reports a header beyond the limit once, when the piece that completes it arrives, and
then is as good as new. -/
theorem receive_of_tooLarge (pieces : List Bytes) (f : Framer)
    (hheader : f.buffer.length < Message.headerLength)
    (hlength : Message.headerLength ≤ (f.buffer ++ pieces.flatten).length)
    (hlimit : f.limit < Message.declared (f.buffer ++ pieces.flatten)) :
    receive pieces f =
      Prod.map
        (.error (.tooLarge (Message.declared (f.buffer ++ pieces.flatten)) f.limit) :: ·) id
        (receive (pieces.drop (piecesFor (Message.headerLength - f.buffer.length)
          (pieces.map List.length))) (empty f.limit)) := by
  induction pieces generalizing f with
  | nil =>
      rw [List.flatten_nil, List.append_nil] at hlength
      omega
  | cons piece pieces ih =>
      have hstream : f.buffer ++ (piece :: pieces).flatten =
          (f.extend piece).buffer ++ pieces.flatten := (List.append_assoc ..).symm
      have hbuffer : (f.extend piece).buffer.length = f.buffer.length + piece.length :=
        List.length_append
      rw [hstream] at hlength hlimit ⊢
      rw [receive_cons, List.map_cons, piecesFor]
      by_cases hcomplete : Message.headerLength - f.buffer.length ≤ piece.length
      · have hheader' : Message.headerLength ≤ (f.extend piece).buffer.length := by omega
        rw [Message.declared_append hheader'] at hlimit ⊢
        have hframe : Message.frame (f.extend piece).limit (f.extend piece).buffer =
            .error (.tooLarge (Message.declared (f.extend piece).buffer) f.limit) := by
          rw [Message.frame_eq, if_neg (by omega)]
          exact if_pos hlimit
        have hnext : (f.extend piece).next =
            (some (.error (.tooLarge (Message.declared (f.extend piece).buffer) f.limit)),
              empty f.limit) := next_of_tooLarge hframe
        rw [drain_of_some hnext, drain_of_none (next_empty f.limit), if_pos hcomplete]
        rfl
      · have hheader' : (f.extend piece).buffer.length < Message.headerLength := by omega
        have hframe : Message.frame (f.extend piece).limit (f.extend piece).buffer =
            .error (.incomplete (f.extend piece).buffer.length Message.headerLength) := by
          rw [Message.frame_eq, if_pos hheader']
        have hcount : Message.headerLength - f.buffer.length - piece.length =
            Message.headerLength - (f.extend piece).buffer.length := by omega
        rw [drain_of_none (next_of_incomplete hframe), if_neg hcomplete, hcount,
          List.drop_succ_cons]
        exact ih (f.extend piece) hheader' hlength hlimit

theorem drain_of_fst_nil {f : Framer} (h : f.drain.1 = []) : f.drain = ([], f) := by
  rcases hnext : f.next with ⟨result, g⟩
  cases result with
  | none =>
      obtain rfl := eq_of_next_none hnext
      exact drain_of_none hnext
  | some result =>
      rw [drain_of_some hnext] at h
      cases h

theorem kind_of_drain {f : Framer} {message : Message}
    {results : List (Except FramingError Message)} (h : f.drain.1 = .ok message :: results) :
    Message.headerLength ≤ f.buffer.length ∧
      MessageType.ofTag? (f.buffer.headD 0) = some message.kind := by
  rcases Message.frame_cases f.limit f.buffer with
    ⟨_, -, hf⟩ | ⟨-, -, hf⟩ | ⟨-, hle, result, hf⟩
  · rw [drain_of_none (next_of_incomplete hf)] at h
    cases h
  · rw [drain_of_some (next_of_tooLarge hf)] at h
    cases h
  · rw [drain_of_some (next_of_outcome hf)] at h
    obtain ⟨rfl, -⟩ := List.cons.inj h
    exact ⟨by omega, Message.kind_of_outcome hf⟩

/-- The first message that comes out of pieces has the type of their first byte. -/
theorem kind_of_receive {pieces : List Bytes} {f : Framer} {message : Message}
    {results : List (Except FramingError Message)}
    (h : (receive pieces f).1 = .ok message :: results) :
    MessageType.ofTag? ((f.buffer ++ pieces.flatten).headD 0) = some message.kind := by
  induction pieces generalizing f with
  | nil => cases h
  | cons piece pieces ih =>
      have hstream : f.buffer ++ (piece :: pieces).flatten =
          (f.extend piece).buffer ++ pieces.flatten := (List.append_assoc ..).symm
      rw [receive_cons] at h
      rw [hstream]
      cases hdrain : (f.extend piece).drain.1 with
      | nil =>
          rw [drain_of_fst_nil hdrain] at h
          exact ih h
      | cons result later =>
          rw [hdrain] at h
          obtain ⟨rfl, -⟩ := List.cons.inj h
          obtain ⟨hlength, hkind⟩ := kind_of_drain hdrain
          rw [Message.headD_append hlength, hkind]

end Framer

/-! ## A message beyond the limit and one behind it -/

/-- A message beyond the limit with one within it right behind, and the pieces in which they
arrive. -/
structure Delivery (limit : Nat) where
  tag : UInt8
  body : Bytes
  trailer : UInt8
  kind : MessageType
  payload : Bytes
  closing : UInt8
  pieces : List Bytes
  beyond : limit < body.length
  declarable : body.length < 2 ^ 32
  within : payload.length ≤ limit
  flatten_pieces : pieces.flatten =
    Message.wire tag body trailer ++ Message.wire kind.tag payload closing

namespace Delivery

variable {limit : Nat}

def oversized (v : Delivery limit) : Bytes := Message.wire v.tag v.body v.trailer

def message (v : Delivery limit) : Message := ⟨v.kind, parseItems v.payload, v.closing⟩

def error (v : Delivery limit) : FramingError := .tooLarge v.body.length limit

def received (v : Delivery limit) : List (Except FramingError Message) × Framer :=
  Framer.receive v.pieces (.empty limit)

def lengths (v : Delivery limit) : List Nat := v.pieces.map List.length

def headerPieces (v : Delivery limit) : Nat := Framer.piecesFor Message.headerLength v.lengths

def headerCut (v : Delivery limit) : Nat := (v.lengths.take v.headerPieces).sum

def later (v : Delivery limit) : List Bytes := v.pieces.drop v.headerPieces

theorem received_eq (v : Delivery limit) :
    v.received = Prod.map (.error v.error :: ·) id (Framer.receive v.later (.empty limit)) := by
  have hstream : (Framer.empty limit).buffer ++ v.pieces.flatten =
      v.oversized ++ Message.wire v.kind.tag v.payload v.closing := v.flatten_pieces
  have hdeclared :
      Message.declared ((Framer.empty limit).buffer ++ v.pieces.flatten) = v.body.length := by
    rw [hstream]
    exact Message.declared_wire v.declarable _
  have hlength : Message.headerLength ≤
      ((Framer.empty limit).buffer ++ v.pieces.flatten).length := by
    rw [hstream, List.length_append, oversized, Message.length_wire]
    omega
  have h := Framer.receive_of_tooLarge v.pieces (.empty limit) (Nat.succ_pos 4) hlength
    (by rw [hdeclared]; exact v.beyond)
  rw [hdeclared] at h
  exact h

theorem flatten_later (v : Delivery limit) :
    v.later.flatten =
      (v.oversized ++ Message.wire v.kind.tag v.payload v.closing).drop v.headerCut := by
  have h := List.drop_sum_flatten v.pieces v.headerPieces
  rw [v.flatten_pieces] at h
  exact h.symm

/-- Cut right behind the large message, both messages are accounted for and nothing is left. -/
theorem received_of_cut (v : Delivery limit) (h : v.headerCut = v.oversized.length) :
    v.received = ([.error v.error, .ok v.message], .empty limit) := by
  have hlater : v.later.flatten = Message.wire v.kind.tag v.payload v.closing := by
    rw [flatten_later, h, List.drop_left]
  have hframe :
      Message.frame limit (Message.wire v.kind.tag v.payload v.closing ++ []) =
        .ok (v.message, Message.headerLength + v.payload.length + 1) :=
    Message.frame_wire v.within
      (Nat.lt_of_le_of_lt v.within (Nat.lt_trans v.beyond v.declarable)) []
  rw [List.append_nil] at hframe
  have hsequence : Message.sequence limit (Message.wire v.kind.tag v.payload v.closing) =
      ([.ok v.message], []) := by
    have hall : (Message.wire v.kind.tag v.payload v.closing).drop
        (Message.headerLength + v.payload.length + 1) = [] :=
      List.drop_eq_nil_of_le (Message.length_wire ..).le
    rw [Message.sequence_of_some (by rw [hframe]; rfl), hall, Message.sequence_of_none rfl]
  have hwithin : Message.WithinLimit limit v.later.flatten := by
    intro length bound
    rw [hlater, hsequence]
    nofun
  rw [received_eq, Framer.receive_eq_sequence v.later hwithin, hlater, hsequence]
  rfl

theorem sum_lengths (v : Delivery limit) :
    v.lengths.sum =
      v.oversized.length + (Message.headerLength + v.payload.length + 1) := by
  rw [lengths, ← List.length_flatten, v.flatten_pieces, List.length_append, Message.length_wire
    v.kind.tag]
  rfl

theorem length_retyped (v : Delivery limit) (kind : MessageType) :
    (v.oversized ++ Message.wire kind.tag v.payload v.closing).length = v.lengths.sum := by
  rw [sum_lengths, List.length_append, Message.length_wire]

/-- The same delivery with another type for the message behind, cut at the same places. -/
def retype (v : Delivery limit) (kind : MessageType) : Delivery limit where
  tag := v.tag
  body := v.body
  trailer := v.trailer
  kind := kind
  payload := v.payload
  closing := v.closing
  pieces := v.lengths.splitLengths (v.oversized ++ Message.wire kind.tag v.payload v.closing)
  beyond := v.beyond
  declarable := v.declarable
  within := v.within
  flatten_pieces := List.flatten_splitLengths _ _ (v.length_retyped kind).le

theorem lengths_retype (v : Delivery limit) (kind : MessageType) :
    (v.retype kind).lengths = v.lengths :=
  List.map_splitLengths_length _ _ (v.length_retyped kind).ge

/-- The type of the message behind shows in its first byte only. -/
theorem getElem?_retyped (v : Delivery limit) (kind : MessageType) {i : Nat}
    (h : i ≠ v.oversized.length) :
    (v.oversized ++ Message.wire kind.tag v.payload v.closing)[i]? =
      (v.oversized ++ Message.wire v.kind.tag v.payload v.closing)[i]? := by
  rcases Nat.lt_or_gt_of_ne h with hlt | hgt
  · rw [List.getElem?_append_left hlt, List.getElem?_append_left hlt]
  · obtain ⟨j, rfl⟩ : ∃ j, i = v.oversized.length + (j + 1) :=
      ⟨i - v.oversized.length - 1, by omega⟩
    rw [List.getElem?_append_right (Nat.le_add_right _ _),
      List.getElem?_append_right (Nat.le_add_right _ _), Nat.add_sub_cancel_left]
    rfl

/-- If the message behind comes out right after the error, its type is the first later byte. -/
theorem kind_of_received {v : Delivery limit}
    (h : v.received = ([.error v.error, .ok v.message], .empty limit)) :
    MessageType.ofTag? ((v.oversized ++
      Message.wire v.kind.tag v.payload v.closing)[v.headerCut]?.getD 0) = some v.kind := by
  rw [received_eq] at h
  have hresults : (Framer.receive v.later (.empty limit)).1 = [.ok v.message] :=
    (List.cons.inj (Prod.mk.inj h).1).2
  have hkind := Framer.kind_of_receive hresults
  change MessageType.ofTag? (v.later.flatten.headD 0) = some v.kind at hkind
  rw [flatten_later, List.headD_eq_head?_getD, List.head?_drop] at hkind
  exact hkind

/-- Every type but one differs from what a byte stands for. -/
theorem exists_kind_ne (tag : UInt8) : ∃ kind, MessageType.ofTag? tag ≠ some kind := by
  by_cases h : MessageType.ofTag? tag = some .query
  · exact ⟨.config, by rw [h]; nofun⟩
  · exact ⟨.query, h⟩

/-- A message beyond the limit is reported once, when its header is complete, and all that waits
then is dropped; the later pieces are framed like a new stream. So the message behind comes out
next, with nothing else and nothing left, whatever the bytes are, exactly if the pieces are cut
where the large message ends. -/
theorem resynchronises_iff_cut {limit : Nat} (v : Delivery limit) :
    v.received = Prod.map (.error v.error :: ·) id (Framer.receive v.later (.empty limit)) ∧
    ((∀ w : Delivery limit, w.lengths = v.lengths → w.body.length = v.body.length →
        w.received = ([.error w.error, .ok w.message], .empty limit)) ↔
      v.headerCut = v.oversized.length) := by
  refine ⟨v.received_eq, ?_, ?_⟩
  · intro h
    by_contra hcut
    obtain ⟨kind, hkind⟩ := exists_kind_ne ((v.oversized ++
      Message.wire v.kind.tag v.payload v.closing)[v.headerCut]?.getD 0)
    have hcut' : (v.retype kind).headerCut = v.headerCut := by
      rw [headerCut, headerCut, headerPieces, headerPieces, lengths_retype]
    have hreceived := kind_of_received (h (v.retype kind) (v.lengths_retype kind) rfl)
    rw [hcut'] at hreceived
    change MessageType.ofTag? ((v.oversized ++
      Message.wire kind.tag v.payload v.closing)[v.headerCut]?.getD 0) = some kind at hreceived
    rw [v.getElem?_retyped kind hcut] at hreceived
    exact hkind hreceived
  · intro hcut w hlengths hbody
    refine w.received_of_cut ?_
    rw [headerCut, headerPieces, hlengths]
    refine hcut.trans ?_
    rw [oversized, oversized, Message.length_wire, Message.length_wire, hbody]

/-- A large message whose body begins like a request, cut behind its header. -/
def embeddedRequest : Delivery 16 where
  tag := 0x51
  body := 0x43 :: List.replicate 16 0
  trailer := 0
  kind := .query
  payload := []
  closing := 0
  pieces := [[0x51, 17, 0, 0, 0],
    0x43 :: List.replicate 17 0 ++ [0x51, 0, 0, 0, 0, 0]]
  beyond := by decide
  declarable := by decide
  within := by decide
  flatten_pieces := rfl

/-- The bytes of a message beyond the limit are not skipped: what looks like a request is taken for
one, and the rest is reported. -/
theorem embedded_request_comes_out :
    embeddedRequest.received.1 =
      [.error (.tooLarge 17 16), .ok ⟨.config, parseItems [], 0⟩, .error (.unknownType 0 6),
        .error (.unknownType 0 6), .ok ⟨.query, parseItems [], 0⟩] ∧
    ¬ ∀ (limit : Nat) (v : Delivery limit), v.received.1 = [.error v.error, .ok v.message] := by
  have hreceived : embeddedRequest.received.1 =
      [.error (.tooLarge 17 16), .ok ⟨.config, parseItems [], 0⟩, .error (.unknownType 0 6),
        .error (.unknownType 0 6), .ok ⟨.query, parseItems [], 0⟩] := by
    let rest : Bytes := 0x43 :: List.replicate 17 0 ++ [0x51, 0, 0, 0, 0, 0]
    have hconfig : Message.outcome? (Message.frame 16 rest) =
        some (.ok ⟨.config, parseItems [], 0⟩, 6) := rfl
    have hzeros : Message.outcome? (Message.frame 16 (rest.drop 6)) =
        some (.error (.unknownType 0 6), 6) := rfl
    have hzeros' : Message.outcome? (Message.frame 16 ((rest.drop 6).drop 6)) =
        some (.error (.unknownType 0 6), 6) := rfl
    have hquery : Message.outcome? (Message.frame 16 (((rest.drop 6).drop 6).drop 6)) =
        some (.ok ⟨.query, parseItems [], 0⟩, 6) := rfl
    have hsequence : Message.sequence 16 rest =
        ([.ok ⟨.config, parseItems [], 0⟩, .error (.unknownType 0 6),
          .error (.unknownType 0 6), .ok ⟨.query, parseItems [], 0⟩], []) := by
      rw [Message.sequence_of_some hconfig, Message.sequence_of_some hzeros,
        Message.sequence_of_some hzeros', Message.sequence_of_some hquery,
        Message.sequence_of_none rfl]
      rfl
    have hlater : embeddedRequest.later = [rest] := rfl
    have hflatten : [rest].flatten = rest := List.append_nil rest
    have hwithin : Message.WithinLimit 16 [rest].flatten := by
      intro length bound
      rw [hflatten, hsequence]
      nofun
    rw [received_eq, hlater, Framer.receive_eq_sequence [rest] hwithin, hflatten, hsequence]
    rfl
  refine ⟨hreceived, fun h => ?_⟩
  have hboth := (h 16 embeddedRequest).symm.trans hreceived
  have hlength := congrArg List.length hboth
  cases hlength

end Delivery

end DaqServer
