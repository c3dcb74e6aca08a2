import DaqServer.Proofs.Message.Sequence
import Mathlib.Algebra.Group.Nat.Defs

/-!
# Messages on the wire

`wire` lays a message out: its type, the length of its body, the body and a closing byte. Whatever
is framed was laid out so, and a body within the limit is framed as what it is. A message is written
in this form when the length field holds the length of its items.
-/

namespace DaqServer

theorem MessageType.tag_of_ofTag? {tag : UInt8} {kind : MessageType} (h : ofTag? tag = some kind) :
    kind.tag = tag := by
  have hfound := List.find?_some h
  exact beq_iff_eq.mp hfound

namespace Message

def wire (tag : UInt8) (body : Bytes) (trailer : UInt8) : Bytes :=
  tag :: (Bytes.ofNat 4 body.length ++ body ++ [trailer])

@[simp] theorem length_wire (tag : UInt8) (body : Bytes) (trailer : UInt8) :
    (wire tag body trailer).length = headerLength + body.length + 1 := by
  simp [wire, headerLength]
  omega

/-- Messages that differ in the closing byte begin with the same bytes. -/
theorem take_wire (tag : UInt8) (body : Bytes) (trailer closing : UInt8) (more : Bytes) :
    (wire tag body trailer ++ more).take (headerLength + body.length) ++ [closing] =
      wire tag body closing := by
  have hsplit : wire tag body trailer ++ more =
      (tag :: (Bytes.ofNat 4 body.length ++ body)) ++ ([trailer] ++ more) := by
    simp [wire]
  have hlength : (tag :: (Bytes.ofNat 4 body.length ++ body)).length =
      headerLength + body.length := by
    simp [headerLength]
    omega
  rw [hsplit, List.take_left' hlength, wire, List.cons_append]

theorem declared_wire {tag trailer : UInt8} {body : Bytes} (h : body.length < 2 ^ 32)
    (more : Bytes) : declared (wire tag body trailer ++ more) = body.length := by
  have hheader : (wire tag body trailer ++ more).drop 1 =
      Bytes.ofNat 4 body.length ++ (body ++ [trailer] ++ more) := by
    simp [wire]
  have htake : ((wire tag body trailer ++ more).drop 1).take 4 = Bytes.ofNat 4 body.length := by
    rw [hheader, List.take_left' (by simp)]
  rw [declared, htake, Bytes.toNat_ofNat]
  exact Nat.mod_eq_of_lt h

/-- What is laid out within the limit is framed by its type. -/
theorem frame_wire_eq {limit : Nat} {tag trailer : UInt8} {body : Bytes}
    (hlimit : body.length ≤ limit) (hlength : body.length < 2 ^ 32) (more : Bytes) :
    frame limit (wire tag body trailer ++ more) =
      match MessageType.ofTag? tag with
      | none => .error (.unknownType tag (headerLength + body.length + 1))
      | some kind =>
          .ok (⟨kind, parseItems body, trailer⟩, headerLength + body.length + 1) := by
  have htotal : headerLength + body.length + 1 ≤ (wire tag body trailer ++ more).length := by
    rw [List.length_append, length_wire]
    omega
  have hhead : (wire tag body trailer ++ more).headD 0 = tag := rfl
  have hdrop : (wire tag body trailer ++ more).drop headerLength =
      body ++ ([trailer] ++ more) := by
    have hsplit : wire tag body trailer ++ more =
        (tag :: Bytes.ofNat 4 body.length) ++ (body ++ ([trailer] ++ more)) := by
      simp [wire]
    rw [hsplit, List.drop_left' (by simp [headerLength])]
  have htrailer :
      (wire tag body trailer ++ more).getD (headerLength + body.length) 0 = trailer := by
    have hget : ((wire tag body trailer ++ more).drop headerLength)[body.length]? =
        (wire tag body trailer ++ more)[headerLength + body.length]? := List.getElem?_drop
    rw [hdrop] at hget
    rw [List.getD_eq_getElem?_getD, ← hget]
    simp
  have hframe := frame_eq limit (wire tag body trailer ++ more)
  rw [declared_wire hlength, if_neg (by omega), if_neg (by omega), if_neg (by omega), hhead, hdrop,
    htrailer, List.take_left] at hframe
  refine hframe.trans ?_
  cases MessageType.ofTag? tag <;> rfl

/-- A message within the limit is framed as what it is. -/
theorem frame_wire {limit : Nat} {kind : MessageType} {body : Bytes} {trailer : UInt8}
    (hlimit : body.length ≤ limit) (hlength : body.length < 2 ^ 32) (more : Bytes) :
    frame limit (wire kind.tag body trailer ++ more) =
      .ok (⟨kind, parseItems body, trailer⟩, headerLength + body.length + 1) := by
  rw [frame_wire_eq hlimit hlength, MessageType.ofTag?_tag]

/-- Bytes that go on for as long as their header says begin as they are laid out. -/
theorem exists_eq_wire {buffer : Bytes}
    (h : headerLength + declared buffer + 1 ≤ buffer.length) :
    ∃ tag body trailer more, buffer = wire tag body trailer ++ more ∧
      body.length = declared buffer ∧ body.length < 2 ^ 32 := by
  match buffer, h with
  | tag :: l0 :: l1 :: l2 :: l3 :: rest, h =>
      have hdeclared : declared (tag :: l0 :: l1 :: l2 :: l3 :: rest) =
          Bytes.toNat [l0, l1, l2, l3] := rfl
      have hnumber : Bytes.ofNat 4 (Bytes.toNat [l0, l1, l2, l3]) = [l0, l1, l2, l3] :=
        Bytes.ofNat_toNat [l0, l1, l2, l3]
      have hsmall : Bytes.toNat [l0, l1, l2, l3] < 2 ^ 32 := by
        have := l0.toNat_lt
        have := l1.toNat_lt
        have := l2.toNat_lt
        have := l3.toNat_lt
        simp only [Bytes.toNat_cons, Bytes.toNat_nil]
        omega
      rw [hdeclared] at h ⊢
      generalize Bytes.toNat [l0, l1, l2, l3] = n at h hnumber hsmall ⊢
      have hlong : n < rest.length := by
        simp [headerLength] at h
        omega
      have hbody : (rest.take n).length = n := List.length_take_of_le (Nat.le_of_lt hlong)
      refine ⟨tag, rest.take n, rest[n], rest.drop (n + 1), ?_, hbody, by rwa [hbody]⟩
      rw [wire, hbody, hnumber]
      simp
  | [], h | [_], h | [_, _], h | [_, _, _], h | [_, _, _, _], h =>
      simp [headerLength] at h <;> omega

/-- What is framed begins the bytes as it is laid out. -/
theorem eq_wire_of_frame {limit consumed : Nat} {buffer : Bytes} {m : Message}
    (h : frame limit buffer = .ok (m, consumed)) :
    ∃ body more, buffer = wire m.kind.tag body m.trailer ++ more ∧ body.length ≤ limit ∧
      body.length < 2 ^ 32 ∧ m.items = parseItems body ∧
      consumed = headerLength + body.length + 1 := by
  rcases frame_cases limit buffer with ⟨_, -, hf⟩ | ⟨-, -, hf⟩ | ⟨hlimit, htotal, -⟩
  · cases hf.symm.trans h
  · cases hf.symm.trans h
  · obtain ⟨tag, body, trailer, more, hbuffer, hbody, hlength⟩ := exists_eq_wire htotal
    rw [← hbody] at hlimit
    rw [hbuffer, frame_wire_eq hlimit hlength] at h
    cases hkind : MessageType.ofTag? tag with
    | none =>
        rw [hkind] at h
        cases h
    | some kind =>
        rw [hkind] at h
        cases h
        rw [MessageType.tag_of_ofTag? hkind]
        exact ⟨body, more, hbuffer, hlimit, hlength, rfl, rfl⟩

/-- A message is written as its wire form as long as the length field is exact. -/
theorem encode_eq_wire {m : Message} (h : m.encodeItems.length < 2 ^ 32) :
    m.encode = wire m.kind.tag m.encodeItems 0 := by
  rw [encode, wire, Bytes.ofUInt32, UInt32.toNat_ofNat', Nat.mod_eq_of_lt h]

end Message

end DaqServer
