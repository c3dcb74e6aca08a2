import DaqServer.Bytes

/-!
# UTF-8

Writing text as bytes, reading bytes that need not be valid, and cutting text to a byte limit.

Reading never fails: each longest run of bytes that begins a character but does not complete it is
read as the replacement character U+FFFD, and so is every byte that begins none.
-/

namespace DaqServer.Utf8

def encodeChars (cs : List Char) : Bytes := cs.flatMap String.utf8EncodeChar

def encode (s : String) : Bytes := encodeChars s.toList

@[simp] theorem encodeChars_nil : encodeChars [] = [] := rfl

theorem encodeChars_cons (c : Char) (cs : List Char) :
    encodeChars (c :: cs) = String.utf8EncodeChar c ++ encodeChars cs := rfl

def replacement : Char := Char.ofNat 0xFFFD

/-- What a lead byte of two or more promises: the range of the second byte, how many further bytes
follow it, and the bits the lead byte gives to the character. -/
structure Lead where
  low : UInt8
  high : UInt8
  more : Nat
  bits : Nat

/-- The promise of a byte that begins a character of two or more bytes. The second byte of a
three- or four-byte character is narrowed so that no shorter form, surrogate or value beyond
U+10FFFF can be spelled. -/
def Lead.of? (b : UInt8) : Option Lead :=
  if 0xC2 ≤ b ∧ b ≤ 0xDF then some ⟨0x80, 0xBF, 0, (b &&& 0x1F).toNat⟩
  else if b = 0xE0 then some ⟨0xA0, 0xBF, 1, 0⟩
  else if b = 0xED then some ⟨0x80, 0x9F, 1, 0xD⟩
  else if 0xE1 ≤ b ∧ b ≤ 0xEF then some ⟨0x80, 0xBF, 1, (b &&& 0x0F).toNat⟩
  else if b = 0xF0 then some ⟨0x90, 0xBF, 2, 0⟩
  else if 0xF1 ≤ b ∧ b ≤ 0xF3 then some ⟨0x80, 0xBF, 2, (b &&& 0x07).toNat⟩
  else if b = 0xF4 then some ⟨0x80, 0x8F, 2, 4⟩
  else none

def isTail (b : UInt8) : Bool := 0x80 ≤ b && b ≤ 0xBF

def extend (value : Nat) (b : UInt8) : Nat := value * 64 + (b &&& 0x3F).toNat

/-- Read `more` tail bytes onto a character value. The character is the replacement when one of
them is missing, and the rest begins at the first byte that was not taken. -/
def tails : (more value : Nat) → Bytes → Char × Bytes
  | 0, value, rest => (Char.ofNat value, rest)
  | more + 1, value, b :: rest =>
      if isTail b then tails more (extend value b) rest else (replacement, b :: rest)
  | _ + 1, _, [] => (replacement, [])

def readChar (b : UInt8) (rest : Bytes) : Char × Bytes :=
  if b < 0x80 then (Char.ofNat b.toNat, rest)
  else match Lead.of? b, rest with
    | some lead, second :: rest =>
        if lead.low ≤ second ∧ second ≤ lead.high then
          tails lead.more (extend lead.bits second) rest
        else (replacement, second :: rest)
    | _, rest => (replacement, rest)

theorem length_tails_le (more value : Nat) (bs : Bytes) :
    (tails more value bs).2.length ≤ bs.length := by
  induction more generalizing value bs with
  | zero => simp [tails]
  | succ more ih =>
      cases bs with
      | nil => simp [tails]
      | cons b rest =>
          rw [tails]
          split
          · exact Nat.le_succ_of_le (ih _ rest)
          · simp

theorem length_readChar_le (b : UInt8) (rest : Bytes) :
    (readChar b rest).2.length ≤ rest.length := by
  unfold readChar
  split
  · simp
  · split
    · split
      · exact Nat.le_succ_of_le (length_tails_le _ _ _)
      · simp
    · simp

/-- The characters that a byte string spells, with replacements for what spells none. -/
def decodeChars : Bytes → List Char
  | [] => []
  | b :: rest => (readChar b rest).1 :: decodeChars (readChar b rest).2
termination_by bs => bs.length
decreasing_by
  have := length_readChar_le b rest
  simp only [List.length_cons]
  omega

def decodeLossy (bs : Bytes) : String := String.ofList (decodeChars bs)

/-- The longest run of leading characters that takes at most `limit` bytes. -/
def fitChars : (limit : Nat) → List Char → List Char
  | _, [] => []
  | limit, c :: cs => if c.utf8Size ≤ limit then c :: fitChars (limit - c.utf8Size) cs else []

/-- The longest leading part of a text that takes at most `limit` bytes. -/
def fit (limit : Nat) (s : String) : String := String.ofList (fitChars limit s.toList)

end DaqServer.Utf8
