import DaqServer.Text.Digits
import DaqServer.Text.Reader

/-!
# Network addresses

Addresses of the two families as text. Four octets are written with points between them. Eight
groups are written with colons; the first longest run of at least two zero groups is left out, and
the last two groups are written as octets when the others say that they are an address of the other
family.
-/

namespace DaqServer

inductive IpAddress
  | v4 (octets : Vector UInt8 4)
  | v6 (groups : Vector UInt16 8)
  deriving DecidableEq, Repr

namespace IpAddress

def any : IpAddress := .v4 (Vector.replicate 4 0)

/-! ## Writing -/

def octetsText (octets : List UInt8) : String := ".".intercalate (octets.map toString)

def groupText (group : UInt16) : String := Text.hexDigits 1 group.toNat

def groupsText (groups : List UInt16) : String := ":".intercalate (groups.map groupText)

def zeroRun (groups : List UInt16) : Nat := (groups.takeWhile (· == 0)).length

/-- Where the first longest run of zero groups begins, and its length. -/
def longestZeros (groups : List UInt16) : Nat × Nat :=
  (List.range groups.length).foldl (fun best i =>
    let length := zeroRun (groups.drop i)
    if best.2 < length then (i, length) else best) (0, 0)

def octetsOf (high low : UInt16) : List UInt8 :=
  [(high >>> 8).toUInt8, high.toUInt8, (low >>> 8).toUInt8, low.toUInt8]

def v6Text : List UInt16 → String
  | [0, 0, 0, 0, 0, 0xFFFF, high, low] => "::ffff:" ++ octetsText (octetsOf high low)
  | groups =>
      let (start, length) := longestZeros groups
      if 1 < length then
        groupsText (groups.take start) ++ "::" ++ groupsText (groups.drop (start + length))
      else groupsText groups

def text : IpAddress → String
  | v4 octets => octetsText octets.toList
  | v6 groups => v6Text groups.toList

/-! ## Reading -/

open Reader

def digitValue? (base : Nat) (c : Char) : Option Nat :=
  let value :=
    if c.isDigit then c.toNat - '0'.toNat
    else if 'a' ≤ c.toLower ∧ c.toLower ≤ 'f' then c.toLower.toNat - 'a'.toNat + 10
    else base
  if value < base then some value else none

/-- A number with at least one and at most `most` digits, and no further digit after it. -/
def numberOf (base most : Nat) : Reader (Nat × List Char) := do
  let digits ← run1 fun c => (digitValue? base c).isSome
  if most < digits.length then failure
  else pure (digits.foldl (fun n c => n * base + (digitValue? base c).getD 0) 0, digits)

def octet : Reader UInt8 := do
  let (n, digits) ← numberOf 10 3
  if 255 < n ∨ (1 < digits.length ∧ digits.head? = some '0') then failure
  else pure (UInt8.ofNat n)

def octets : Reader (Vector UInt8 4) := do
  let a ← octet
  char '.'
  let b ← octet
  char '.'
  let c ← octet
  char '.'
  let d ← octet
  return #v[a, b, c, d]

def group : Reader (List UInt16) := do
  let (n, _) ← numberOf 16 4
  return [UInt16.ofNat n]

def octetGroups : Reader (List UInt16) := do
  let o ← octets
  return [(o[0].toUInt16 <<< 8) ||| o[1].toUInt16, (o[2].toUInt16 <<< 8) ||| o[3].toUInt16]

/-- Groups with colons between them, at most `room` of them; octets take the room of two and end the
groups. Tells whether octets ended them. -/
def groups : (room : Nat) → (first : Bool) → Reader (List UInt16 × Bool)
  | 0, _ => pure ([], false)
  | room + 1, first => do
      let separator : Reader Unit := if first then pure () else char ':'
      let ending : Reader (List UInt16 × Bool) := do
        if room = 0 then failure
        separator
        return (← octetGroups, true)
      let more : Reader (List UInt16 × Bool) := do
        separator
        let g ← group
        let (rest, ended) ← groups room false
        return (g ++ rest, ended)
      ending <|> more <|> pure ([], false)

def groupAddress : Reader (Vector UInt16 8) := do
  let (head, ended) ← groups 8 true
  if h : head.length = 8 then return ⟨head.toArray, by simp [h]⟩
  if ended then failure
  chars [':', ':']
  let (tail, _) ← groups (7 - head.length) true
  let all := head ++ List.replicate (8 - head.length - tail.length) 0 ++ tail
  if h : all.length = 8 then return ⟨all.toArray, by simp [h]⟩
  failure

def ofText? (s : String) : Option IpAddress :=
  (readAll? (.v4 <$> octets) s).or (readAll? (.v6 <$> groupAddress) s)

end IpAddress

structure SocketAddress where
  host : IpAddress
  number : UInt16
  /-- The network interface that an address in groups belongs to; zero leaves it open. -/
  zone : UInt32 := 0
  deriving DecidableEq, Repr

namespace SocketAddress

open Reader

/-- The text of an address with its number; groups are put between brackets, with the zone. -/
def text (a : SocketAddress) : String :=
  match a.host with
  | .v4 _ => a.host.text ++ ":" ++ toString a.number
  | .v6 _ =>
      let zone := if a.zone = 0 then "" else "%" ++ toString a.zone
      "[" ++ a.host.text ++ zone ++ "]:" ++ toString a.number

def numberBelow (bound : Nat) : Reader Nat := do
  let digits ← run1 Char.isDigit
  let n := digits.foldl (fun n c => n * 10 + (c.toNat - '0'.toNat)) 0
  if n < bound then return n
  failure

def zoned : Reader UInt32 := do
  char '%'
  return UInt32.ofNat (← numberBelow 0x100000000)

def ofText? (s : String) : Option SocketAddress :=
  let host : Reader (IpAddress × UInt32) := (do return (.v4 (← IpAddress.octets), 0)) <|> (do
    char '['
    let groups ← IpAddress.groupAddress
    let zone ← zoned <|> pure 0
    char ']'
    return (.v6 groups, zone))
  let whole : Reader SocketAddress := do
    let (h, zone) ← host
    char ':'
    let n ← numberBelow 0x10000
    return { host := h, number := UInt16.ofNat n, zone := zone }
  readAll? whole s

end SocketAddress

end DaqServer
