import DaqServer.Bytes

/-!
# Hexadecimal text

Lower-case hexadecimal digits: of a number with at least a given count of digits, and of a byte
string with two digits a byte.
-/

namespace DaqServer.Text

/-- The lower-case hexadecimal digits of a number, padded with zeros to `width` digits. -/
def hexDigits (width n : Nat) : String :=
  let digits := Nat.toDigits 16 n
  String.ofList (List.replicate (width - digits.length) '0' ++ digits)

def hex (width n : Nat) : String := "0x" ++ hexDigits width n

/-- The digits of every byte of a string, separated by `between`. -/
def hexBytes (between : String) (bs : Bytes) : String :=
  between.intercalate (bs.map fun b => hexDigits 2 b.toNat)

def bracketed (items : List String) : String := "[" ++ ", ".intercalate items ++ "]"

end DaqServer.Text
