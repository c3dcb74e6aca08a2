import DaqServer.Config.Value
import DaqServer.Number.Range
import DaqServer.Text.Reader

/-!
# Plain TOML values

Blanks, keys and the values that hold no other values: strings in their four notations, integers in
four bases, fractions, truth values, dates and times.
-/

namespace DaqServer.Toml

open Reader

/-! ## Blanks -/

def isBlank (c : Char) : Bool := c == ' ' || c == '\t'

def isCommentChar (c : Char) : Bool := c == '\t' || (' ' ≤ c && c != '\x7f')

def blanks : Reader Unit := do
  let _ ← run isBlank

def newline : Reader Unit := char '\n' <|> word "\r\n"

def comment : Reader Unit := do
  char '#'
  let _ ← run isCommentChar

/-- Blanks, line ends and comments, as they may stand between the members of a list. -/
def spacing : Reader Unit := do
  let blank : Reader Unit := do let _ ← satisfy isBlank
  let line : Reader Unit := do
    let _ ← optional comment
    newline
  let _ ← many (blank <|> line)

/-! ## Strings -/

def isHexDigit (c : Char) : Bool :=
  c.isDigit || ('a' ≤ c && c ≤ 'f') || ('A' ≤ c && c ≤ 'F')

def digitValue (c : Char) : Nat :=
  if c.isDigit then c.toNat - '0'.toNat else c.toLower.toNat - 'a'.toNat + 10

def number (base : Nat) (digits : List Char) : Nat :=
  digits.foldl (fun n c => n * base + digitValue c) 0

def codePoint (digits : Nat) : Reader Char := do
  let n := number 16 (← exactly digits isHexDigit)
  if n.isValidChar then pure (Char.ofNat n) else failure

/-- What follows a backslash. -/
def escaped : Reader Char := do
  match ← satisfy fun _ => true with
  | 'b' => pure '\x08'
  | 't' => pure '\t'
  | 'n' => pure '\n'
  | 'f' => pure '\x0c'
  | 'r' => pure '\r'
  | '"' => pure '"'
  | '\\' => pure '\\'
  | 'u' => codePoint 4
  | 'U' => codePoint 8
  | _ => failure

def isBasicChar (c : Char) : Bool := isCommentChar c && c != '"' && c != '\\'

def isLiteralChar (c : Char) : Bool := isCommentChar c && c != '\''

def escape : Reader Char := do
  char '\\'
  escaped

def basicString : Reader String := do
  char '"'
  let cs ← many (satisfy isBasicChar <|> escape)
  char '"'
  return String.ofList cs

def literalString : Reader String := do
  char '\''
  let cs ← run isLiteralChar
  char '\''
  return String.ofList cs

/-- One or two quotes that do not end a text of several lines. -/
def innerQuotes (quote : Char) : Reader (List Char) := do
  let cs ← run1 (· == quote)
  if cs.length < 3 then pure cs else failure

/-- The three quotes that end a text of several lines, and up to two before them that belong to the
text. -/
def closingQuotes (quote : Char) : Reader (List Char) := do
  chars [quote, quote, quote]
  let more (n : Nat) : Reader (List Char) := do
    chars (List.replicate n quote)
    pure (List.replicate n quote)
  more 2 <|> more 1 <|> pure []

/-- A text of several lines in three quotes; a line end right after the opening is dropped. -/
def multiline (quote : Char) (piece : Reader (List Char)) : Reader String := do
  chars [quote, quote, quote]
  let _ ← optional newline
  let lineEnd : Reader (List Char) := do
    newline
    pure ['\n']
  let pieces ← many (piece <|> lineEnd <|> innerQuotes quote)
  let last ← closingQuotes quote
  return String.ofList (pieces.flatten ++ last)

/-- A backslash at the end of a line drops the blanks and line ends that follow. -/
def continuation : Reader (List Char) := do
  char '\\'
  blanks
  newline
  let _ ← many ((do let _ ← satisfy isBlank) <|> newline)
  return []

def multilineBasic : Reader String :=
  multiline '"' ((do pure [← satisfy isBasicChar]) <|> continuation <|> (do pure [← escape]))

def multilineLiteral : Reader String := multiline '\'' (do pure [← satisfy isLiteralChar])

def string : Reader String :=
  multilineBasic <|> multilineLiteral <|> basicString <|> literalString

/-! ## Keys -/

def isBareChar (c : Char) : Bool := c.isAlphanum || c == '-' || c == '_'

def simpleKey : Reader String :=
  basicString <|> literalString <|> String.ofList <$> run1 isBareChar

/-- Containers and keys may be nested one less than this deep. -/
def nestingLimit : Nat := 80

/-- A key, or several joined by points. -/
def key : Reader (List String) := do
  let part : Reader String := do
    blanks
    let k ← simpleKey
    blanks
    pure k
  let path ← sepBy1 part (char '.')
  if path.length < nestingLimit then pure path else failure

/-! ## Numbers -/

/-- Digits; a single underscore may stand between two of them. -/
def digits (p : Char → Bool) : Reader (List Char) := do
  let d ← satisfy p
  let ds ← many (satisfy p <|> (do char '_'; satisfy p))
  return d :: ds

def sign : Reader Bool := (do char '-'; pure true) <|> (do char '+'; pure false) <|> pure false

/-- Decimal digits that do not begin with a zero, or a zero alone. -/
def wholeDigits : Reader (List Char) := do
  match ← peek with
  | some '0' => do
      char '0'
      pure ['0']
  | _ => digits Char.isDigit

def wordInteger (n : Int) : Reader ConfigValue :=
  if -0x8000000000000000 ≤ n ∧ n < 0x8000000000000000 then pure (.integer n) else failure

def decimalInteger : Reader ConfigValue := do
  let minus ← sign
  let n := number 10 (← wholeDigits)
  wordInteger (if minus then -n else n)

def basedInteger (mark : String) (base : Nat) (p : Char → Bool) : Reader ConfigValue := do
  word mark
  wordInteger (number base (← digits p))

def integer : Reader ConfigValue :=
  basedInteger "0x" 16 isHexDigit
    <|> basedInteger "0o" 8 (fun c => '0' ≤ c && c ≤ '7')
    <|> basedInteger "0b" 2 (fun c => c == '0' || c == '1')
    <|> decimalInteger

/-- A power of ten after its mark. -/
def exponent : Reader Int := do
  let _ ← satisfy fun c => c == 'e' || c == 'E'
  let minus ← sign
  let n := number 10 (← digits Char.isDigit)
  return if minus then -n else n

/-- Digits with a power of ten, or with a point and maybe a power of ten. -/
def decimal : Reader Number.Decimal := do
  let whole ← wholeDigits
  let scaled : Reader Number.Decimal := do
    let power ← exponent
    return ⟨number 10 whole, power⟩
  let pointed : Reader Number.Decimal := do
    char '.'
    let part ← digits Char.isDigit
    let power ← exponent <|> pure 0
    return ⟨number 10 (whole ++ part), power - part.length⟩
  scaled <|> pointed

/-- A number that need not be whole, or a word for one that is not finite. Fractions are kept in 64
bits: a positive one that is too large for them is refused, a negative one counts as infinite. -/
def fraction : Reader ConfigValue := do
  let minus ← sign
  let written : Reader Unit := do
    let d ← decimal
    if !minus && d.exceeds Number.binary64 then failure
  written <|> word "inf" <|> word "nan"
  return .fraction

/-! ## Dates and times -/

def fixedNumber (digits low high : Nat) : Reader Nat := do
  let n := number 10 (← exactly digits Char.isDigit)
  if low ≤ n ∧ n ≤ high then pure n else failure

def isLeapYear (year : Nat) : Bool := year % 4 = 0 && (year % 100 ≠ 0 || year % 400 = 0)

def daysOfMonth (year month : Nat) : Nat :=
  if month = 2 then (if isLeapYear year then 29 else 28)
  else if month ∈ [4, 6, 9, 11] then 30
  else 31

def day : Reader Unit := do
  let year ← fixedNumber 4 0 9999
  char '-'
  let month ← fixedNumber 2 1 12
  char '-'
  let _ ← fixedNumber 2 1 (daysOfMonth year month)

def hourAndMinute : Reader Unit := do
  let _ ← fixedNumber 2 0 23
  char ':'
  let _ ← fixedNumber 2 0 59

def timeOfDay : Reader Unit := do
  hourAndMinute
  char ':'
  let _ ← fixedNumber 2 0 60
  let _ ← optional (do char '.'; run1 Char.isDigit)

def timeZone : Reader Unit := do
  match ← satisfy fun _ => true with
  | 'Z' | 'z' => pure ()
  | '+' | '-' => hourAndMinute
  | _ => failure

def date : Reader ConfigValue := do
  let timeAfterDay : Reader Unit := do
    let _ ← satisfy fun c => c == 'T' || c == 't' || c == ' '
    timeOfDay
    let _ ← optional timeZone
  let dayAndTime : Reader Unit := do
    day
    let _ ← optional timeAfterDay
  dayAndTime <|> timeOfDay
  return .date

/-! ## Any plain value -/

def truth : Reader ConfigValue :=
  (do word "true"; pure (.bool true)) <|> (do word "false"; pure (.bool false))

def scalar : Reader ConfigValue :=
  .text <$> string <|> truth <|> date <|> fraction <|> integer

end DaqServer.Toml
