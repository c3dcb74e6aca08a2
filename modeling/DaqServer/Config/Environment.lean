import DaqServer.Config.Toml.Scalar
import DaqServer.Text.Utf8

/-!
# Settings from environment variables

The name of a variable gives a path of keys and its text a value. Texts that look like truth values,
numbers, lists or tables are read as such, and all others are taken as they are.
-/

namespace DaqServer.Environment

open Reader

/-! ## Values -/

/-- Blank characters of the ASCII range, without the vertical tab. -/
def isSpace (c : Char) : Bool := c ∈ [' ', '\t', '\n', '\x0c', '\r']

/-- Blank characters of any script. -/
def isBlank (c : Char) : Bool :=
  ('\t' ≤ c && c ≤ '\r') || ('\u2000' ≤ c && c ≤ '\u200a')
    || c ∈ [' ', '\u0085', '\u00a0', '\u1680', '\u2028', '\u2029', '\u202f', '\u205f', '\u3000']

def trim (cs : List Char) : List Char :=
  ((cs.dropWhile isBlank).reverse.dropWhile isBlank).reverse

def skipSpace : Reader Unit := do
  let _ ← run isSpace

def isPlain (c : Char) : Bool := !(c ∈ [',', '\x7b', '\x7d', '[', ']'])

/-- A number with a decimal point, with digits on at least one side of it. -/
def pointed : Reader Unit := do
  let _ ← Toml.sign
  let whole ← run Char.isDigit
  char '.'
  let part ← run Char.isDigit
  if whole.isEmpty ∧ part.isEmpty then failure
  let power : Reader Unit := do
    let _ ← satisfy fun c => c == 'e' || c == 'E'
    let _ ← Toml.sign
    let _ ← run1 Char.isDigit
  let _ ← optional power

/-- An integer that fits a 64-bit word, with or without a sign. -/
def wordInteger : Reader ConfigValue := do
  let minus ← Toml.sign
  let n := Toml.number 10 (← run1 Char.isDigit)
  if minus then
    if n ≤ 0x8000000000000000 then pure (.integer (-n)) else failure
  else if n < 0x10000000000000000 then pure (.integer n) else failure

def plainValue (s : String) : ConfigValue :=
  if (readAll? pointed s).isSome then .fraction
  else (readAll? wordInteger s).getD (.text s)

/-- A text in double quotes. If it has escapes, what stands before the first one is cut to as many
bytes as it has characters. -/
def quoted : Reader String := do
  char '"'
  let before ← run Toml.isBasicChar
  let after ← many (Toml.escape <|> satisfy Toml.isBasicChar)
  char '"'
  let kept := if after.isEmpty then before else Utf8.fitChars before.length before
  return String.ofList (kept ++ after)

def entryKey : Reader String := do
  skipSpace
  let key ← quoted <|> String.ofList <$> run1 Toml.isBareChar
  skipSpace
  return key

/-- Members between brackets; the last one may be followed by a comma. -/
def members {α : Type} (opening closing : Char) (member : Reader α) : Reader (List α) := do
  char opening
  let further : Reader α := do
    char ','
    if (← peek) = some closing then failure else member
  let listed : Reader (List α) := do
    let a ← member
    let more ← many further
    let _ ← optional (char ',')
    char closing
    return a :: more
  (do char closing; pure []) <|> listed

/-- A value in which others are nested at most so deep. -/
def value : (depth : Nat) → Reader ConfigValue
  | 0 => failure
  | depth + 1 => do
      skipSpace
      let v ← word? "true" (.bool true) <|> word? "false" (.bool false) <|> other depth
      skipSpace
      return v
where
  word? (w : String) (v : ConfigValue) : Reader ConfigValue := do
    word w
    return v
  other (depth : Nat) : Reader ConfigValue := do
    match ← peek with
    | some '\x7b' => do
        let entry : Reader (String × ConfigValue) := do
          let key ← entryKey
          char '='
          return (key, ← value depth)
        let entries ← members '\x7b' '\x7d' entry
        return .table (entries.foldl (fun t e => setKey e.1 e.2 t) [])
    | some '[' => .list <$> members '[' ']' (value depth)
    | some '"' => .text <$> quoted
    | some '\'' => do
        char '\''
        let c ← satisfy fun _ => true
        char '\''
        return .text (String.ofList [c])
    | _ => do
        let cs ← run isPlain
        return plainValue (String.ofList (trim cs))

/-- The value of a text, which is the text itself if it is not well formed. -/
def valueOf (s : String) : ConfigValue :=
  (readAll? (value (s.length + 1)) s).getD (.text s)

/-! ## Names -/

def nameStart : String := "AIOD_"

/-- The variable that alone sets the log level. -/
def levelName : String := "AIOD_LOG_LEVEL"

def trimText (s : String) : String := String.ofList (trim s.toList)

/-- The path of keys that the name of a variable gives; two underscores or a point separate keys.
Blanks around the name and around what follows its beginning do not count. A name with an empty key
says nothing. -/
def path? (name : String) : Option (List String) :=
  let trimmed := trimText name
  if (trimmed.take nameStart.length).toString.toUpper = nameStart then
    let named := trimText (trimmed.drop nameStart.length).toString
    let keys := ((named.splitOn "__").flatMap (·.splitOn ".")).map fun key => key.toLower
    if keys.all (· ≠ "") then some keys else none
  else none

/-- The table of all variables that are settings; where two disagree the later one holds. -/
def table (env : List (String × String)) : ConfigTable :=
  env.foldl (fun t (name, text) =>
    match path? name with
    | none => t
    | some path => t.merge (.atPath path (valueOf text))) []

/-- The log level set by its own variable. -/
def levelTable (env : List (String × String)) : ConfigTable :=
  env.foldl (fun t (name, text) =>
    if (trimText name).toUpper = levelName then
      t.merge (.atPath ["logging", "level"] (valueOf text))
    else t) []

end DaqServer.Environment
