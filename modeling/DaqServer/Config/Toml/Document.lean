import DaqServer.Config.Toml.Scalar
import DaqServer.Config.Toml.Tables
import DaqServer.Config.Wrapped

/-!
# TOML documents

A document is a sequence of lines. A line holds a key with its value, or a header that tells into
which table the following keys go, or nothing. `Toml.read?` gives the table of a document.
-/

namespace DaqServer.Toml

open Reader

/-- A list between brackets; its members may stand on several lines and end in a comma. -/
def listOf (member : Reader ConfigValue) : Reader ConfigValue := do
  char '['
  let spaced : Reader ConfigValue := do
    spacing
    let v ← member
    spacing
    pure v
  let members : Reader (List ConfigValue) := do
    let vs ← sepBy1 spaced (char ',')
    let _ ← optional (char ',')
    pure vs
  let vs ← members <|> pure []
  spacing
  char ']'
  return .list vs

def pair (value : Reader ConfigValue) : Reader (List String × ConfigValue) := do
  let path ← key
  char '='
  blanks
  let v ← value
  blanks
  return (path, v)

def inlineTable (value : Reader ConfigValue) : Reader ConfigValue := do
  char '\x7b'
  let pairs ← sepBy1 (pair value) (char ',') <|> pure []
  blanks
  char '\x7d'
  match pairs.foldlM (fun t (path, v) => Node.putPair path v t) (Node.fresh false false) with
  | some t => pure t.toValue
  | none => failure

/-- A value in which others are nested at most so deep. -/
def value : (depth : Nat) → Reader ConfigValue
  | 0 => scalar
  | depth + 1 => scalar <|> listOf (value depth) <|> inlineTable (value depth)

inductive Line
  | empty
  | pair (path : List String) (v : ConfigValue)
  | header (path : List String)
  | elementHeader (path : List String)

def header (opening closing : String) : Reader (List String) := do
  word opening
  let path ← key
  word closing
  return path

def line : Reader Line := do
  blanks
  let said ← Line.elementHeader <$> header "[[" "]]"
    <|> Line.header <$> header "[" "]"
    <|> (fun p => Line.pair p.1 p.2) <$> pair (value (nestingLimit - 1))
    <|> pure .empty
  blanks
  let _ ← optional comment
  return said

/-- The document so far and the path of the table that is open. -/
structure Draft where
  document : Node
  opened : List String

def Draft.add (d : Draft) : Line → Option Draft
  | .empty => some d
  | .pair path v => do
      let document ← d.document.within false (Node.putPair path v) d.opened
      return { d with document := document }
  | .header path => do return ⟨← d.document.openTable path, path⟩
  | .elementHeader path => do return ⟨← d.document.openElement path, path⟩

def lines : Reader (List Line) := do
  let _ ← optional (char '\ufeff')
  sepBy1 line newline

/-- The table of a document, without wrappers; nothing if the document is malformed. -/
def read? (s : String) : Option ConfigTable := do
  let said ← readAll? lines s
  let draft ← said.foldlM Draft.add ⟨.fresh false false, []⟩
  match draft.document.toValue with
  | .table entries => ConfigTable.unwrap? entries
  | _ => none

end DaqServer.Toml
