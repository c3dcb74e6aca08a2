import DaqServer.Adc.Error

/-!
# Item errors

The causes for which an item is refused or fails, and the record of the cause that is kept with the
item.
-/

namespace DaqServer

inductive FieldFault
  /-- An index reaches its limit. -/
  | outOfRange (field : String) (value : UInt8) (limit : Nat)
  /-- The last channel lies before the first. -/
  | reversedChannels (first last : UInt8)
  /-- A level is neither low nor high. -/
  | badLevel (level : UInt8)
  /-- Any other reason. -/
  | other (text : String)
  deriving DecidableEq, Repr

def FieldFault.message : FieldFault → String
  | .outOfRange field value limit => field ++ s!" {value} out of range (0..{limit})"
  | .reversedChannels first last => s!"end channel {last} precedes start channel {first}"
  | .badLevel level => s!"level {level} is not 0 or 1"
  | .other text => text

inductive ItemError
  /-- No kind of item has this code. -/
  | unknownId (code : UInt16)
  /-- The payload is shorter or longer than the item allows. -/
  | lengthMismatch (code : UInt16) (length least most : Nat)
  /-- The item runs past the end of its message. -/
  | truncated (offset : Nat)
  /-- A field of the payload has a value that it may not have. -/
  | invalidField (code : UInt16) (reason : FieldFault)
  /-- A scan or a streaming request failed. -/
  | acquisition (error : AcquisitionError)
  /-- The board refused an access. -/
  | board (error : BoardError)
  deriving DecidableEq, Repr

namespace ItemError

def message : ItemError → String
  | unknownId code => "Unknown item id " ++ Text.hex 4 code.toNat
  | lengthMismatch code length least most =>
      "Length mismatch for item " ++ Text.hex 4 code.toNat ++
        s!": {length} bytes, expected {least}..={most}"
  | truncated offset => s!"Truncated item at payload offset {offset}"
  | invalidField code reason =>
      "Invalid field in item " ++ Text.hex 4 code.toNat ++ ": " ++ reason.message
  | acquisition e => e.message
  | board e => e.message

def kind : ItemError → ErrorKind
  | unknownId _ | truncated _ => .framing
  | lengthMismatch .. | invalidField .. => .semantic
  | acquisition e => e.kind
  | board e => e.kind

end ItemError

/-- What is kept of the error of a failed item. -/
structure ItemFault where
  kind : ErrorKind
  message : String
  deriving DecidableEq, Repr

namespace ItemFault

def ofError (e : ItemError) : ItemFault := ⟨e.kind, e.message⟩

def text (f : ItemFault) : String := f.kind.label ++ " error: " ++ f.message

end ItemFault

end DaqServer
