import DaqServer.Item.Describe
import DaqServer.Item.Payload

/-!
# Messages

A message is a type and a list of items. On the wire it is the letter of its type, the length of the
items as a 32-bit word, the items, and one closing byte that is always written as zero.
-/

namespace DaqServer

inductive MessageType
  /-- A request to read. -/
  | query
  /-- A request to write. -/
  | config
  /-- A reply without failed items. -/
  | response
  /-- A reply with failed items. -/
  | error
  /-- The greeting of a control connection. -/
  | hello
  deriving DecidableEq, Repr

namespace MessageType

def letter : MessageType → Char
  | query => 'Q'
  | config => 'C'
  | response => 'R'
  | error => 'X'
  | hello => 'H'

def tag (t : MessageType) : UInt8 := UInt8.ofNat t.letter.toNat

def ofTag? (tag : UInt8) : Option MessageType :=
  [query, config, response, error, hello].find? fun t => t.tag == tag

@[simp] theorem ofTag?_tag (t : MessageType) : ofTag? t.tag = some t := by
  cases t <;> rfl

def isReply : MessageType → Bool
  | query | config => false
  | response | error | hello => true

end MessageType

structure Message where
  kind : MessageType
  items : List Item
  /-- The closing byte as received. -/
  trailer : UInt8

namespace Message

def hello (id : ConnectionId) : Message := ⟨.hello, [.greeting id], 0⟩

def error (kind : ErrorKind) (text : String) : Message := ⟨.error, [.diagnostic kind text], 0⟩

def hasErrors (m : Message) : Bool := m.items.any Item.isFailed

def toReply (m : Message) : Message :=
  ⟨if m.hasErrors then .error else .response, m.items, 0⟩

def encodeItems (m : Message) : Bytes := m.items.flatMap fun i => i.encode m.kind.isReply

/-- The message as written. The length field holds the low 32 bits of the length. -/
def encode (m : Message) : Bytes :=
  let items := m.encodeItems
  m.kind.tag :: (Bytes.ofUInt32 (UInt32.ofNat items.length) ++ items ++ [0])

def describe (m : Message) : String :=
  m.kind.letter.toString ++ " " ++
    Text.bracketed (m.items.map fun i => i.describe m.kind.isReply)

end Message

end DaqServer
