import DaqServer.Bytes

/-!
# Connections

Control and streaming connections are numbered by one allocator. A streaming client is greeted with
the number of its connection and the highest bit set.
-/

namespace DaqServer

/-- The number of an accepted connection. -/
structure ConnectionId where
  value : UInt32
  deriving DecidableEq, Repr, Inhabited

namespace ConnectionId

def text (id : ConnectionId) : String := s!"conn-{id.value}"

def hello (id : ConnectionId) : UInt32 := id.value ||| 0x80000000

/-- The connection that a word names, be it a greeting or a plain number. -/
def ofWire (word : UInt32) : ConnectionId := ⟨word &&& 0x7FFFFFFF⟩

def helloBytes (id : ConnectionId) : Bytes := Bytes.ofUInt32 id.hello

end ConnectionId

/-- Hands out connection numbers; all its copies share one counter. -/
structure ConnectionIds where
  next : UInt32
  deriving DecidableEq, Repr

namespace ConnectionIds

def fresh : ConnectionIds := ⟨1⟩

/-- Hand out the next number. The counter runs through all words and the highest bit is dropped. -/
def allocate (ids : ConnectionIds) : ConnectionId × ConnectionIds :=
  (⟨ids.next &&& 0x7FFFFFFF⟩, ⟨ids.next + 1⟩)

def take : (count : Nat) → ConnectionIds → List ConnectionId
  | 0, _ => []
  | count + 1, ids => ids.allocate.1 :: take count ids.allocate.2

@[simp] theorem take_zero (ids : ConnectionIds) : ids.take 0 = [] := rfl

theorem take_succ (count : Nat) (ids : ConnectionIds) :
    ids.take (count + 1) = ids.allocate.1 :: ids.allocate.2.take count := rfl

end ConnectionIds

end DaqServer
