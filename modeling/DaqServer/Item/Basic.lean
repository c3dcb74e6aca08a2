import DaqServer.Item.Id
import DaqServer.Item.Request
import DaqServer.Text.Utf8

/-!
# Items

An item is one operation of a message: its code and payload as received, what it asks for, and how
far it has come. Items that could not be read are kept in place as failed ones.
-/

namespace DaqServer

/-- How far a request has come. -/
inductive Status (request : Request)
  | pending
  | done (result : request.Result)
  | failed (fault : ItemFault)

/-- One operation of a message. -/
structure Item where
  code : UInt16
  /-- The payload as received. -/
  payload : Bytes
  request : Request
  status : Status request

def diagnosticLimit : Nat := 1023

namespace Item

def id? (i : Item) : Option ItemId := ItemId.ofCode? i.code

def ofRequest (id : ItemId) (payload : Bytes) (request : Request) : Item :=
  ⟨id.code, payload, request, .pending⟩

/-- What stands for bytes that are no item. -/
def rejected (code : UInt16) (payload : Bytes) (error : ItemError) : Item :=
  ⟨code, payload, .invalid, .failed (.ofError error)⟩

def greeting (id : ConnectionId) : Item :=
  ⟨ItemId.connectionId.code, [], .connectionId, .done id⟩

/-- An item that reports an error; the text is cut to what a diagnostic carries. -/
def diagnostic (kind : ErrorKind) (message : String) : Item :=
  ⟨ItemId.diagnostic.code, [], .diagnostic (some kind) (Utf8.fit diagnosticLimit message),
    .done ()⟩

def fault? (i : Item) : Option ItemFault :=
  match i.status with
  | .failed fault => some fault
  | _ => none

def isFailed (i : Item) : Bool := i.fault?.isSome

end Item

end DaqServer
