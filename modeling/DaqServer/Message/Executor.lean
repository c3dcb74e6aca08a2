import DaqServer.Item.Execute
import DaqServer.Message.Basic

/-!
# Executing messages

The items of a request are carried out in order up to the first that fails. The reply repeats all of
them and adds a diagnostic for every failed one.
-/

namespace DaqServer

variable {β δ : Type}

/-- Carry out items in order; those after one that fails are left as they are. -/
def executeItems (setup : Setup β δ) (connection : ConnectionId) :
    List Item → Instrument β δ → List Item × Instrument β δ
  | [], x => ([], x)
  | item :: rest, x =>
      match item.execute setup connection x with
      | ((.ok (), item), x) =>
          let (rest, x) := executeItems setup connection rest x
          (item :: rest, x)
      | ((.error _, item), x) => (item :: rest, x)

def diagnosticsOf (items : List Item) : List Item :=
  items.filterMap fun i => i.fault?.map fun fault => .diagnostic fault.kind (i.describe false)

namespace Message

def unexpected (kind : MessageType) : Message :=
  .error .semantic ("unexpected message type '" ++ kind.letter.toString ++ "'")

/-- Execute a request of a connection and build the reply. -/
def execute (setup : Setup β δ) (connection : ConnectionId) (m : Message) (x : Instrument β δ) :
    Message × Instrument β δ :=
  match m.kind with
  | .query | .config =>
      let (items, x) := executeItems setup connection m.items x
      let reply := { m with items := items }.toReply
      ({ reply with items := items ++ diagnosticsOf items }, x)
  | kind => (unexpected kind, x)

end Message

end DaqServer
