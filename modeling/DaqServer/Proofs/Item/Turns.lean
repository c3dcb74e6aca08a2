import DaqServer.Message.Executor
import DaqServer.Proofs.Item.Acceptance

/-!
# Items one after another

Items that were read ask for what their payload spells and are yet to be carried out. Who carries
out several has the turn of each on the instrument that the one before it has left. They may come
from several connections; the items of one message have their turns like that as long as none
fails (`executeItems_of_succeeds`).
-/

namespace DaqServer

variable {β δ : Type}

theorem ItemAction.board_of_ok {α : Type} {access : Access β α} {x : Instrument β δ} {a : α}
    {board : β} (h : access x.board = (.ok a, board)) :
    ItemAction.board access x = (.ok a, { x with board := board }) := by
  simp only [ItemAction.board, Instrument.onBoard, h]
  rfl

namespace Item

def IsRead (i : Item) : Prop := Catalogue.construct i.code i.payload = .ok i

variable {i : Item}

theorem exists_of_construct {code : UInt16} {payload : Bytes}
    (h : Catalogue.construct code payload = .ok i) :
    ∃ id request, id.code = code ∧ Catalogue.Asks id payload request ∧
      i = .ofRequest id payload request := by
  have houtcome := Catalogue.outcome_construct code payload
  rw [h] at houtcome
  cases houtcome with
  | @accepted id _ hcode _ _ hitem hasks hstatus =>
      obtain ⟨code', payload', request, status⟩ := i
      obtain ⟨rfl, -, rfl⟩ := hitem
      obtain rfl : status = .pending := hstatus
      obtain rfl : id.code = code' := hcode
      exact ⟨id, request, rfl, hasks, rfl⟩

theorem isRead_of_construct {code : UInt16} {payload : Bytes}
    (h : Catalogue.construct code payload = .ok i) : i.IsRead := by
  obtain ⟨id, request, rfl, -, rfl⟩ := exists_of_construct h
  exact h

theorem IsRead.exists_ofRequest (h : i.IsRead) :
    ∃ id payload request, Catalogue.Asks id payload request ∧
      i = .ofRequest id payload request := by
  obtain ⟨id, request, -, hasks, hi⟩ := exists_of_construct h
  exact ⟨id, i.payload, request, hasks, hi⟩

@[simp] theorem id?_ofRequest (id : ItemId) (payload : Bytes) (request : Request) :
    (ofRequest id payload request).id? = some id := ItemId.ofCode?_code id

theorem execute_of_run {setup : Setup β δ} {connection : ConnectionId} {id : ItemId}
    {payload : Bytes} {request : Request} {result : request.Result} {x x' : Instrument β δ}
    (h : request.run setup connection x = (.ok result, x')) :
    (ofRequest id payload request).execute setup connection x =
      ((.ok (), ⟨id.code, payload, request, .done result⟩), x') := by
  rw [execute]
  dsimp only [ofRequest]
  rw [h]

end Item

namespace Instrument

/-- Carry out items one after another, each for the connection that sent it and whatever became of
those before it. -/
def carryOut (setup : Setup β δ) : List (ConnectionId × Item) → Instrument β δ → Instrument β δ
  | [], x => x
  | (connection, item) :: rest, x => carryOut setup rest (item.execute setup connection x).2

theorem carryOut_append (setup : Setup β δ) (first later : List (ConnectionId × Item))
    (x : Instrument β δ) :
    carryOut setup (first ++ later) x = carryOut setup later (carryOut setup first x) := by
  induction first generalizing x with
  | nil => rfl
  | cons sent rest ih => exact ih _

/-- The items of a message that all succeed are carried out one after another. -/
theorem executeItems_of_succeeds {setup : Setup β δ} {connection : ConnectionId} {items : List Item}
    (h : ∀ item ∈ items, ∀ y, ∃ done z, item.execute setup connection y = ((.ok (), done), z))
    (x : Instrument β δ) :
    (executeItems setup connection items x).2 =
      x.carryOut setup (items.map fun item => (connection, item)) := by
  induction items generalizing x with
  | nil => rfl
  | cons item rest ih =>
      obtain ⟨done, z, hexecute⟩ := h item List.mem_cons_self x
      rw [executeItems, hexecute, List.map_cons, carryOut, hexecute]
      exact ih (fun later hmem => h later (List.mem_cons_of_mem _ hmem)) z

end Instrument

end DaqServer
