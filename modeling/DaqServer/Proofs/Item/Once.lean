import DaqServer.Item.InPlace
import DaqServer.Proofs.Item.Safety
import DaqServer.Proofs.Message.Execution

/-!
# Items are carried out once

An item that is carried out in place assigns to its fields after the last access that may fail: what
it does is done on the instrument alone, and one assignment ends it (`RawKind.fills`). So a failure
leaves the fields as they were, and carrying out in place is carrying out in one piece
(`RawItem.executeInPlace_eq`). Main statement: of all occasions on which an item is carried out,
only the first one counts, and only if the item was pending then.
-/

namespace DaqServer

open Trapping (total check board)

variable {β δ : Type} {α γ : Type}

/-! ### Assigning last -/

namespace Trapping

theorem board_bind (act : Trapping BoardError β α) (f : α → Trapping BoardError β γ) :
    (board (act >>= f) : Trapping ItemError (Instrument β δ) γ) =
      board act >>= fun a => board (f a) := by
  funext x
  simp only [board, bind, ExceptT.bind, ExceptT.mk, StateT.bind, Except.bind]
  rcases act x.board with trap | ⟨e | a, b⟩ <;> rfl

end Trapping

namespace Filling

/-- What becomes of an item and the instrument when a computation yields the fields of the item:
they are replaced if it succeeds, and otherwise they are as before. -/
def settle (kind : RawKind) :
    Except ItemError RawKind × Instrument β δ → Except ItemError Unit × (RawKind × Instrument β δ)
  | (.ok kind', x) => (.ok (), (kind', x))
  | (.error e, x) => (.error e, (kind, x))

/-- An item is filled by what a computation on the instrument alone yields. -/
def Fills (fill : Filling β δ Unit) (kind : RawKind)
    (run : Trapping ItemError (Instrument β δ) RawKind) : Prop :=
  ∀ x, fill (kind, x) = (run x).map (settle kind)

variable {kind : RawKind}

theorem fills_pure (kind : RawKind) : Fills (pure () : Filling β δ Unit) kind (pure kind) :=
  fun _ => rfl

theorem fills_assign (kind' : RawKind) :
    Fills (assign kind' : Filling β δ Unit) kind (pure kind') := fun _ => rfl

/-- As long as nothing is assigned, a failure leaves the item as it was. -/
theorem Fills.use_bind {act : Trapping ItemError (Instrument β δ) α} {fill : α → Filling β δ Unit}
    {run : α → Trapping ItemError (Instrument β δ) RawKind} (h : ∀ a, Fills (fill a) kind (run a)) :
    Fills (use act >>= fill) kind (act >>= run) := by
  intro x
  simp only [use, bind, ExceptT.bind, ExceptT.mk, StateT.bind, Except.bind]
  rcases act x with trap | ⟨e | a, y⟩
  · rfl
  · rfl
  · exact h a y

theorem fills_use (act : Trapping ItemError (Instrument β δ) Unit) :
    Fills (use act) kind (act >>= fun _ => pure kind) := by
  rw [← bind_pure (use act)]
  exact .use_bind fun _ => fills_pure kind

end Filling

open Filling

/-- Every kind of item assigns last. -/
theorem RawKind.fills (setup : Setup β δ) (connection : ConnectionId) (code : UInt16)
    (payload : Bytes) (kind : RawKind) :
    Fills (kind.fill setup connection code payload) kind
      (kind.run setup connection code payload) := by
  cases kind with
  | invalid => exact fills_pure _
  | diagnostic => exact fills_pure _
  | primitive =>
      rw [fill, run]
      cases ItemId.ofCode? code with
      | none => exact fun _ => rfl
      | some id =>
          dsimp only
          cases action setup.port payload id with
          | none => exact fills_pure _
          | some act => exact fills_use (board act)
  | readback | registerRead => exact .use_bind fun _ => fills_assign _
  | clock =>
      rw [fill, run, Port.readClock]
      simp only [Trapping.total_bind, Trapping.board_bind, bind_assoc]
      exact .use_bind fun _ => .use_bind fun _ => fills_assign _
  | reboot => exact fills_use _
  | dacRange | adcRange => exact .use_bind fun _ => fills_use _
  | adcRanges =>
      rw [fill, run, Trapping.board_bind, bind_assoc]
      exact .use_bind fun _ => .use_bind fun _ => fills_assign _
  | calibration =>
      rw [fill, run, Trapping.board_bind, bind_assoc]
      exact .use_bind fun _ => .use_bind fun _ => fills_assign _
  | scanSetup =>
      rw [fill, run, Port.readScanSetup]
      simp only [Trapping.total_bind, Trapping.board_bind, bind_assoc]
      exact .use_bind fun _ => .use_bind fun _ => .use_bind fun _ => .use_bind fun _ =>
        fills_assign _
  | scan => exact .use_bind fun _ => fills_assign _
  | streamStart => exact fills_use _
  | streamStop | streamStatus => exact .use_bind fun _ => fills_assign _
  | dioInput => exact .use_bind fun _ => fills_assign _
  | dioOutput => exact fills_use _
  | connectionId => exact fills_assign _

/-! ### The first occasion -/

namespace RawItem

variable {setup : Setup β δ} {connection : ConnectionId} {item item' : RawItem}
  {x x' : Instrument β δ} {result : Except ItemError Unit}

/-- Carrying out an item where it stands is carrying it out in one piece. -/
theorem executeInPlace_eq (setup : Setup β δ) (connection : ConnectionId) (item : RawItem)
    (x : Instrument β δ) :
    item.executeInPlace setup connection x = item.execute setup connection x := by
  obtain ⟨code, payload, kind, status⟩ := item
  cases status with
  | pending =>
      rw [executeInPlace, execute]
      dsimp only
      rw [RawKind.fills]
      rcases kind.run setup connection code payload x with trap | ⟨e | kind', y⟩ <;> rfl
  | done | failed => rfl

theorem executeInPlace_of_settled (h : item.status ≠ .pending) (setup : Setup β δ)
    (connection : ConnectionId) (x : Instrument β δ) :
    item.executeInPlace setup connection x = .ok ((.ok (), item), x) := by
  rw [executeInPlace]
  split
  · exact absurd ‹_› h
  · rfl

/-- A pending item is done, or it fails with nothing but its status changed. -/
theorem executeInPlace_cases (hpending : item.status = .pending)
    (h : item.executeInPlace setup connection x = .ok ((result, item'), x')) :
    (result = .ok () ∧ ∃ kind, item' = { item with kind := kind, status := .done }) ∨
      ∃ e, result = .error e ∧ item' = { item with status := .failed (.ofError e) } := by
  rw [executeInPlace_eq, execute, hpending] at h
  dsimp only at h
  obtain ⟨⟨e | kind, y⟩, -, hrest⟩ := Catalogue.ok_of_bind h
  · cases hrest
    exact .inr ⟨e, rfl, rfl⟩
  · obtain ⟨_, -, hdone⟩ := Catalogue.ok_of_bind hrest
    cases hdone
    exact .inl ⟨rfl, kind, rfl⟩

theorem settled_of_executeInPlace
    (h : item.executeInPlace setup connection x = .ok ((result, item'), x')) :
    item'.status ≠ .pending := by
  by_cases hpending : item.status = .pending
  · rcases executeInPlace_cases hpending h with ⟨-, kind, rfl⟩ | ⟨e, -, rfl⟩ <;> nofun
  · rw [executeInPlace_of_settled hpending] at h
    cases h
    exact hpending

theorem takeTurns_of_settled (h : item.status ≠ .pending) (turns : List (Turn β δ)) :
    item.takeTurns turns =
      .ok (turns.map fun turn => ((.ok (), item), turn.instrument)) := by
  induction turns with
  | nil => rfl
  | cons turn turns ih =>
      rw [takeTurns, executeInPlace_of_settled h]
      change (item.takeTurns turns >>= fun later => _) = _
      rw [ih]
      rfl

/-- Behind the first occasion an item is settled. -/
theorem takeTurns_cons (item : RawItem) (first : Turn β δ) (later : List (Turn β δ)) :
    item.takeTurns (first :: later) =
      (item.executeInPlace first.setup first.connection first.instrument).map fun outcome =>
        outcome :: later.map fun turn => ((.ok (), outcome.1.2), turn.instrument) := by
  rw [takeTurns]
  rcases hfirst : item.executeInPlace first.setup first.connection first.instrument with
    trap | ⟨⟨result, item'⟩, x'⟩
  · rfl
  · change (item'.takeTurns later >>= fun later => _) = _
    rw [takeTurns_of_settled (settled_of_executeInPlace hfirst)]
    rfl

/-- A request is written as it was received, and so is what has not been done. -/
theorem wirePayload_eq_payload (item : RawItem) {asReply : Bool}
    (h : asReply = false ∨ item.status ≠ .done) : item.wirePayload asReply = .ok item.payload := by
  rw [wirePayload]
  split
  · rename_i hdone
    obtain rfl := h.resolve_right fun hne => hne hdone
    rfl
  · rfl

end RawItem

/-! ### Items as they are built -/

namespace Item

/-- The items there are to carry out: those that were read, what stands for bytes that are no item,
and what the server builds itself. -/
inductive IsBuilt : Item → Prop
  | constructed {code : UInt16} {payload : Bytes} {i : Item}
      (h : Catalogue.construct code payload = .ok i) : IsBuilt i
  | rejected (code : UInt16) (payload : Bytes) (e : ItemError) : IsBuilt (.rejected code payload e)
  | greeting (id : ConnectionId) : IsBuilt (.greeting id)
  | diagnostic (kind : ErrorKind) (message : String) : IsBuilt (.diagnostic kind message)

variable {i : Item}

theorem IsBuilt.backed (h : i.IsBuilt) (hpending : i.status = .pending) (setup : Setup β δ) :
    i.request.Backed setup i.code i.payload := by
  cases h with
  | constructed hconstruct => exact Catalogue.backed_of_construct hconstruct
  | rejected | greeting | diagnostic => cases hpending

theorem settled_execute (setup : Setup β δ) (connection : ConnectionId) (i : Item)
    (x : Instrument β δ) : (i.execute setup connection x).1.2.status ≠ .pending := by
  rcases hexecute : i.execute setup connection x with ⟨⟨e | ⟨⟩, i'⟩, x'⟩
  · obtain ⟨-, e, -, rfl⟩ := fails_of_execute hexecute
    nofun
  · rcases passes_of_execute hexecute with ⟨-, result, -, rfl⟩ | ⟨hsettled, rfl, -⟩
    · nofun
    · exact hsettled

/-- Unguarded items do on every occasion what guarded ones do. -/
theorem takeTurns_raw (turns : List (Turn β δ)) (hfits : ∀ turn ∈ turns, turn.setup.FitsTimeouts)
    (hbacked : i.status = .pending → ∀ setup : Setup β δ,
      i.request.Backed setup i.code i.payload) :
    i.raw.takeTurns turns =
      .ok ((i.takeTurns turns).map fun outcome => ((outcome.1.1, outcome.1.2.raw), outcome.2)) := by
  induction turns generalizing i with
  | nil => rfl
  | cons turn turns ih =>
      have hlater := ih (fun later hmem => hfits later (List.mem_cons_of_mem _ hmem))
        fun hpending => absurd hpending
          (settled_execute turn.setup turn.connection i turn.instrument)
      rw [RawItem.takeTurns, RawItem.executeInPlace_eq,
        execute_raw i (hfits turn List.mem_cons_self) (fun h => hbacked h turn.setup)]
      change (RawItem.takeTurns turns _ >>= fun later => _) = _
      rw [hlater]
      rfl

end Item

/-- An item is carried out at most once and fails cleanly, whatever its fields are. Every occasion
has an instrument, ways to it and a caller of its own.

* A settled item does nothing on any occasion, whatever the ways to the instrument would do.
* A pending item is carried out on the first occasion; all others find it settled.
* Where that succeeds the item is done; where it fails nothing but its status is different, and the
  record has the kind and the text of the error.
* A request is written as it was received, and so is a reply from an item that is not done.

The items there are stop at no trap on the way, and guarded ones do the same. -/
theorem RawItem.carried_out_once (item : RawItem) :
    (item.status ≠ .pending → ∀ turns : List (Turn β δ),
      item.takeTurns turns =
        .ok (turns.map fun turn => ((.ok (), item), turn.instrument))) ∧
    (item.status = .pending → ∀ (first : Turn β δ) (later : List (Turn β δ)),
      item.takeTurns (first :: later) =
          (item.executeInPlace first.setup first.connection first.instrument).map (fun outcome =>
            outcome :: later.map fun turn => ((.ok (), outcome.1.2), turn.instrument)) ∧
        ∀ result item' x',
          item.executeInPlace first.setup first.connection first.instrument =
            .ok ((result, item'), x') →
          (result = .ok () ∧ ∃ kind, item' = { item with kind := kind, status := .done }) ∨
            ∃ e, result = .error e ∧
              item' = { item with status := .failed ⟨e.kind, e.message⟩ }) ∧
    (∀ asReply, asReply = false ∨ item.status ≠ .done →
      item.wirePayload asReply = .ok item.payload) ∧
    (∀ i : Item, i.IsBuilt → i.raw = item → ∀ turns : List (Turn β δ),
      (∀ turn ∈ turns, turn.setup.FitsTimeouts) →
      item.takeTurns turns = .ok ((i.takeTurns turns).map fun outcome =>
        ((outcome.1.1, outcome.1.2.raw), outcome.2))) := by
  refine ⟨takeTurns_of_settled, fun hpending first later => ⟨item.takeTurns_cons first later, ?_⟩,
    fun asReply => item.wirePayload_eq_payload, ?_⟩
  · intro result item' x' h
    exact executeInPlace_cases hpending h
  · rintro i hbuilt rfl turns hfits
    exact Item.takeTurns_raw turns hfits hbuilt.backed

end DaqServer
