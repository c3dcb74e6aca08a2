import DaqServer.Board.Simulated
import DaqServer.Board.SimulatedDma
import DaqServer.Message.Executor
import Mathlib.Data.List.Forall2

/-!
# Execution of messages

The items of a request are carried out one after another up to the first whose execution fails. The
instrument is followed item by item: `states i` is the instrument when it is the turn of item `i`.
Main statement: the reply to a request holds the items of the request as far as they were carried
out and one diagnostic for every failed one, and any other message is refused with no effect.
-/

namespace DaqServer

variable {β δ : Type} (setup : Setup β δ) (connection : ConnectionId)

namespace Item

/-- A pending item is carried out: what its request yields is kept with it. -/
def Succeeds (item item' : Item) (x x' : Instrument β δ) : Prop :=
  item.status = .pending ∧ ∃ result,
    item.request.run setup connection x = (.ok result, x') ∧
      item' = { item with status := .done result }

/-- A pending item fails: the record of the error is kept with it. -/
def Fails (item item' : Item) (x x' : Instrument β δ) : Prop :=
  item.status = .pending ∧ ∃ e,
    item.request.run setup connection x = (.error e, x') ∧
      item' = { item with status := .failed (.ofError e) }

def Untouched (item item' : Item) (x x' : Instrument β δ) : Prop := item' = item ∧ x' = x

/-- The turn of an item does not end the execution: it succeeds, or it was settled before. -/
def Passes (item item' : Item) (x x' : Instrument β δ) : Prop :=
  item.Succeeds setup connection item' x x' ∨ item.status ≠ .pending ∧ item.Untouched item' x x'

def header (item : Item) : UInt16 × Bytes × Request := (item.code, item.payload, item.request)

def ReportedBy (item diagnostic : Item) : Prop :=
  ∃ fault, item.fault? = some fault ∧ diagnostic = .diagnostic fault.kind (item.describe false)

variable {setup connection} {item item' : Item} {x x' : Instrument β δ}

theorem passes_of_execute
    (h : item.execute setup connection x = ((.ok (), item'), x')) :
    item.Passes setup connection item' x x' := by
  unfold execute at h
  split at h
  · rename_i hpending
    split at h
    · rename_i result y hrun
      cases h
      exact .inl ⟨hpending, result, hrun, rfl⟩
    · cases h
  · rename_i hsettled
    cases h
    exact .inr ⟨hsettled, rfl, rfl⟩

theorem fails_of_execute {e : ItemError}
    (h : item.execute setup connection x = ((.error e, item'), x')) :
    item.Fails setup connection item' x x' := by
  unfold execute at h
  split at h
  · rename_i hpending
    split at h
    · cases h
    · rename_i cause y hrun
      cases h
      exact ⟨hpending, e, hrun, rfl⟩
  · cases h

theorem Passes.header_eq (h : item.Passes setup connection item' x x') :
    item'.header = item.header := by
  rcases h with ⟨-, result, -, rfl⟩ | ⟨-, rfl, -⟩ <;> rfl

theorem Fails.header_eq (h : item.Fails setup connection item' x x') :
    item'.header = item.header := by
  obtain ⟨-, e, -, rfl⟩ := h
  rfl

end Item

/-- Some items are carried out up to item `k`: those before it pass, it fails if there is such an
item, and those after it stay as they are. -/
structure ExecutesTo (k : Nat) (items items' : List Item) (states : Nat → Instrument β δ) :
    Prop where
  le_length : k ≤ items.length
  length_eq : items'.length = items.length
  before : ∀ {i item item'}, i < k → items[i]? = some item → items'[i]? = some item' →
    item.Passes setup connection item' (states i) (states (i + 1))
  first_failure : ∀ {item item'}, items[k]? = some item → items'[k]? = some item' →
    item.Fails setup connection item' (states k) (states (k + 1))
  after : ∀ {i item item'}, k < i → items[i]? = some item → items'[i]? = some item' →
    item.Untouched item' (states i) (states (i + 1))

namespace ExecutesTo

variable {setup connection} {k : Nat} {items items' : List Item} {item item' : Item}
  {states : Nat → Instrument β δ} {x : Instrument β δ}

/-- The states with one more in front. -/
def consState (x : Instrument β δ) (states : Nat → Instrument β δ) : Nat → Instrument β δ
  | 0 => x
  | i + 1 => states i

theorem nil (states : Nat → Instrument β δ) : ExecutesTo setup connection 0 [] [] states where
  le_length := Nat.le_refl _
  length_eq := rfl
  before h := absurd h (Nat.not_lt_zero _)
  first_failure h := nomatch h
  after _ h := nomatch h

theorem cons_of_passes (hitem : item.Passes setup connection item' x (states 0))
    (h : ExecutesTo setup connection k items items' states) :
    ExecutesTo setup connection (k + 1) (item :: items) (item' :: items') (consState x states) where
  le_length := Nat.succ_le_succ h.le_length
  length_eq := congrArg (· + 1) h.length_eq
  before {i _ _} hi hget hget' := by
    cases i with
    | zero =>
        cases hget
        cases hget'
        exact hitem
    | succ i => exact h.before (Nat.lt_of_succ_lt_succ hi) hget hget'
  first_failure hget hget' := h.first_failure hget hget'
  after {i _ _} hi hget hget' := by
    cases i with
    | zero => exact absurd hi (Nat.not_lt_zero _)
    | succ i => exact h.after (Nat.lt_of_succ_lt_succ hi) hget hget'

theorem cons_of_fails {x' : Instrument β δ} (hitem : item.Fails setup connection item' x x') :
    ExecutesTo setup connection 0 (item :: items) (item' :: items) (consState x fun _ => x') where
  le_length := Nat.zero_le _
  length_eq := rfl
  before h := absurd h (Nat.not_lt_zero _)
  first_failure hget hget' := by
    cases hget
    cases hget'
    exact hitem
  after {i _ _} hi hget hget' := by
    cases i with
    | zero => exact absurd hi (Nat.lt_irrefl _)
    | succ i => exact ⟨Option.some.inj (hget'.symm.trans hget), rfl⟩

end ExecutesTo

theorem executesTo_executeItems (items : List Item) (x : Instrument β δ) :
    ∃ k states, states 0 = x ∧ states items.length = (executeItems setup connection items x).2 ∧
      ExecutesTo setup connection k items (executeItems setup connection items x).1 states := by
  induction items generalizing x with
  | nil => exact ⟨0, fun _ => x, rfl, rfl, .nil _⟩
  | cons item rest ih =>
      rw [executeItems]
      -- A failure ends the recursion; otherwise the rest is carried out from the next instrument.
      rcases hitem : item.execute setup connection x with ⟨⟨_ | ⟨⟩, item'⟩, x'⟩
      · exact ⟨0, _, rfl, rfl, .cons_of_fails (Item.fails_of_execute hitem)⟩
      · obtain ⟨k, states, rfl, hlast, hrest⟩ := ih x'
        exact ⟨k + 1, _, rfl, hlast, .cons_of_passes (Item.passes_of_execute hitem) hrest⟩

/-- What an item is and asks for does not change when it is carried out. -/
theorem map_header_executeItems (items : List Item) (x : Instrument β δ) :
    (executeItems setup connection items x).1.map Item.header = items.map Item.header := by
  induction items generalizing x with
  | nil => rfl
  | cons item rest ih =>
      rw [executeItems]
      rcases hitem : item.execute setup connection x with ⟨⟨_ | ⟨⟩, item'⟩, x'⟩
      · rw [List.map_cons, (Item.fails_of_execute hitem).header_eq, List.map_cons]
      · rw [List.map_cons, (Item.passes_of_execute hitem).header_eq, List.map_cons, ih]

theorem forall₂_executeItems (items : List Item) (x : Instrument β δ) :
    List.Forall₂ (fun item item' => ∃ y y' : Instrument β δ,
      item.Passes setup connection item' y y' ∨ item.Fails setup connection item' y y' ∨
        item.Untouched item' y y') items (executeItems setup connection items x).1 := by
  induction items generalizing x with
  | nil => exact .nil
  | cons item rest ih =>
      rw [executeItems]
      rcases hitem : item.execute setup connection x with ⟨⟨_ | ⟨⟩, item'⟩, x'⟩
      · refine .cons ⟨x, x', .inr (.inl (Item.fails_of_execute hitem))⟩ ?_
        exact List.forall₂_same.mpr fun _ _ => ⟨x', x', .inr (.inr ⟨rfl, rfl⟩)⟩
      · exact .cons ⟨x, x', .inl (Item.passes_of_execute hitem)⟩ (ih x')

theorem forall₂_diagnosticsOf (items : List Item) :
    List.Forall₂ Item.ReportedBy (items.filter Item.isFailed) (diagnosticsOf items) := by
  induction items with
  | nil => exact .nil
  | cons item rest ih =>
      rcases hfault : item.fault? with _ | fault
      · have hsound : item.isFailed = false := by rw [Item.isFailed, hfault]; rfl
        rw [List.filter_cons_of_neg (by rw [hsound]; exact Bool.false_ne_true), diagnosticsOf,
          List.filterMap_cons_none (by rw [hfault]; rfl)]
        exact ih
      · have hfailed : item.isFailed = true := by rw [Item.isFailed, hfault]; rfl
        rw [List.filter_cons_of_pos hfailed, diagnosticsOf,
          List.filterMap_cons_some (by rw [hfault]; rfl)]
        exact .cons ⟨fault, hfault, rfl⟩ ih

namespace Message

/-- What executing a message does. A request is carried out item by item up to the first whose
execution fails; the reply repeats its items, with their outcomes, and adds one diagnostic for every
failed item. It is an error message when there is such an item. A message of any other type is
refused, and nothing is carried out. -/
theorem execute_spec (m : Message) (x : Instrument β δ) :
    if m.kind = .query ∨ m.kind = .config then
      ∃ k states items diagnostics,
        states 0 = x ∧ ExecutesTo setup connection k m.items items states ∧
        items.map Item.header = m.items.map Item.header ∧
        List.Forall₂ Item.ReportedBy (items.filter Item.isFailed) diagnostics ∧
        m.execute setup connection x =
          (⟨if ∃ item ∈ items, item.isFailed then .error else .response, items ++ diagnostics, 0⟩,
            states m.items.length)
    else
      ∃ text, m.execute setup connection x = (⟨.error, [.diagnostic .semantic text], 0⟩, x) := by
  split
  · rename_i hrequest
    obtain ⟨k, states, hfirst, hlast, hitems⟩ :=
      executesTo_executeItems setup connection m.items x
    refine ⟨k, states, _, _, hfirst, hitems, map_header_executeItems _ _ _ _,
      forall₂_diagnosticsOf _, ?_⟩
    have hexecute : m.execute setup connection x =
        (⟨if (executeItems setup connection m.items x).1.any Item.isFailed then .error
          else .response,
          (executeItems setup connection m.items x).1 ++
            diagnosticsOf (executeItems setup connection m.items x).1, 0⟩,
          (executeItems setup connection m.items x).2) := by
      rw [execute]
      rcases hrequest with hkind | hkind <;> rw [hkind] <;> rfl
    rw [hexecute, hlast]
    simp only [List.any_eq_true]
  · rename_i hother
    refine ⟨"unexpected message type '" ++ m.kind.letter.toString ++ "'", ?_⟩
    rw [execute]
    split
    · rename_i hkind
      exact absurd (.inl hkind) hother
    · rename_i hkind
      exact absurd (.inr hkind) hother
    · rfl

/-- An item that could not be read does not end the execution, a failed request does. -/
example :
    let setup : Setup SimulatedBoard SimulatedDma :=
      ⟨SimulatedBoard.port .steady, SimulatedDma.engine, ⟨0, ⟨0⟩, ⟨0⟩, ⟨0⟩, ⟨0⟩⟩,
        .steady 1 0 Nat.one_pos, ⟨1, 1, ⟨0⟩⟩⟩
    let requests : List Request :=
      [.command (.dioOutputs 5), .streamStart ⟨7⟩, .command (.dioOutputs 6)]
    let items := .rejected 0xFFFF [] (.unknownId 0xFFFF) ::
      requests.map fun r => ⟨0, [], r, .pending⟩
    let (reply, x) := execute setup ⟨1⟩ ⟨.config, items, 0⟩ (Instrument.idle .powerOn .powerOn)
    reply.kind = .error ∧ reply.items.map Item.isFailed = [true, false, true, false, false, false] ∧
      x.board.peek Register.dioOutput = 5 := by
  decide +kernel

end Message

end DaqServer
