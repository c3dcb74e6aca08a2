import DaqServer.Daemon.ActionServer
import DaqServer.Proofs.Daemon.Bystanders
import DaqServer.Proofs.Message.Sequence
import DaqServer.Proofs.Stream.Session
import Mathlib.Data.List.Forall2

/-!
# Answers in the order of the queue

What the consumer does is accounted for entry by entry: `answered` are the entries whose answers are
settled and `dispatches` are the answers. Main statement: whoever uses the queue and whenever, the
entries before the first one that closes it are answered once each and in their order, and nothing
is behind it; while no session runs, they are answered as if one after the other
(`serves_in_order`).
-/

namespace DaqServer

variable {β δ : Type} {setup : Setup β δ}

/-- Items are carried out in order up to the first that fails, each on some instrument. -/
inductive CarriedOut (setup : Setup β δ) (connection : ConnectionId) : List Item → List Item → Prop
  | nil : CarriedOut setup connection [] []
  | passes {item item' : Item} {rest rest' : List Item} {x x' : Instrument β δ} :
      item.execute setup connection x = ((.ok (), item'), x') →
      CarriedOut setup connection rest rest' →
      CarriedOut setup connection (item :: rest) (item' :: rest')
  | fails {item item' : Item} {rest : List Item} {x x' : Instrument β δ} {e : ItemError} :
      item.execute setup connection x = ((.error e, item'), x') →
      CarriedOut setup connection (item :: rest) (item' :: rest)

def Message.IsRequest (m : Message) : Prop := m.kind = .query ∨ m.kind = .config

namespace Action

/-- The answer that an entry asks for. -/
def AnsweredBy (setup : Setup β δ) : Action → Dispatch → Prop
  | execute recipient request, dispatch =>
      dispatch.recipient = recipient ∧
      ((request.IsRequest ∧ ∃ items, CarriedOut setup recipient.connection request.items items ∧
        dispatch.reply = request.replyWith items) ∨
      (¬ request.IsRequest ∧ dispatch.reply = .unexpected request.kind))
  | deliver recipient reply, dispatch => dispatch = ⟨recipient, reply⟩
  | close, _ => False

def items : Action → List Item
  | execute _ request => request.items
  | _ => []

def answer (setup : Setup β δ) (sofar : List Dispatch × Instrument β δ) :
    Action → List Dispatch × Instrument β δ
  | execute recipient request =>
      let (reply, x) := request.execute setup recipient.connection sofar.2
      (sofar.1 ++ [⟨recipient, reply⟩], x)
  | deliver recipient reply => (sofar.1 ++ [⟨recipient, reply⟩], sofar.2)
  | close => sofar

/-- Handling entries is answering those before the first that closes the queue, one by one. -/
theorem handleActions_eq_foldl (setup : Setup β δ) (actions : List Action)
    (sofar : List Dispatch) (x : Instrument β δ) :
    (sofar ++ (handleActions setup actions x).1, (handleActions setup actions x).2) =
      (actions.takeWhile fun a => !a.isClose).foldl (answer setup) (sofar, x) := by
  induction actions generalizing sofar x with
  | nil => simp [handleActions]
  | cons action rest ih =>
      cases action with
      | close => simp [handleActions, isClose]
      | execute recipient request =>
          rw [List.takeWhile_cons_of_pos rfl, List.foldl_cons, answer, ← ih, handleActions,
            List.append_assoc]
          rfl
      | deliver recipient reply =>
          rw [List.takeWhile_cons_of_pos rfl, List.foldl_cons, answer, ← ih, handleActions,
            List.append_assoc]
          rfl

end Action

namespace Action

def isFor (id : ConnectionId) : Action → Bool
  | execute recipient _ | deliver recipient _ => recipient.connection = id
  | close => false

theorem isFor_ofFrame (id : ConnectionId) (recipient : Recipient)
    (result : Except FramingError Message) :
    (ofFrame recipient result).isFor id = decide (recipient.connection = id) := by
  cases result <;> rfl

variable {action : Action} {dispatch : Dispatch}

theorem AnsweredBy.isFor (h : action.AnsweredBy setup dispatch) (id : ConnectionId) :
    action.isFor id = decide (dispatch.recipient.connection = id) := by
  cases action with
  | execute recipient request =>
      rw [h.1]
      rfl
  | deliver recipient reply =>
      obtain rfl : dispatch = ⟨recipient, reply⟩ := h
      rfl
  | close => exact h.elim

theorem AnsweredBy.isClose (h : action.AnsweredBy setup dispatch) : action.isClose = false := by
  cases action with
  | execute | deliver => rfl
  | close => exact h.elim

end Action

/-- What a reader holds that has taken it from its framer and not put it into the queue. -/
def ReaderPoint.Holds (unsent : List (Except FramingError Message)) : ReaderPoint → Prop
  | queueing result => unsent = [result]
  | left => True
  | _ => unsent = []

/-- What a reader asks of its framer. -/
def ReaderStep.framerCall? : ReaderStep → Option Framer.Call
  | arrive bytes => some (.extend bytes)
  | frame => some .next
  | _ => none

namespace ActionServerAct

def framerCall? (id : ConnectionId) : ActionServerAct β δ → Option Framer.Call
  | reader other step => if other = id then step.framerCall? else none
  | _ => none

/-- Whoever uses the instrument beside the consumer leaves it related to what it was. -/
def Leaves (R : Instrument β δ → Instrument β δ → Prop) : ActionServerAct β δ → Prop
  | others change => ∀ x, R x (change x)
  | _ => True

/-- Only the reader of a connection enters something for it. -/
def Spares (id : ConnectionId) : ActionServerAct β δ → Prop
  | push action => action.isFor id = false
  | _ => True

end ActionServerAct

namespace Message

variable {m : Message} {connection : ConnectionId}

theorem execute_of_isRequest (h : m.IsRequest) (x : Instrument β δ) :
    m.execute setup connection x =
      (m.replyWith (executeItems setup connection m.items x).1,
        (executeItems setup connection m.items x).2) := by
  rcases h with h | h <;> rw [execute, h] <;> rfl

theorem execute_of_not_isRequest (h : ¬ m.IsRequest) (x : Instrument β δ) :
    m.execute setup connection x = (unexpected m.kind, x) := by
  rw [IsRequest, not_or] at h
  rw [execute]
  split
  · rename_i hkind
    exact absurd hkind h.1
  · rename_i hkind
    exact absurd hkind h.2
  · rfl

end Message

def SinkCall.outline : SinkCall → UInt32 × Bool
  | send connection _ => (connection.value, false)
  | close connection => (connection.value, true)

/-- The two things to be done for an answer: it is sent, and the connection closed if that fails. -/
def Dispatch.calls (d : Dispatch) : List SinkCall :=
  .send d.recipient.connection d.reply ::
    if d.recipient.reachable then [] else [.close d.recipient.connection]

namespace ConsumerPoint

def owed : ConsumerPoint → List SinkCall
  | sending dispatch => dispatch.calls
  | closing connection => [.close connection]
  | _ => []

/-- After an answer was sent, closing the connection is owed if the answer did not get there. -/
theorem calls_eq_send (d : Dispatch) :
    d.calls = .send d.recipient.connection d.reply ::
      (if d.recipient.reachable then waiting else closing d.recipient.connection).owed := by
  rw [Dispatch.calls]
  cases d.recipient.reachable <;> rfl

/-- All entries are accounted for: those that are answered, the one at hand, and those that wait. -/
def Accounts (setup : Setup β δ) (entered waiting answered : List Action) : ConsumerPoint → Prop
  | executing recipient request done rest =>
      entered = answered ++ .execute recipient request :: waiting ∧ request.IsRequest ∧
      ∀ rest', CarriedOut setup recipient.connection rest rest' →
        CarriedOut setup recipient.connection request.items (done ++ rest')
  | leaving | gone => ∃ dropped, entered = answered ++ .close :: dropped
  | _ => entered = answered ++ waiting

/-- Answers and instrument are those of answering one by one, up to the items still to do and to a
relation of instruments. -/
def Agrees (setup : Setup β δ) (R : Instrument β δ → Instrument β δ → Prop)
    (x₀ x : Instrument β δ) (answered : List Action) (dispatches : List Dispatch) :
    ConsumerPoint → Prop
  | executing recipient request done rest => rest ⊆ request.items ∧ ∃ before,
      answered.foldl (Action.answer setup) ([], x₀) = (dispatches, before) ∧
      UpTo R (executeItems setup recipient.connection request.items before)
        (done ++ (executeItems setup recipient.connection rest x).1,
          (executeItems setup recipient.connection rest x).2)
  | _ => UpTo R (answered.foldl (Action.answer setup) ([], x₀)) (dispatches, x)

theorem take_of_isRequest (recipient : Recipient) {request : Message} (h : request.IsRequest) :
    take (.execute recipient request) = executing recipient request [] request.items := by
  rcases h with h | h <;> simp only [take, h]

theorem take_of_not_isRequest (recipient : Recipient) {request : Message}
    (h : ¬ request.IsRequest) :
    take (.execute recipient request) = sending ⟨recipient, .unexpected request.kind⟩ := by
  obtain ⟨kind, items, trailer⟩ := request
  cases kind with
  | query => exact absurd (.inl rfl) h
  | config => exact absurd (.inr rfl) h
  | _ => rfl

def isExecuting : ConsumerPoint → Bool
  | executing .. => true
  | _ => false

def isGone : ConsumerPoint → Bool
  | gone => true
  | _ => false

theorem eq_gone_of_isGone {point : ConsumerPoint} (h : point.isGone = true) : point = gone := by
  cases point with
  | gone => rfl
  | _ => cases h

/-- Steps that the consumer has before it with the entry at hand, at most. -/
def work : ConsumerPoint → Nat
  | executing _ _ _ rest => rest.length + 3
  | sending _ => 2
  | closing _ | leaving => 1
  | waiting | gone => 0

end ConsumerPoint

/-- Steps that an entry takes, at most. -/
def Action.work : Action → Nat
  | execute _ request => request.items.length + 4
  | deliver .. => 3
  | close => 2

theorem Action.work_take_lt (action : Action) : (ConsumerPoint.take action).work < action.work := by
  cases action with
  | close => exact Nat.lt_succ_self 1
  | deliver recipient reply => exact Nat.lt_succ_self 2
  | execute recipient request =>
      by_cases hrequest : request.IsRequest
      · rw [ConsumerPoint.take_of_isRequest recipient hrequest]
        exact Nat.lt_succ_self _
      · rw [ConsumerPoint.take_of_not_isRequest recipient hrequest, ConsumerPoint.work, work]
        omega

namespace ActionServer

section Entries

variable {d d' : ActionServer β δ}

theorem push_entered (action : Action) (d : ActionServer β δ) :
    (d.push action).2.entered = d.entered ++ if (d.push action).1 then [action] else [] := by
  unfold push
  split
  · rfl
  · exact (List.append_nil _).symm

theorem consume_frame (h : d.consume setup = some d') :
    d'.readers = d.readers ∧ d'.entered = d.entered := by
  unfold ActionServer.consume at h
  split at h
  · split at h
    · cases h
    · cases h
      exact ⟨rfl, rfl⟩
  · cases h
    exact ⟨rfl, rfl⟩
  · split at h <;> cases h <;> exact ⟨rfl, rfl⟩
  · cases h
    exact ⟨rfl, rfl⟩
  · cases h
    exact ⟨rfl, rfl⟩
  · cases h
    exact ⟨rfl, rfl⟩
  · cases h

/-- What a step of a reader does to an action server: it may put an entry into the queue, and it
changes where the reader stands. -/
theorem readerStep_cases {id : ConnectionId} {step : ReaderStep} {point : ReaderPoint}
    (h : d.readerStep id step point = some d') :
    (∃ reader, d' = d.setReader id reader) ∨
    ∃ reachable result reader,
      d' = (d.push (.ofFrame ⟨id, reachable⟩ result)).2.setReader id reader := by
  unfold readerStep at h
  split at h
  · exact .inl ⟨_, (Option.some.inj h).symm⟩
  · exact .inl ⟨_, (Option.some.inj h).symm⟩
  · exact .inl ⟨_, (Option.some.inj h).symm⟩
  · exact .inl ⟨_, (Option.some.inj h).symm⟩
  · split at h <;> exact .inl ⟨_, (Option.some.inj h).symm⟩
  · rename_i reachable result
    refine .inr ⟨reachable, result, ?_⟩
    split at h <;> rename_i hpush <;> rw [hpush] <;> exact ⟨_, (Option.some.inj h).symm⟩
  · cases h

theorem entered_subset_of_step {act : ActionServerAct β δ} (hstep : d.step setup act = some d') :
    d.entered ⊆ d'.entered := by
  have hpush : ∀ action, d.entered ⊆ (d.push action).2.entered := by
    intro action
    rw [push_entered]
    exact List.subset_append_left _ _
  cases act with
  | reader id step =>
      rcases readerStep_cases hstep with ⟨reader, rfl⟩ | ⟨reachable, result, reader, rfl⟩
      · exact List.Subset.refl _
      · exact hpush _
  | push action =>
      cases hstep
      exact hpush action
  | consume => exact (consume_frame hstep).2 ▸ List.Subset.refl _
  | others change =>
      cases hstep
      exact List.Subset.refl _

theorem entered_subset_of_run {acts : List (ActionServerAct β δ)}
    (hrun : run setup acts d = some d') :
    d.entered ⊆ d'.entered := by
  induction acts generalizing d with
  | nil => exact Option.some.inj hrun ▸ List.Subset.refl _
  | cons act acts ih =>
      obtain ⟨next, hstep, hrest⟩ := Option.bind_eq_some_iff.mp hrun
      exact List.Subset.trans (entered_subset_of_step hstep) (ih hrest)

/-- A relation that no entry notices. -/
def Blinds (setup : Setup β δ) (R : Instrument β δ → Instrument β δ → Prop)
    (d : ActionServer β δ) : Prop :=
  ∃ asked, Blind setup R asked ∧ ∀ action ∈ d.entered, ∀ item ∈ action.items, asked item

theorem blinds_eq (setup : Setup β δ) (d : ActionServer β δ) : d.Blinds setup Eq :=
  ⟨_, blind_eq setup, fun _ _ _ _ => trivial⟩

theorem Blinds.refl {R : Instrument β δ → Instrument β δ → Prop} (h : d.Blinds setup R) :
    ∀ x, R x x := by
  obtain ⟨asked, hblind, -⟩ := h
  exact hblind.refl

theorem Blinds.mono {R : Instrument β δ → Instrument β δ → Prop} (h : d'.Blinds setup R)
    (hentered : d.entered ⊆ d'.entered) : d.Blinds setup R := by
  obtain ⟨asked, hblind, hentries⟩ := h
  exact ⟨asked, hblind, fun action hmem => hentries action (hentered hmem)⟩

end Entries

/-- The books of an action server: all entries are accounted for, and all answers were sent but for
what is still owed. Up to a relation in which the instrument is left, they are the answers of one
entry after the other. -/
structure Keeps (setup : Setup β δ) (left : (Instrument β δ → Instrument β δ → Prop) → Prop)
    (x₀ : Instrument β δ) (d : ActionServer β δ) (answered : List Action)
    (dispatches : List Dispatch) :
    Prop where
  answers : List.Forall₂ (Action.AnsweredBy setup) answered dispatches
  calls : d.calls ++ d.consumer.owed = dispatches.flatMap Dispatch.calls
  accounts : d.consumer.Accounts setup d.entered d.queue.waiting answered
  agrees : ∀ R, left R → d.consumer.Agrees setup R x₀ d.instrument answered dispatches

section Books

variable {left : (Instrument β δ → Instrument β δ → Prop) → Prop} {x₀ : Instrument β δ}
  {d d' : ActionServer β δ} {answered : List Action} {dispatches : List Dispatch}

theorem keeps_fresh (setup : Setup β δ)
    (left : (Instrument β δ → Instrument β δ → Prop) → Prop)
    (hleft : ∀ R, left R → ∀ x, R x x) (limit : Nat) (x₀ : Instrument β δ) :
    Keeps setup left x₀ (fresh limit x₀) [] [] :=
  ⟨.nil, rfl, rfl, fun R hR => ⟨rfl, hleft R hR x₀⟩⟩

theorem Keeps.setReader (h : d.Keeps setup left x₀ answered dispatches) (id : ConnectionId)
    (reader : ControlReader) : (d.setReader id reader).Keeps setup left x₀ answered dispatches :=
  ⟨h.answers, h.calls, h.accounts, h.agrees⟩

theorem Keeps.push (h : d.Keeps setup left x₀ answered dispatches) (action : Action) :
    (d.push action).2.Keeps setup left x₀ answered dispatches := by
  obtain ⟨x, ⟨waiting, accepting⟩, consumer, readers, entered, calls⟩ := d
  cases accepting with
  | false => exact h
  | true =>
      refine ⟨h.answers, h.calls, ?_, h.agrees⟩
      have haccounts := h.accounts
      change consumer.Accounts setup (entered ++ [action]) (waiting ++ [action]) answered
      change consumer.Accounts setup entered waiting answered at haccounts
      cases consumer with
      | executing recipient request done rest =>
          obtain ⟨rfl, hrest⟩ := haccounts
          exact ⟨by rw [List.append_assoc, List.cons_append], hrest⟩
      | leaving | gone =>
          obtain ⟨dropped, rfl⟩ := haccounts
          exact ⟨dropped ++ [action], by rw [List.append_assoc, List.cons_append]⟩
      | waiting | sending | closing =>
          obtain rfl := haccounts
          exact List.append_assoc _ _ _

/-- One more entry is answered, and the answer is about to be sent. -/
theorem Keeps.settle (h : d.Keeps setup left x₀ answered dispatches) (action : Action)
    {dispatch : Dispatch} {waiting : List Action} (howed : d.consumer.owed = [])
    (hanswer : action.AnsweredBy setup dispatch)
    (hentered : d.entered = answered ++ action :: waiting)
    (hagrees : ∀ R, left R → UpTo R ((answered ++ [action]).foldl (Action.answer setup) ([], x₀))
      (dispatches ++ [dispatch], d.instrument)) :
    Keeps setup left x₀
      { d with queue := { d.queue with waiting := waiting }, consumer := .sending dispatch }
      (answered ++ [action]) (dispatches ++ [dispatch]) where
  answers := List.rel_append h.answers (.cons hanswer .nil)
  calls := by
    have hcalls := h.calls
    rw [howed, List.append_nil] at hcalls
    rw [List.flatMap_append, ← hcalls]
    exact congrArg _ (List.append_nil _).symm
  accounts := by
    change d.entered = answered ++ [action] ++ waiting
    rw [hentered, List.append_assoc]
    rfl
  agrees := hagrees

theorem Keeps.take (h : d.Keeps setup left x₀ answered dispatches)
    (hblind : ∀ R, left R → d.Blinds setup R) (hconsumer : d.consumer = .waiting)
    {action : Action} {rest : List Action} (hwaiting : d.queue.waiting = action :: rest) :
    ∃ answered' dispatches', Keeps setup left x₀
      { d with queue := { d.queue with waiting := rest }, consumer := .take action }
      answered' dispatches' := by
  have haccounts := h.accounts
  have hcalls := h.calls
  rw [hconsumer, hwaiting] at haccounts
  rw [hconsumer] at hcalls
  have hagrees : ∀ R, left R → UpTo R (answered.foldl (Action.answer setup) ([], x₀))
      (dispatches, d.instrument) := by
    intro R hR
    have hbefore := h.agrees R hR
    rwa [hconsumer] at hbefore
  have howed : d.consumer.owed = [] := by rw [hconsumer]; rfl
  cases action with
  | close => exact ⟨answered, dispatches, h.answers, hcalls, ⟨rest, haccounts⟩, hagrees⟩
  | deliver recipient reply =>
      refine ⟨_, _, h.settle (.deliver recipient reply) howed rfl haccounts ?_⟩
      intro R hR
      obtain ⟨hdispatches, hx⟩ := hagrees R hR
      rw [List.foldl_append]
      exact ⟨congrArg (· ++ [_]) hdispatches, hx⟩
  | execute recipient request =>
      by_cases hrequest : request.IsRequest
      · rw [ConsumerPoint.take_of_isRequest recipient hrequest]
        refine ⟨answered, dispatches, h.answers, hcalls, ⟨haccounts, hrequest, fun _ => id⟩, ?_⟩
        intro R hR
        obtain ⟨hdispatches, hx⟩ := hagrees R hR
        obtain ⟨asked, hasked, hentries⟩ := hblind R hR
        have hmem : .execute recipient request ∈ d.entered := by
          rw [haccounts]
          exact List.mem_append_right _ List.mem_cons_self
        exact ⟨List.Subset.refl _, (answered.foldl (Action.answer setup) ([], x₀)).2,
          Prod.ext hdispatches rfl, hasked.executeItems (hentries _ hmem) _ hx⟩
      · rw [ConsumerPoint.take_of_not_isRequest recipient hrequest]
        refine ⟨_, _, h.settle (.execute recipient request) howed
          ⟨rfl, .inr ⟨hrequest, rfl⟩⟩ haccounts ?_⟩
        intro R hR
        obtain ⟨hdispatches, hx⟩ := hagrees R hR
        rw [List.foldl_append, List.foldl_cons, Action.answer,
          Message.execute_of_not_isRequest hrequest]
        exact ⟨congrArg (· ++ [_]) hdispatches, hx⟩

theorem Keeps.complete (h : d.Keeps setup left x₀ answered dispatches) {recipient : Recipient}
    {request : Message} {done : List Item}
    (hconsumer : d.consumer = .executing recipient request done []) :
    Keeps setup left x₀
      { d with consumer := .sending ⟨recipient, request.replyWith done⟩ }
      (answered ++ [.execute recipient request])
      (dispatches ++ [⟨recipient, request.replyWith done⟩]) := by
  have haccounts := h.accounts
  rw [hconsumer] at haccounts
  obtain ⟨hentered, hrequest, hcarried⟩ := haccounts
  have hdone := hcarried [] .nil
  rw [List.append_nil] at hdone
  refine h.settle _ (by rw [hconsumer]; rfl) ⟨rfl, .inl ⟨hrequest, done, hdone, rfl⟩⟩ hentered ?_
  intro R hR
  have hagrees := h.agrees R hR
  rw [hconsumer] at hagrees
  obtain ⟨-, before, hfold, hitems, hx⟩ := hagrees
  rw [executeItems, List.append_nil] at hitems
  rw [List.foldl_append, hfold, List.foldl_cons, Action.answer,
    Message.execute_of_isRequest hrequest, hitems]
  exact ⟨rfl, hx⟩

theorem Keeps.carry (h : d.Keeps setup left x₀ answered dispatches) {recipient : Recipient}
    {request : Message} {done done' rest rest' : List Item} {item : Item} {x : Instrument β δ}
    (hconsumer : d.consumer = .executing recipient request done (item :: rest))
    (hrest : rest' ⊆ rest)
    (hcarried : ∀ last, CarriedOut setup recipient.connection rest' last →
      ∃ last', CarriedOut setup recipient.connection (item :: rest) last' ∧
        done ++ last' = done' ++ last)
    (hexecute : (done ++ (executeItems setup recipient.connection (item :: rest) d.instrument).1,
        (executeItems setup recipient.connection (item :: rest) d.instrument).2) =
      (done' ++ (executeItems setup recipient.connection rest' x).1,
        (executeItems setup recipient.connection rest' x).2)) :
    Keeps setup left x₀
      { d with instrument := x, consumer := .executing recipient request done' rest' }
      answered dispatches := by
  have haccounts := h.accounts
  have hcalls := h.calls
  rw [hconsumer] at haccounts hcalls
  obtain ⟨hentered, hrequest, hbefore⟩ := haccounts
  refine ⟨h.answers, hcalls, ⟨hentered, hrequest, ?_⟩, ?_⟩
  · intro last hlast
    obtain ⟨last', hlast', heq⟩ := hcarried last hlast
    rw [← heq]
    exact hbefore last' hlast'
  · intro R hR
    have hagrees := h.agrees R hR
    rw [hconsumer] at hagrees
    obtain ⟨hmem, before, hfold, hitems⟩ := hagrees
    rw [hexecute] at hitems
    exact ⟨fun item hitem => hmem (List.mem_cons_of_mem _ (hrest hitem)), before, hfold, hitems⟩

theorem Keeps.consume (h : d.Keeps setup left x₀ answered dispatches)
    (hblind : ∀ R, left R → d.Blinds setup R) (hstep : d.consume setup = some d') :
    ∃ answered' dispatches', d'.Keeps setup left x₀ answered' dispatches' := by
  unfold ActionServer.consume at hstep
  split at hstep
  · rename_i hconsumer
    split at hstep
    · cases hstep
    · rename_i action rest hwaiting
      cases hstep
      exact h.take hblind hconsumer hwaiting
  · rename_i recipient request done hconsumer
    cases hstep
    exact ⟨_, _, h.complete hconsumer⟩
  · rename_i recipient request done item rest hconsumer
    split at hstep
    · rename_i item' x hitem
      cases hstep
      refine ⟨_, _, h.carry hconsumer (List.Subset.refl _) (fun last hlast => ?_) ?_⟩
      · exact ⟨item' :: last, .passes hitem hlast, List.append_cons _ _ _⟩
      · rw [executeItems, hitem, List.append_assoc]
        rfl
    · rename_i item' x hitem
      cases hstep
      refine ⟨_, _, h.carry hconsumer (List.nil_subset _) (fun last hlast => ?_) ?_⟩
      · cases hlast
        exact ⟨item' :: rest, .fails hitem, (List.append_nil _).symm⟩
      · simp only [executeItems, hitem, List.append_nil]
  · rename_i dispatch hconsumer
    cases hstep
    obtain ⟨hanswers, hcalls, haccounts, hagrees⟩ := h
    rw [hconsumer] at hcalls haccounts hagrees
    refine ⟨answered, dispatches, hanswers, ?_, ?_, ?_⟩
    · rw [← hcalls, ConsumerPoint.owed, ConsumerPoint.calls_eq_send, List.append_assoc]
      rfl
    · cases dispatch.recipient.reachable <;> exact haccounts
    · cases dispatch.recipient.reachable <;> exact hagrees
  · rename_i connection hconsumer
    cases hstep
    obtain ⟨hanswers, hcalls, haccounts, hagrees⟩ := h
    rw [hconsumer] at hcalls haccounts hagrees
    exact ⟨answered, dispatches, hanswers, (List.append_nil _).trans hcalls, haccounts, hagrees⟩
  · rename_i hconsumer
    cases hstep
    obtain ⟨hanswers, hcalls, haccounts, hagrees⟩ := h
    rw [hconsumer] at hcalls haccounts hagrees
    exact ⟨answered, dispatches, hanswers, hcalls, haccounts, hagrees⟩
  · cases hstep

/-- Someone else changes the instrument in a way that no entry notices. -/
theorem Keeps.change (h : d.Keeps setup left x₀ answered dispatches)
    (hblind : ∀ R, left R → d.Blinds setup R) {x : Instrument β δ}
    (hx : ∀ R, left R → R d.instrument x) :
    Keeps setup left x₀ { d with instrument := x } answered dispatches := by
  refine ⟨h.answers, h.calls, h.accounts, fun R hR => ?_⟩
  obtain ⟨asked, hasked, hentries⟩ := hblind R hR
  have hagrees := h.agrees R hR
  have haccounts := h.accounts
  change d.consumer.Agrees setup R x₀ x answered dispatches
  cases hconsumer : d.consumer <;> rw [hconsumer] at hagrees haccounts
  case executing recipient request done rest =>
    obtain ⟨hmem, before, hfold, hitems, hlast⟩ := hagrees
    have hrequest : .execute recipient request ∈ d.entered := by
      rw [haccounts.1]
      exact List.mem_append_right _ List.mem_cons_self
    obtain ⟨hrest, hnext⟩ := hasked.executeItems
      (fun item hitem => hentries _ hrequest item (hmem hitem)) recipient.connection (hx R hR)
    exact ⟨hmem, before, hfold, hitems.trans (congrArg (done ++ ·) hrest),
      hasked.trans hlast hnext⟩
  all_goals exact ⟨hagrees.1, hasked.trans hagrees.2 (hx R hR)⟩

theorem Keeps.step (h : d.Keeps setup left x₀ answered dispatches) {act : ActionServerAct β δ}
    (hblind : ∀ R, left R → d.Blinds setup R) (hleaves : ∀ R, left R → act.Leaves R)
    (hstep : d.step setup act = some d') :
    ∃ answered' dispatches', d'.Keeps setup left x₀ answered' dispatches' := by
  cases act with
  | reader id step =>
      rcases readerStep_cases hstep with ⟨reader, rfl⟩ | ⟨reachable, result, reader, rfl⟩
      · exact ⟨_, _, h.setReader id reader⟩
      · exact ⟨_, _, (h.push _).setReader id reader⟩
  | push action =>
      cases hstep
      exact ⟨_, _, h.push action⟩
  | consume => exact h.consume hblind hstep
  | others change =>
      cases hstep
      exact ⟨_, _, h.change hblind fun R hR => hleaves R hR d.instrument⟩

theorem Keeps.run {acts : List (ActionServerAct β δ)}
    (h : d.Keeps setup left x₀ answered dispatches)
    (hleft : ∀ R, left R → d'.Blinds setup R ∧ ∀ act ∈ acts, act.Leaves R)
    (hrun : run setup acts d = some d') :
    ∃ answered' dispatches', d'.Keeps setup left x₀ answered' dispatches' := by
  induction acts generalizing d answered dispatches with
  | nil =>
      cases hrun
      exact ⟨_, _, h⟩
  | cons act acts ih =>
      have hblind : ∀ R, left R → d.Blinds setup R := fun R hR =>
        (hleft R hR).1.mono (entered_subset_of_run hrun)
      obtain ⟨next, hstep, hrest⟩ := Option.bind_eq_some_iff.mp hrun
      obtain ⟨_, _, hnext⟩ :=
        h.step hblind (fun R hR => (hleft R hR).2 act List.mem_cons_self) hstep
      exact ih hnext (fun R hR => ⟨(hleft R hR).1, fun act hact =>
        (hleft R hR).2 act (List.mem_cons_of_mem _ hact)⟩) hrest

end Books

/-! ### Readers -/

section Readers

variable {limit : Nat} {id : ConnectionId} {d d' : ActionServer β δ} {calls : List Framer.Call}

/-- The entries of a connection are what its framer handed out, in that order. -/
structure Relays (limit : Nat) (id : ConnectionId) (calls : List Framer.Call)
    (d : ActionServer β δ) :
    Prop where
  framer : (Framer.run calls (.empty limit)).2 = (d.readers id).framer
  entries : ∃ sent unsent, (Framer.run calls (.empty limit)).1 = sent ++ unsent ∧
    List.Forall₂ (fun result action => ∃ reachable, action = .ofFrame ⟨id, reachable⟩ result)
      sent (d.entered.filter (Action.isFor id)) ∧
    (d.readers id).point.Holds unsent

theorem relays_fresh (limit : Nat) (id : ConnectionId) (x : Instrument β δ) :
    Relays limit id [] (fresh limit x) :=
  ⟨rfl, [], [], rfl, .nil, rfl⟩

theorem push_readers (action : Action) (d : ActionServer β δ) :
    (d.push action).2.readers = d.readers := by
  unfold push
  split <;> rfl

theorem setReader_self (id : ConnectionId) (reader : ControlReader) (d : ActionServer β δ) :
    (d.setReader id reader).readers id = reader := if_pos rfl

theorem setReader_of_ne {other : ConnectionId} (h : id ≠ other) (reader : ControlReader)
    (d : ActionServer β δ) : (d.setReader other reader).readers id = d.readers id := if_neg h

/-- Entries that are not for a connection leave its own as they are. -/
theorem Relays.push_of_not_isFor (h : d.Relays limit id calls) {action : Action}
    (haction : action.isFor id = false) : (d.push action).2.Relays limit id calls := by
  have hentered : (d.push action).2.entered.filter (Action.isFor id) =
      d.entered.filter (Action.isFor id) := by
    rw [push_entered]
    split <;> simp [haction]
  refine ⟨by rw [push_readers, h.framer], ?_⟩
  rw [hentered, push_readers]
  exact h.entries

theorem Relays.setReader_of_ne {other : ConnectionId} (h : d.Relays limit id calls)
    (hne : id ≠ other) (reader : ControlReader) :
    (d.setReader other reader).Relays limit id calls := by
  refine ⟨by rw [ActionServer.setReader_of_ne hne, h.framer], ?_⟩
  rw [ActionServer.setReader_of_ne hne]
  exact h.entries

/-- A reader goes on with a framer that was asked something or not. -/
theorem Relays.setReader (h : d.Relays limit id calls) (more : List Framer.Call)
    (point : ReaderPoint)
    (hpoint : ∀ unsent, (d.readers id).point.Holds unsent →
      point.Holds (unsent ++ (Framer.run more (d.readers id).framer).1)) :
    (d.setReader id ⟨(Framer.run more (d.readers id).framer).2, point⟩).Relays limit id
      (calls ++ more) := by
  obtain ⟨hframer, sent, unsent, hresults, hsent, hholds⟩ := h
  refine ⟨by rw [Framer.run_append, hframer, setReader_self], sent,
    unsent ++ (Framer.run more (d.readers id).framer).1, ?_, hsent, ?_⟩
  · rw [Framer.run_append, hresults, hframer, List.append_assoc]
  · rw [setReader_self]
    exact hpoint unsent hholds

/-- A reader puts into the queue what its framer handed out, or finds that the queue is gone. -/
theorem Relays.enter (h : d.Relays limit id calls) {result : Except FramingError Message}
    (hpoint : (d.readers id).point = .queueing result) (reachable : Bool) {point : ReaderPoint}
    (hentered : ((d.push (.ofFrame ⟨id, reachable⟩ result)).1 = true ∧ point = .framing) ∨
      ((d.push (.ofFrame ⟨id, reachable⟩ result)).1 = false ∧ point = .left)) :
    ((d.push (.ofFrame ⟨id, reachable⟩ result)).2.setReader id
      ⟨(d.readers id).framer, point⟩).Relays limit id calls := by
  obtain ⟨hframer, sent, unsent, hresults, hsent, hholds⟩ := h
  rw [hpoint] at hholds
  obtain rfl : unsent = [result] := hholds
  refine ⟨by rw [setReader_self, hframer], ?_⟩
  rw [setReader_self]
  change ∃ sent unsent, _ ∧ List.Forall₂ _ sent
    ((d.push (.ofFrame ⟨id, reachable⟩ result)).2.entered.filter _) ∧ _
  rw [push_entered]
  rcases hentered with ⟨haccepted, rfl⟩ | ⟨hrefused, rfl⟩
  · have hown : (Action.ofFrame ⟨id, reachable⟩ result).isFor id = true :=
      (Action.isFor_ofFrame _ _ _).trans (decide_eq_true rfl)
    rw [haccepted, if_pos rfl, List.filter_append, List.filter_cons_of_pos hown, List.filter_nil]
    refine ⟨sent ++ [result], [], ?_, List.rel_append hsent (.cons ⟨reachable, rfl⟩ .nil), rfl⟩
    rw [hresults, List.append_nil]
  · rw [hrefused]
    refine ⟨sent, [result], hresults, ?_, trivial⟩
    rw [if_neg Bool.false_ne_true, List.append_nil]
    exact hsent

theorem Relays.readerStep (h : d.Relays limit id calls) {step : ReaderStep}
    (hstep : d.readerStep id step (d.readers id).point = some d') :
    d'.Relays limit id (calls ++ step.framerCall?.toList) := by
  unfold ActionServer.readerStep at hstep
  split at hstep <;> rename_i hpoint
  · cases hstep
    refine h.setReader [] _ fun unsent hholds => ?_
    rw [hpoint] at hholds
    obtain rfl : unsent = [] := hholds
    split
    · trivial
    · rfl
  · cases hstep
    refine h.setReader [.extend _] _ fun unsent hholds => ?_
    rw [hpoint] at hholds
    obtain rfl : unsent = [] := hholds
    rfl
  · cases hstep
    refine h.setReader [] _ fun unsent hholds => ?_
    rw [hpoint] at hholds
    obtain rfl : unsent = [] := hholds
    rfl
  · cases hstep
    exact h.setReader [] _ fun _ _ => trivial
  · have hnext := h.setReader [.next] (match (d.readers id).framer.next.1 with
      | some result => .queueing result
      | none => .looking) fun unsent hholds => by
        rw [hpoint] at hholds
        obtain rfl : unsent = [] := hholds
        rw [Framer.run_next]
        split <;> rename_i hresult <;> rw [hresult] <;> rfl
    split at hstep <;> rename_i hframer <;> cases hstep
    · rw [Framer.run_next, hframer] at hnext
      exact hnext
    · rw [Framer.run_next, hframer] at hnext
      exact hnext
  · rename_i reachable result
    change Relays limit id (calls ++ []) d'
    rw [List.append_nil]
    split at hstep <;> rename_i hpush <;> cases hstep
    · have henter := h.enter hpoint reachable (.inl ⟨by rw [hpush], rfl⟩)
      have hreaders := push_readers (.ofFrame ⟨id, reachable⟩ result) d
      rw [hpush] at henter hreaders
      rwa [← hreaders] at henter
    · have henter := h.enter hpoint reachable (.inr ⟨by rw [hpush], rfl⟩)
      have hreaders := push_readers (.ofFrame ⟨id, reachable⟩ result) d
      rw [hpush] at henter hreaders
      rwa [← hreaders] at henter
  · cases hstep

theorem Relays.step (h : d.Relays limit id calls) {act : ActionServerAct β δ}
    (hspares : act.Spares id)
    (hstep : d.step setup act = some d') :
    d'.Relays limit id (calls ++ (act.framerCall? id).toList) := by
  cases act with
  | reader other step =>
      rw [ActionServerAct.framerCall?]
      by_cases hother : other = id
      · subst hother
        rw [if_pos rfl]
        exact h.readerStep hstep
      · rw [if_neg hother, Option.toList_none, List.append_nil]
        have hne : id ≠ other := fun heq => hother heq.symm
        rcases readerStep_cases hstep with ⟨reader, rfl⟩ | ⟨reachable, result, reader, rfl⟩
        · exact h.setReader_of_ne hne reader
        · have hforeign : (Action.ofFrame ⟨other, reachable⟩ result).isFor id = false :=
            (Action.isFor_ofFrame _ _ _).trans (decide_eq_false hother)
          exact (h.push_of_not_isFor hforeign).setReader_of_ne hne reader
  | push action =>
      cases hstep
      change Relays limit id (calls ++ []) _
      rw [List.append_nil]
      exact h.push_of_not_isFor hspares
  | consume =>
      obtain ⟨hreaders, hentered⟩ := consume_frame hstep
      change Relays limit id (calls ++ []) _
      rw [List.append_nil]
      refine ⟨by rw [hreaders, h.framer], ?_⟩
      rw [hreaders, hentered]
      exact h.entries
  | others x =>
      cases hstep
      change Relays limit id (calls ++ []) _
      rw [List.append_nil]
      exact ⟨h.framer, h.entries⟩

theorem Relays.run {acts : List (ActionServerAct β δ)} (h : d.Relays limit id calls)
    (hspares : ∀ act ∈ acts, act.Spares id) (hrun : run setup acts d = some d') :
    d'.Relays limit id (calls ++ acts.filterMap (ActionServerAct.framerCall? id)) := by
  induction acts generalizing d calls with
  | nil =>
      cases hrun
      rwa [List.filterMap_nil, List.append_nil]
  | cons act acts ih =>
      obtain ⟨next, hstep, hrest⟩ := Option.bind_eq_some_iff.mp hrun
      have hnext := h.step (hspares act (List.mem_cons_self ..)) hstep
      have hlast := ih hnext (fun act hact => hspares act (List.mem_cons_of_mem _ hact)) hrest
      rw [List.append_assoc] at hlast
      have hcalls : (act :: acts).filterMap (ActionServerAct.framerCall? id) =
          (act.framerCall? id).toList ++ acts.filterMap (ActionServerAct.framerCall? id) := by
        rw [List.filterMap_cons]
        cases act.framerCall? id <;> rfl
      rwa [hcalls]

end Readers

/-! ### Progress -/

section Progress

variable {d d' : ActionServer β δ}

/-- The consumer has nothing to do, or nothing to do any more. -/
def Rests (d : ActionServer β δ) : Prop :=
  d.consumer = .gone ∨ d.consumer = .waiting ∧ d.queue.waiting = []

/-- Steps that the consumer has before it, at most. -/
def work (d : ActionServer β δ) : Nat :=
  d.consumer.work + (d.queue.waiting.map Action.work).sum

theorem consume_eq_none_iff : d.consume setup = none ↔ d.Rests := by
  unfold ActionServer.consume Rests
  split
  · rename_i hconsumer
    rw [hconsumer]
    split <;> rename_i hwaiting <;> simp [hwaiting]
  · rename_i hconsumer
    simp [hconsumer]
  · rename_i hconsumer
    split <;> simp [hconsumer]
  · rename_i hconsumer
    simp [hconsumer]
  · rename_i hconsumer
    simp [hconsumer]
  · rename_i hconsumer
    simp [hconsumer]
  · rename_i hconsumer
    simp [hconsumer]

theorem work_consume_lt (h : d.consume setup = some d') : d'.work < d.work := by
  unfold ActionServer.consume at h
  split at h
  · rename_i hconsumer
    split at h
    · cases h
    · rename_i action rest hwaiting
      cases h
      rw [work, work, hconsumer, hwaiting, List.map_cons, List.sum_cons, ConsumerPoint.work,
        Nat.zero_add]
      exact Nat.add_lt_add_right action.work_take_lt _
  · rename_i hconsumer
    cases h
    rw [work, work, hconsumer]
    exact Nat.add_lt_add_right (Nat.lt_succ_self 2) _
  · rename_i hconsumer
    split at h <;> cases h <;> rw [work, work, hconsumer] <;>
      exact Nat.add_lt_add_right (by simp [ConsumerPoint.work]) _
  · rename_i dispatch hconsumer
    cases h
    rw [work, work, hconsumer]
    refine Nat.add_lt_add_right ?_ _
    cases dispatch.recipient.reachable <;> simp [ConsumerPoint.work]
  · rename_i hconsumer
    cases h
    rw [work, work, hconsumer]
    exact Nat.add_lt_add_right Nat.one_pos _
  · rename_i hconsumer
    cases h
    rw [work, work, hconsumer]
    exact Nat.lt_of_lt_of_le Nat.one_pos (Nat.le_add_right _ _)
  · cases h

/-- Left to itself, the consumer comes to rest. -/
theorem exists_rests (setup : Setup β δ) (d : ActionServer β δ) :
    ∃ count last, run setup (List.replicate count .consume) d = some last ∧ last.Rests ∧
      last.entered = d.entered := by
  induction hwork : d.work using Nat.strongRecOn generalizing d with
  | _ work ih =>
  subst hwork
  rcases hstep : d.consume setup with _ | next
  · exact ⟨0, d, rfl, consume_eq_none_iff.mp hstep, rfl⟩
  · obtain ⟨count, last, hrun, hrests, hentered⟩ := ih next.work (work_consume_lt hstep) next rfl
    refine ⟨count + 1, last, ?_, hrests, hentered.trans (consume_frame hstep).2⟩
    rw [List.replicate_succ, run, step, hstep, Option.bind_some, hrun]

end Progress

/-! ### What the queue promises -/

section Promises

variable {left : (Instrument β δ → Instrument β δ → Prop) → Prop} {limit : Nat}
  {x₀ : Instrument β δ} {d : ActionServer β δ} {answered : List Action} {dispatches : List Dispatch}

/-- The entries before the first one that closes the queue. -/
def beforeClose (d : ActionServer β δ) : List Action := d.entered.takeWhile fun a => !a.isClose

theorem Keeps.beforeClose_eq (h : d.Keeps setup left x₀ answered dispatches)
    {later : List Action} (hentered : d.entered = answered ++ later) :
    d.beforeClose = answered ++ later.takeWhile fun a => !a.isClose := by
  have hanswered : ∀ action ∈ answered, action.isClose = false :=
    ((List.forall₂_and_left _ _).mp (h.answers.imp fun _ _ ha => ⟨ha.isClose, ha⟩)).1
  rw [beforeClose, hentered, List.takeWhile_append_of_pos]
  intro action haction
  rw [hanswered action haction, Bool.not_false]

theorem Keeps.exists_later (h : d.Keeps setup left x₀ answered dispatches) :
    ∃ later, d.entered = answered ++ later := by
  have haccounts := h.accounts
  cases hconsumer : d.consumer <;> rw [hconsumer] at haccounts
  case executing => exact ⟨_, haccounts.1⟩
  case leaving | gone =>
    obtain ⟨dropped, hentered⟩ := haccounts
    exact ⟨_, hentered⟩
  case waiting | sending | closing => exact ⟨_, haccounts⟩

theorem Keeps.eq_beforeClose (h : d.Keeps setup left x₀ answered dispatches) (hrests : d.Rests) :
    answered = d.beforeClose := by
  have haccounts := h.accounts
  rcases hrests with hconsumer | ⟨hconsumer, hwaiting⟩
  · rw [hconsumer] at haccounts
    obtain ⟨dropped, hentered⟩ := haccounts
    rw [h.beforeClose_eq hentered, List.takeWhile_cons_of_neg (by simp [Action.isClose]),
      List.append_nil]
  · rw [hconsumer, hwaiting] at haccounts
    rw [h.beforeClose_eq haccounts, List.takeWhile_nil, List.append_nil]

theorem forall₂_comp {ι κ l : Type} {R : ι → κ → Prop} {S : κ → l → Prop} {is : List ι}
    {ks : List κ} {ls : List l} (h : List.Forall₂ R is ks) (h' : List.Forall₂ S ks ls) :
    List.Forall₂ (fun i l => ∃ k, R i k ∧ S k l) is ls := by
  induction h generalizing ls with
  | nil =>
      cases h'
      exact .nil
  | cons hfirst _ ih =>
      cases h' with
      | cons hnext hrest => exact .cons ⟨_, hfirst, hnext⟩ (ih hrest)

/-- What a connection is answered corresponds to what its framer handed out. -/
theorem Keeps.answers_of_relays (h : d.Keeps setup left x₀ answered dispatches)
    {id : ConnectionId} {calls : List Framer.Call} (hrelays : d.Relays limit id calls) :
    List.Forall₂ (fun result dispatch => ∃ action,
        (∃ reachable, action = Action.ofFrame ⟨id, reachable⟩ result) ∧
        action.AnsweredBy setup dispatch)
      ((Framer.run calls (.empty limit)).1.take (answered.filter (Action.isFor id)).length)
      (dispatches.filter fun dispatch => dispatch.recipient.connection = id) := by
  obtain ⟨-, sent, unsent, hresults, hsent, -⟩ := hrelays
  obtain ⟨later, hentered⟩ := h.exists_later
  rw [hentered, List.filter_append] at hsent
  have hlength : (answered.filter (Action.isFor id)).length ≤ sent.length := by
    rw [hsent.length_eq, List.length_append]
    exact Nat.le_add_right _ _
  rw [hresults, List.take_append_of_le_length hlength]
  refine forall₂_comp (List.forall₂_take_append _ _ _ hsent) ?_
  refine List.rel_filter (fun action dispatch hanswer => ?_) h.answers
  simp only [hanswer.isFor id]

theorem Rests.isExecuting (h : d.Rests) : d.consumer.isExecuting = false := by
  rcases h with h | ⟨h, -⟩ <;> rw [h] <;> rfl

theorem Rests.owed (h : d.Rests) : d.consumer.owed = [] := by
  rcases h with h | ⟨h, -⟩ <;> rw [h] <;> rfl

/-- Up to a relation, answers and instrument are those of executing the requests one after the
other. -/
def InTurn (setup : Setup β δ) (R : Instrument β δ → Instrument β δ → Prop) (x₀ : Instrument β δ)
    (d : ActionServer β δ) (answered : List Action) (dispatches : List Dispatch) : Prop :=
  (d.consumer.isExecuting = false →
    UpTo R (answered.foldl (Action.answer setup) ([], x₀)) (dispatches, d.instrument)) ∧
  (d.Rests → UpTo R (handleActions setup d.entered x₀) (dispatches, d.instrument))

theorem Keeps.inTurn (h : d.Keeps setup left x₀ answered dispatches)
    {R : Instrument β δ → Instrument β δ → Prop} (hR : left R) :
    d.InTurn setup R x₀ answered dispatches := by
  have hfold : d.consumer.isExecuting = false →
      UpTo R (answered.foldl (Action.answer setup) ([], x₀)) (dispatches, d.instrument) := by
    intro hconsumer
    have hagrees := h.agrees R hR
    cases hpoint : d.consumer <;> rw [hpoint] at hagrees hconsumer
    case executing => cases hconsumer
    all_goals exact hagrees
  refine ⟨hfold, fun hrests => ?_⟩
  have hhandled : handleActions setup d.entered x₀ =
      d.beforeClose.foldl (Action.answer setup) ([], x₀) :=
    Action.handleActions_eq_foldl setup d.entered [] x₀
  rw [hhandled, ← h.eq_beforeClose hrests]
  exact hfold hrests.isExecuting

/-- The queue keeps its order, however readers, other users of the queue, the consumer and other
users of the instrument take their steps. Of the entries before the first one that closes the queue,
the consumer has answered those at the front, each as it asks for and with one call that sends the
answer, followed by one that closes the connection just if sending fails; what it still owes is the
rest of the last answer. It comes to rest when it is left to itself, and then it has answered all of
them. As long as nobody else changes the instrument, the answers and the instrument are those of
executing the requests one after the other. So are the answers, the board and the owner of the ADC
while no session runs and none is asked for, whoever comes, goes and stops meanwhile. The answers of
a connection correspond to what its framer handed out, message by message and error by error. -/
theorem serves_in_order {acts : List (ActionServerAct β δ)}
    (hrun : run setup acts (fresh limit x₀) = some d) :
    ∃ answered dispatches,
      answered <+: d.beforeClose ∧
      List.Forall₂ (Action.AnsweredBy setup) answered dispatches ∧
      d.calls ++ d.consumer.owed = dispatches.flatMap Dispatch.calls ∧
      (d.Rests → answered = d.beforeClose ∧ d.calls = dispatches.flatMap Dispatch.calls) ∧
      (∃ count last, run setup (List.replicate count .consume) d = some last ∧ last.Rests ∧
        last.entered = d.entered) ∧
      ((∀ act ∈ acts, act.Leaves Eq) → d.InTurn setup Eq x₀ answered dispatches) ∧
      ((∀ act ∈ acts, act.Leaves Instrument.Alike) →
        (∀ action ∈ d.entered, ∀ item ∈ action.items, item.request.startsNothing = true) →
        d.InTurn setup Instrument.Alike x₀ answered dispatches) ∧
      ∀ id, (∀ act ∈ acts, act.Spares id) →
        List.Forall₂ (fun result dispatch => ∃ action,
            (∃ reachable, action = Action.ofFrame ⟨id, reachable⟩ result) ∧
            action.AnsweredBy setup dispatch)
          ((Framer.run (acts.filterMap (ActionServerAct.framerCall? id)) (.empty limit)).1.take
            (answered.filter (Action.isFor id)).length)
          (dispatches.filter fun dispatch => dispatch.recipient.connection = id) := by
  obtain ⟨answered, dispatches, hkeeps⟩ :=
    (keeps_fresh setup (fun R => d.Blinds setup R ∧ ∀ act ∈ acts, act.Leaves R)
      (fun _ hR => hR.1.refl) limit x₀).run (fun _ => id) hrun
  refine ⟨answered, dispatches, ?_, hkeeps.answers, hkeeps.calls, ?_, exists_rests setup d, ?_, ?_,
    ?_⟩
  · obtain ⟨later, hentered⟩ := hkeeps.exists_later
    rw [hkeeps.beforeClose_eq hentered]
    exact List.prefix_append _ _
  · intro hrests
    have hcalls := hkeeps.calls
    rw [hrests.owed, List.append_nil] at hcalls
    exact ⟨hkeeps.eq_beforeClose hrests, hcalls⟩
  · exact fun hleaves => hkeeps.inTurn ⟨blinds_eq setup d, hleaves⟩
  · exact fun hleaves hentries =>
      hkeeps.inTurn ⟨⟨_, blind_alike setup, hentries⟩, hleaves⟩
  · intro id hspares
    exact hkeeps.answers_of_relays ((relays_fresh limit id x₀).run hspares hrun)

/-- Two clients at once. The first one sends a message of unknown type, then an empty query, and its
second answer does not reach it; the request of the second one drives digital outputs, and while it
waits a streaming connection comes. A third entry of the first one comes after the queue was
closed. -/
def twoClients : List (ActionServerAct SimulatedBoard SimulatedDma) :=
  [.reader ⟨1⟩ .look, .reader ⟨2⟩ .look,
    .reader ⟨1⟩ (.arrive [0x5A, 0, 0, 0, 0, 0, 0x51, 0, 0, 0]), .reader ⟨1⟩ .frame,
    .reader ⟨2⟩ (.arrive [0x43, 8, 0, 0, 0, 5, 0x20, 4, 0, 5, 0, 0, 0, 0]),
    .reader ⟨1⟩ (.enter true), .reader ⟨2⟩ .frame, .consume, .reader ⟨2⟩ (.enter true),
    .others fun x => (x.registerEndpoint ⟨3⟩ (.fresh none)).2,
    .reader ⟨1⟩ .frame, .reader ⟨1⟩ .look, .consume,
    .reader ⟨1⟩ (.arrive [0, 0, 0x51, 0, 0, 0, 0, 0]), .reader ⟨1⟩ .frame,
    .reader ⟨1⟩ (.enter false), .push .close, .reader ⟨1⟩ .frame, .reader ⟨1⟩ (.enter true)] ++
  List.replicate 10 .consume

theorem leaves_twoClients : ∀ act ∈ twoClients, act.Leaves Instrument.Alike := by
  simp [twoClients, ActionServerAct.Leaves, Instrument.alike_registerEndpoint]

theorem twoClients_in_order :
    ∃ d, run Instrument.smallSetup twoClients (fresh 64 (.idle .powerOn .powerOn)) = some d ∧
      d.Rests ∧ d.entered.length = 5 ∧ d.instrument.board.peek Register.dioOutput = 5 ∧
      d.calls.map SinkCall.outline = [(1, false), (2, false), (1, false), (1, true)] ∧
      ∃ dispatches,
        List.Forall₂ (Action.AnsweredBy Instrument.smallSetup) d.beforeClose dispatches ∧
        d.calls = dispatches.flatMap Dispatch.calls ∧
        UpTo Instrument.Alike
          (handleActions Instrument.smallSetup d.entered (.idle .powerOn .powerOn))
          (dispatches, d.instrument) ∧
        (dispatches.filter fun dispatch => dispatch.recipient.connection = ⟨1⟩).length = 2 := by
  have hsummary : ((run Instrument.smallSetup twoClients
      (fresh 64 (.idle .powerOn .powerOn))).map fun d =>
        ((d.consumer.isGone, d.entered.length, (d.beforeClose.filter (Action.isFor ⟨1⟩)).length),
          (d.instrument.board.peek Register.dioOutput, d.calls.map SinkCall.outline),
          d.entered.all fun action => action.items.all fun item => item.request.startsNothing)) =
      some ((true, 5, 2), (5, [(1, false), (2, false), (1, false), (1, true)]), true) := by
    decide +kernel
  obtain ⟨d, hrun, hd⟩ := Option.map_eq_some_iff.mp hsummary
  simp only [Prod.mk.injEq] at hd
  obtain ⟨⟨hgone, hentered, htwo⟩, ⟨houtput, hcalls⟩, hquiet⟩ := hd
  have hrests : d.Rests := .inl (ConsumerPoint.eq_gone_of_isGone hgone)
  have hspares : ∀ act ∈ twoClients, act.Spares ⟨1⟩ := by
    simp [twoClients, ActionServerAct.Spares, Action.isFor]
  obtain ⟨answered, dispatches, -, hanswers, -, hrest, -, -, hturn, hrelays⟩ :=
    serves_in_order hrun
  obtain ⟨rfl, hsent⟩ := hrest hrests
  have hinTurn := hturn leaves_twoClients fun action haction =>
    List.all_eq_true.mp (List.all_eq_true.mp hquiet action haction)
  have hone := (hrelays ⟨1⟩ hspares).length_eq
  rw [htwo] at hone
  exact ⟨d, hrun, hrests, hentered, houtput, hcalls, dispatches, hanswers, hsent,
    hinTurn.2 hrests, hone.symm.trans (by decide +kernel)⟩

end Promises

end ActionServer

end DaqServer
