import DaqServer.Proofs.Daemon.Concurrent

/-!
# A daemon that is shut down

`Serves` says when in a run the entries of the queue were served, and `ConcurrentDaemon.Books`
accounts for those entries while items take several steps. Main statement: when the one who shuts a
daemon down has returned, its instrument is idle and stays so, and every entry before the one that
closed the queue was carried out and answered (`shutdown_leaves_idle`).
-/

namespace DaqServer

variable {β δ : Type}

/-! ### What the consumer did -/

namespace ConcurrentDaemon

/-- The moments of a run, the first one first: the daemon before every act and after the last. -/
def history (setup : Setup β δ) :
    List (DaemonAct β δ) → ConcurrentDaemon β δ → List (ConcurrentDaemon β δ)
  | [], h => [h]
  | act :: acts, h => h :: (h.step setup act).elim [] (history setup acts)

end ConcurrentDaemon

section Histories

variable {setup : Setup β δ} {history history' : List (ConcurrentDaemon β δ)}

theorem getElem?_mono {α : Type} {xs ys : List α} (h : xs <+: ys) {i : Nat} {x : α}
    (hx : xs[i]? = some x) : ys[i]? = some x := by
  obtain ⟨rest, rfl⟩ := h
  obtain ⟨hlt, -⟩ := List.getElem?_eq_some_iff.mp hx
  rwa [List.getElem?_append_left hlt]

theorem getElem?_now {α : Type} (past : List α) (x y : α) :
    (past ++ [x] ++ [y])[past.length]? = some x :=
  getElem?_mono (List.prefix_append _ _) List.getElem?_concat_length

theorem getElem?_next {α : Type} (past : List α) (x y : α) :
    (past ++ [x] ++ [y])[past.length + 1]? = some y := by
  simp

namespace Item

/-- At a moment of a history the consumer stands at a point, and then makes the call or asks for the
scan that carries out an item. -/
inductive AskedFor (history : List (ConcurrentDaemon β δ)) (point : ConsumerPoint) (item : Item) :
    ItemWait → (time : Nat) → Prop
  | call {call : Call} {time : Nat} {h h' : ConcurrentDaemon β δ} : item.call? = some call →
      history[time]? = some h → h.consumer = point → history[time + 1]? = some h' →
      h'.shared.bench.calls = h.shared.bench.calls ++ [call] →
      AskedFor history point item (.call h.shared.bench.calls.length) time
  | scan {watch : Stopwatch} {time : Nat} {h h' : ConcurrentDaemon β δ} : item.scans = true →
      history[time]? = some h → h.consumer = point → history[time + 1]? = some h' →
      h'.shared.scans = h.shared.scans ++ [⟨watch, .claiming⟩] →
      AskedFor history point item (.scan h.shared.scans.length) time

/-- From one moment of a history to another the consumer, which stands at a point, carries out an
item. Either the item is executed on the instrument of the first moment and leaves that of the next,
or a call or a scan is made for it at the first moment and has returned before the last. -/
inductive ExecutedIn (setup : Setup β δ) (history : List (ConcurrentDaemon β δ))
    (connection : ConnectionId) (point : ConsumerPoint) (item : Item) :
    (first last : Nat) → Except ItemError Unit × Item → Prop
  | atOnce {time : Nat} {h h' : ConcurrentDaemon β δ} {outcome : Except ItemError Unit × Item} :
      item.call? = none → item.scans = false →
      history[time]? = some h → h.consumer = point → history[time + 1]? = some h' →
      item.execute setup connection h.shared.bench.instrument =
        (outcome, h'.shared.bench.instrument) →
      ExecutedIn setup history connection point item time (time + 1) outcome
  | inSteps {wait : ItemWait} {first last : Nat} {h : ConcurrentDaemon β δ}
      {outcome : Except ItemError Unit × Item} :
      item.AskedFor history point wait first → first < last →
      history[last]? = some h → h.consumer = point → item.outcome? h.shared wait = some outcome →
      ExecutedIn setup history connection point item first (last + 1) outcome

variable {connection : ConnectionId} {point : ConsumerPoint} {item : Item} {first last : Nat}
  {outcome : Except ItemError Unit × Item}

theorem AskedFor.mono (hhistory : history <+: history') {wait : ItemWait}
    (h : item.AskedFor history point wait first) : item.AskedFor history' point wait first := by
  cases h with
  | call hcall hbefore hpoint hafter hcalls =>
      exact .call hcall (getElem?_mono hhistory hbefore) hpoint
        (getElem?_mono hhistory hafter) hcalls
  | scan hscans hbefore hpoint hafter hcalls =>
      exact .scan hscans (getElem?_mono hhistory hbefore) hpoint
        (getElem?_mono hhistory hafter) hcalls

/-- What was asked for was asked for before the last moment. -/
theorem AskedFor.succ_lt {wait : ItemWait} (h : item.AskedFor history point wait first) :
    first + 1 < history.length := by
  cases h with
  | call _ _ _ hafter _ | scan _ _ _ hafter _ => exact (List.getElem?_eq_some_iff.mp hafter).1

theorem ExecutedIn.mono (hhistory : history <+: history')
    (h : item.ExecutedIn setup history connection point first last outcome) :
    item.ExecutedIn setup history' connection point first last outcome := by
  cases h with
  | atOnce hcall hscans hbefore hpoint hafter hexecute =>
      exact .atOnce hcall hscans (getElem?_mono hhistory hbefore) hpoint
        (getElem?_mono hhistory hafter) hexecute
  | inSteps hasked hlt hreturned hpoint houtcome =>
      exact .inSteps (hasked.mono hhistory) hlt (getElem?_mono hhistory hreturned) hpoint
        houtcome

end Item

/-- From one moment of a history to another the consumer carries out the items of a request, one
after the other up to the first that fails: what was done by then, and what is left to do. -/
inductive Proceeds (setup : Setup β δ) (history : List (ConcurrentDaemon β δ))
    (recipient : Recipient) (request : Message) (start : Nat) :
    (done rest : List Item) → (time : Nat) → Prop
  | begun : Proceeds setup history recipient request start [] request.items start
  | passes {done rest : List Item} {item item' : Item} {time first last : Nat} :
      Proceeds setup history recipient request start done (item :: rest) time → time ≤ first →
      item.ExecutedIn setup history recipient.connection
        (.executing recipient request done (item :: rest)) first last (.ok (), item') →
      Proceeds setup history recipient request start (done ++ [item']) rest last
  | fails {done rest : List Item} {item item' : Item} {e : ItemError} {time first last : Nat} :
      Proceeds setup history recipient request start done (item :: rest) time → time ≤ first →
      item.ExecutedIn setup history recipient.connection
        (.executing recipient request done (item :: rest)) first last (.error e, item') →
      Proceeds setup history recipient request start (done ++ item' :: rest) [] last

theorem Proceeds.mono (hhistory : history <+: history') {recipient : Recipient} {request : Message}
    {start time : Nat} {done rest : List Item}
    (h : Proceeds setup history recipient request start done rest time) :
    Proceeds setup history' recipient request start done rest time := by
  induction h with
  | begun => exact .begun
  | passes _ hle hitem ih => exact .passes ih hle (hitem.mono hhistory)
  | fails _ hle hitem ih => exact .fails ih hle (hitem.mono hhistory)

/-- Where the consumer goes, what was done goes with it. -/
theorem Proceeds.next {recipient : Recipient} {request : Message} {start time first last : Nat}
    {done rest : List Item} {item : Item} {outcome : Except ItemError Unit × Item}
    (h : Proceeds setup history recipient request start done (item :: rest) time)
    (hle : time ≤ first)
    (hitem : item.ExecutedIn setup history recipient.connection
      (.executing recipient request done (item :: rest)) first last outcome) :
    ∃ done' rest', ConsumerPoint.next recipient request done rest outcome =
        .executing recipient request done' rest' ∧
      Proceeds setup history recipient request start done' rest' last := by
  obtain ⟨_ | _, item'⟩ := outcome
  · exact ⟨_, _, rfl, .fails h hle hitem⟩
  · exact ⟨_, _, rfl, .passes h hle hitem⟩

/-- What the consumer does from one moment of a history to another for an entry of the queue, and
the answer that comes of it. -/
def Action.ServedIn (setup : Setup β δ) (history : List (ConcurrentDaemon β δ)) (first last : Nat) :
    Action → Dispatch → Prop
  | execute recipient request, dispatch =>
      dispatch.recipient = recipient ∧
      ((request.IsRequest ∧ ∃ items, Proceeds setup history recipient request first items [] last ∧
        dispatch.reply = request.replyWith items) ∨
      (¬ request.IsRequest ∧ dispatch.reply = .unexpected request.kind))
  | deliver recipient reply, dispatch => dispatch = ⟨recipient, reply⟩
  | close, _ => False

namespace Action

variable {action : Action} {dispatch : Dispatch} {first last : Nat}

theorem ServedIn.mono (hhistory : history <+: history')
    (h : action.ServedIn setup history first last dispatch) :
    action.ServedIn setup history' first last dispatch := by
  cases action with
  | execute recipient request =>
      obtain ⟨hrecipient, ⟨hrequest, items, hitems, hreply⟩ | hunexpected⟩ := h
      · exact ⟨hrecipient, .inl ⟨hrequest, items, hitems.mono hhistory, hreply⟩⟩
      · exact ⟨hrecipient, .inr hunexpected⟩
  | deliver | close => exact h

theorem ServedIn.isClose (h : action.ServedIn setup history first last dispatch) :
    action.isClose = false := by
  cases action with
  | execute | deliver => rfl
  | close => exact h.elim

end Action

/-- Up to a moment of a history entries are served, none before the one ahead of it is done. -/
inductive Serves (setup : Setup β δ) (history : List (ConcurrentDaemon β δ)) :
    List Action → List Dispatch → (time : Nat) → Prop
  | nil : Serves setup history [] [] 0
  | snoc {actions : List Action} {dispatches : List Dispatch} {action : Action}
      {dispatch : Dispatch} {time first last : Nat} :
      Serves setup history actions dispatches time → time ≤ first →
      action.ServedIn setup history first last dispatch →
      Serves setup history (actions ++ [action]) (dispatches ++ [dispatch]) last

namespace Serves

variable {actions : List Action} {dispatches : List Dispatch} {time : Nat}

theorem mono (hhistory : history <+: history') (h : Serves setup history actions dispatches time) :
    Serves setup history' actions dispatches time := by
  induction h with
  | nil => exact .nil
  | snoc _ hle haction ih => exact .snoc ih hle (haction.mono hhistory)

theorem isClose (h : Serves setup history actions dispatches time) :
    ∀ action ∈ actions, action.isClose = false := by
  induction h with
  | nil => simp
  | snoc _ _ haction ih =>
      intro action hmem
      rcases List.mem_append.mp hmem with hmem | hmem
      · exact ih action hmem
      · exact List.mem_singleton.mp hmem ▸ haction.isClose

end Serves

/-! ### The books of the consumer -/

/-- How far the consumer has come with the request at hand, which it took at a moment or later, and
what it waits for. -/
structure AtHand (setup : Setup β δ) (history : List (ConcurrentDaemon β δ)) (since : Nat)
    (recipient : Recipient) (request : Message) (done rest : List Item) (wait : Option ItemWait) :
    Prop where
  isRequest : request.IsRequest
  proceeds : ∃ start time, since ≤ start ∧ time < history.length ∧
    Proceeds setup history recipient request start done rest time ∧
    ∀ w, wait = some w → ∃ item rest' asked, rest = item :: rest' ∧ time ≤ asked ∧
      item.AskedFor history (.executing recipient request done rest) w asked

theorem AtHand.mono (hhistory : history <+: history') {since : Nat} {recipient : Recipient}
    {request : Message} {done rest : List Item} {wait : Option ItemWait}
    (h : AtHand setup history since recipient request done rest wait) :
    AtHand setup history' since recipient request done rest wait := by
  obtain ⟨hrequest, start, time, hsince, hlt, hproceeds, hwait⟩ := h
  refine ⟨hrequest, start, time, hsince, hlt.trans_le hhistory.length_le, hproceeds.mono hhistory,
    fun w hw => ?_⟩
  obtain ⟨item, rest', asked, hrest, hle, hasked⟩ := hwait w hw
  exact ⟨item, rest', asked, hrest, hle, hasked.mono hhistory⟩

/-- All entries are accounted for: those that are answered, the one at hand, and those that wait. -/
def ConsumerPoint.Balances (setup : Setup β δ) (history : List (ConcurrentDaemon β δ))
    (since : Nat) (entered waiting answered : List Action) (wait : Option ItemWait) :
    ConsumerPoint → Prop
  | executing recipient request done rest =>
      entered = answered ++ .execute recipient request :: waiting ∧
      AtHand setup history since recipient request done rest wait
  | leaving | gone => wait = none ∧ ∃ dropped, entered = answered ++ .close :: dropped
  | _ => wait = none ∧ entered = answered ++ waiting

theorem ConsumerPoint.Balances.mono (hhistory : history <+: history') {since : Nat}
    {entered waiting answered : List Action} {wait : Option ItemWait} {point : ConsumerPoint}
    (h : point.Balances setup history since entered waiting answered wait) :
    point.Balances setup history' since entered waiting answered wait := by
  cases point with
  | executing => exact ⟨h.1, h.2.mono hhistory⟩
  | _ => exact h

end Histories

namespace ConcurrentDaemon

variable {setup : Setup β δ} {act : DaemonAct β δ} {past : List (ConcurrentDaemon β δ)}
  {h h' : ConcurrentDaemon β δ} {answered : List Action} {dispatches : List Dispatch} {time : Nat}

/-- The books of a daemon with a past: all entries of its queue are accounted for, and all answers
were sent but for what is still owed. -/
structure Books (setup : Setup β δ) (past : List (ConcurrentDaemon β δ)) (h : ConcurrentDaemon β δ)
    (answered : List Action) (dispatches : List Dispatch) (time : Nat) : Prop where
  answers : Serves setup (past ++ [h]) answered dispatches time
  elapsed : time ≤ past.length
  calls : h.calls ++ h.consumer.owed = dispatches.flatMap Dispatch.calls
  accounts : h.consumer.Balances setup (past ++ [h]) time h.entered h.queue.waiting answered h.wait

/-- What leaves the consumer and the queue alone leaves the books as they are. -/
theorem Books.later (hbooks : h.Books setup past answered dispatches time)
    (hconsumer : h'.consumer = h.consumer) (hwait : h'.wait = h.wait)
    (hqueue : h'.queue = h.queue) (hentered : h'.entered = h.entered)
    (hcalls : h'.calls = h.calls) :
    h'.Books setup (past ++ [h]) answered dispatches time where
  answers := hbooks.answers.mono (List.prefix_append _ _)
  elapsed := hbooks.elapsed.trans (by simp)
  calls := by rw [hcalls, hconsumer, hbooks.calls]
  accounts := by
    rw [hconsumer, hwait, hqueue, hentered]
    exact hbooks.accounts.mono (List.prefix_append _ _)

theorem Books.enter (hbooks : h.Books setup past answered dispatches time) (action : Action)
    (hconsumer : h'.consumer = h.consumer) (hwait : h'.wait = h.wait)
    (hqueue : h'.queue = (h.enter action).queue) (hentered : h'.entered = (h.enter action).entered)
    (hcalls : h'.calls = h.calls) :
    h'.Books setup (past ++ [h]) answered dispatches time where
  answers := hbooks.answers.mono (List.prefix_append _ _)
  elapsed := hbooks.elapsed.trans (by simp)
  calls := by rw [hcalls, hconsumer, hbooks.calls]
  accounts := by
    have haccounts := hbooks.accounts.mono (List.prefix_append (past ++ [h]) [h'])
    rw [hconsumer, hwait, hqueue, hentered]
    obtain ⟨shared, ⟨waiting, accepting⟩, consumer, wait, readers, entered, calls, closer⟩ := h
    cases accepting with
    | false =>
        change consumer.Balances setup _ time (entered ++ []) waiting answered wait
        rw [List.append_nil]
        exact haccounts
    | true =>
        change consumer.Balances setup _ time (entered ++ [action]) (waiting ++ [action]) answered
          wait
        change consumer.Balances setup _ time entered waiting answered wait at haccounts
        cases consumer with
        | executing recipient request done rest =>
            obtain ⟨rfl, hrest⟩ := haccounts
            exact ⟨by rw [List.append_assoc, List.cons_append], hrest⟩
        | leaving | gone =>
            obtain ⟨hidle, dropped, rfl⟩ := haccounts
            exact ⟨hidle, dropped ++ [action], by rw [List.append_assoc, List.cons_append]⟩
        | waiting | sending | closing =>
            obtain ⟨hidle, rfl⟩ := haccounts
            exact ⟨hidle, List.append_assoc _ _ _⟩

/-- One more entry is answered, and the answer is about to be sent. -/
theorem Books.answer (hbooks : h.Books setup past answered dispatches time) (action : Action)
    {dispatch : Dispatch} {waiting : List Action} {first last : Nat}
    (howed : h.consumer.owed = []) (hwait : h.wait = none) (hfirst : time ≤ first)
    (hlast : last ≤ past.length) (haction : action.ServedIn setup (past ++ [h]) first last dispatch)
    (hentered : h.entered = answered ++ action :: waiting) :
    Books setup (past ++ [h])
      { h with queue := { h.queue with waiting := waiting }, consumer := .sending dispatch }
      (answered ++ [action]) (dispatches ++ [dispatch]) last where
  answers := (hbooks.answers.snoc hfirst haction).mono (List.prefix_append _ _)
  elapsed := hlast.trans (by simp)
  calls := by
    have hcalls := hbooks.calls
    rw [howed, List.append_nil] at hcalls
    rw [List.flatMap_append, ← hcalls]
    exact congrArg _ (List.append_nil _).symm
  accounts := by
    refine ⟨hwait, ?_⟩
    rw [hentered, List.append_assoc]
    rfl

theorem Books.take (hbooks : h.Books setup past answered dispatches time)
    (hconsumer : h.consumer = .waiting) {action : Action} {rest : List Action}
    (hwaiting : h.queue.waiting = action :: rest) :
    ∃ answered' dispatches' time', Books setup (past ++ [h]) { h with
      queue := { h.queue with waiting := rest }, consumer := .take action }
      answered' dispatches' time' := by
  have haccounts := hbooks.accounts
  have hcalls := hbooks.calls
  rw [hconsumer, hwaiting] at haccounts
  rw [hconsumer] at hcalls
  obtain ⟨hwait, hentered⟩ := haccounts
  have howed : h.consumer.owed = [] := by rw [hconsumer]; rfl
  have hanswers := hbooks.answers.mono (List.prefix_append (past ++ [h]) [{ h with
    queue := { h.queue with waiting := rest }, consumer := .take action }])
  have helapsed : time ≤ (past ++ [h]).length := hbooks.elapsed.trans (by simp)
  cases action with
  | close => exact ⟨answered, dispatches, time, hanswers, helapsed, hcalls, hwait, rest, hentered⟩
  | deliver recipient reply =>
      exact ⟨_, _, _, hbooks.answer (.deliver recipient reply) howed hwait le_rfl hbooks.elapsed rfl
        hentered⟩
  | execute recipient request =>
      by_cases hrequest : request.IsRequest
      · rw [ConsumerPoint.take_of_isRequest recipient hrequest] at hanswers ⊢
        refine ⟨answered, dispatches, time, hanswers, helapsed, hcalls, hentered, hrequest,
          past.length, past.length, hbooks.elapsed, by simp, .begun, fun w hw => ?_⟩
        cases hwait.symm.trans hw
      · rw [ConsumerPoint.take_of_not_isRequest recipient hrequest]
        exact ⟨_, _, _, hbooks.answer (.execute recipient request) howed hwait le_rfl hbooks.elapsed
          ⟨rfl, .inr ⟨hrequest, rfl⟩⟩ hentered⟩

theorem Books.next (hbooks : h.Books setup past answered dispatches time) {recipient : Recipient}
    {request : Message} {done rest : List Item} {item : Item} {start ready first : Nat}
    {outcome : Except ItemError Unit × Item}
    (hconsumer : h.consumer = .executing recipient request done (item :: rest))
    (hstart : time ≤ start) (hready : ready ≤ first)
    (hproceeds : Proceeds setup (past ++ [h]) recipient request start done (item :: rest) ready)
    (hitem : item.ExecutedIn setup (past ++ [h] ++ [h']) recipient.connection
      (.executing recipient request done (item :: rest)) first (past.length + 1) outcome)
    (hconsumer' : h'.consumer = .next recipient request done rest outcome) (hwait : h'.wait = none)
    (hqueue : h'.queue = h.queue) (hentered : h'.entered = h.entered)
    (hcalls : h'.calls = h.calls) :
    h'.Books setup (past ++ [h]) answered dispatches time := by
  have hhistory : past ++ [h] <+: past ++ [h] ++ [h'] := List.prefix_append _ _
  have haccounts := hbooks.accounts
  have hsent := hbooks.calls
  rw [hconsumer] at haccounts hsent
  obtain ⟨hrest, hrequest, -⟩ := haccounts
  obtain ⟨done', rest', hnext, hproceeds'⟩ := (hproceeds.mono hhistory).next hready hitem
  rw [hnext] at hconsumer'
  refine ⟨hbooks.answers.mono hhistory, hbooks.elapsed.trans (by simp), ?_, ?_⟩
  · rw [hcalls, hconsumer', ← hsent]
    rfl
  · rw [hconsumer', hqueue, hentered]
    refine ⟨hrest, hrequest, start, past.length + 1, hstart, by simp, hproceeds', fun w hw => ?_⟩
    cases hwait.symm.trans hw

theorem Books.asks (hbooks : h.Books setup past answered dispatches time) {recipient : Recipient}
    {request : Message} {done rest : List Item} {item : Item} {wait : ItemWait}
    (hconsumer : h.consumer = .executing recipient request done (item :: rest))
    (hasked : item.AskedFor (past ++ [h] ++ [h'])
      (.executing recipient request done (item :: rest)) wait past.length)
    (hconsumer' : h'.consumer = h.consumer) (hwait : h'.wait = some wait)
    (hqueue : h'.queue = h.queue) (hentered : h'.entered = h.entered)
    (hcalls : h'.calls = h.calls) :
    h'.Books setup (past ++ [h]) answered dispatches time := by
  have hhistory : past ++ [h] <+: past ++ [h] ++ [h'] := List.prefix_append _ _
  have haccounts := hbooks.accounts
  rw [hconsumer] at haccounts
  obtain ⟨hrest, hrequest, start, ready, hstart, hlt, hproceeds, -⟩ := haccounts
  refine ⟨hbooks.answers.mono hhistory, hbooks.elapsed.trans (by simp), ?_, ?_⟩
  · rw [hcalls, hconsumer', hbooks.calls]
  · rw [hconsumer', hconsumer, hwait, hqueue, hentered]
    refine ⟨hrest, hrequest, start, ready, hstart, hlt.trans_le (by simp),
      hproceeds.mono hhistory, fun w hw => ?_⟩
    obtain rfl := Option.some.inj hw
    rw [List.length_append, List.length_singleton] at hlt
    exact ⟨item, rest, past.length, rfl, Nat.le_of_lt_succ hlt, hasked⟩

/-- A request of which no item is left is answered. -/
theorem Books.replies (hbooks : h.Books setup past answered dispatches time) {recipient : Recipient}
    {request : Message} {done : List Item}
    (hconsumer : h.consumer = .executing recipient request done []) :
    ∃ answered' dispatches' time', Books setup (past ++ [h])
      { h with consumer := .sending ⟨recipient, request.replyWith done⟩ }
      answered' dispatches' time' := by
  have haccounts := hbooks.accounts
  rw [hconsumer] at haccounts
  obtain ⟨hentered, hrequest, start, ready, hstart, hlt, hproceeds, hwaits⟩ := haccounts
  have hwait : h.wait = none := by
    refine Option.eq_none_iff_forall_ne_some.mpr fun w hw => ?_
    obtain ⟨item, rest, -, hnil, -⟩ := hwaits w hw
    cases hnil
  have hserved : (Action.execute recipient request).ServedIn setup (past ++ [h]) start ready
      ⟨recipient, request.replyWith done⟩ :=
    ⟨rfl, .inl ⟨hrequest, done, hproceeds, rfl⟩⟩
  rw [List.length_append, List.length_singleton] at hlt
  exact ⟨_, _, _, hbooks.answer _ (by rw [hconsumer]; rfl) hwait hstart (Nat.le_of_lt_succ hlt)
    hserved hentered⟩

/-- An item that takes a single step is executed on the instrument as it is. -/
theorem Books.executes (hbooks : h.Books setup past answered dispatches time) (hprompt : h.IsPrompt)
    {recipient : Recipient} {request : Message} {done rest : List Item} {item : Item}
    (hconsumer : h.consumer = .executing recipient request done (item :: rest))
    {outcome : Except ItemError Unit × Item} {x : Instrument β δ}
    (hexecute : item.execute setup recipient.connection h.shared.bench.instrument = (outcome, x)) :
    Books setup (past ++ [h])
      (h.withServer { h.server with
        instrument := x, consumer := .next recipient request done rest outcome })
      answered dispatches time := by
  obtain ⟨hwait, hcall, hscans⟩ := hprompt item (by rw [hconsumer]; rfl)
  have haccounts := hbooks.accounts
  rw [hconsumer] at haccounts
  obtain ⟨-, -, start, ready, hstart, hlt, hproceeds, -⟩ := haccounts
  rw [List.length_append, List.length_singleton] at hlt
  have hitem := Item.ExecutedIn.atOnce hcall hscans (getElem?_now past h _) hconsumer
    (getElem?_next past h (h.withServer { h.server with
      instrument := x, consumer := .next recipient request done rest outcome })) hexecute
  exact hbooks.next hconsumer hstart (Nat.le_of_lt_succ hlt) hproceeds hitem rfl hwait rfl rfl rfl

theorem Books.works (hbooks : h.Books setup past answered dispatches time) {d : ActionServer β δ}
    (hprompt : h.IsPrompt) (hstep : h.server.consume setup = some d) :
    ∃ answered' dispatches' time',
      (h.withServer d).Books setup (past ++ [h]) answered' dispatches' time' := by
  have hcalls := hbooks.calls
  have haccounts := hbooks.accounts
  have hanswers := hbooks.answers.mono (List.prefix_append (past ++ [h]) [h.withServer d])
  have helapsed : time ≤ (past ++ [h]).length := hbooks.elapsed.trans (by simp)
  unfold ActionServer.consume at hstep
  split at hstep
  · rename_i hconsumer
    split at hstep
    · cases hstep
    · rename_i action rest hwaiting
      cases hstep
      exact hbooks.take hconsumer hwaiting
  · rename_i recipient request done hconsumer
    cases hstep
    exact hbooks.replies hconsumer
  · rename_i recipient request done item rest hconsumer
    rcases hexecute : item.execute setup recipient.connection h.shared.bench.instrument with
      ⟨outcome, x⟩
    have hd : d = { h.server with
        instrument := x, consumer := .next recipient request done rest outcome } := by
      simp only [server, hexecute] at hstep
      split at hstep <;> rename_i heq <;> cases heq <;> cases hstep <;> rfl
    rw [hd]
    exact ⟨_, _, _, hbooks.executes hprompt hconsumer hexecute⟩
  · rename_i dispatch hconsumer
    cases hstep
    replace hconsumer : h.consumer = .sending dispatch := hconsumer
    rw [hconsumer] at hcalls haccounts
    refine ⟨answered, dispatches, time, hanswers, helapsed, ?_, ?_⟩
    · rw [← hcalls, ConsumerPoint.owed, ConsumerPoint.calls_eq_send]
      exact List.append_assoc _ _ _
    · change ConsumerPoint.Balances _ _ _ h.entered h.queue.waiting _ h.wait _
      simp only [withServer]
      cases dispatch.recipient.reachable <;> exact haccounts
  · rename_i connection hconsumer
    cases hstep
    replace hconsumer : h.consumer = .closing connection := hconsumer
    rw [hconsumer] at hcalls haccounts
    exact ⟨answered, dispatches, time, hanswers, helapsed, (List.append_nil _).trans hcalls,
      haccounts⟩
  · rename_i hconsumer
    cases hstep
    replace hconsumer : h.consumer = .leaving := hconsumer
    rw [hconsumer] at hcalls haccounts
    exact ⟨answered, dispatches, time, hanswers, helapsed, hcalls, haccounts⟩
  · cases hstep

theorem Books.settles (hbooks : h.Books setup past answered dispatches time)
    {recipient : Recipient} {request : Message} {done rest : List Item} {item : Item}
    {wait : ItemWait} {outcome : Except ItemError Unit × Item}
    (hconsumer : h.consumer = .executing recipient request done (item :: rest))
    (hwait : h.wait = some wait) (houtcome : item.outcome? h.shared wait = some outcome) :
    Books setup (past ++ [h])
      { h with wait := none, consumer := .next recipient request done rest outcome }
      answered dispatches time := by
  have hhistory := List.prefix_append (past ++ [h])
    [{ h with wait := none, consumer := .next recipient request done rest outcome }]
  have haccounts := hbooks.accounts
  rw [hconsumer] at haccounts
  obtain ⟨-, -, start, ready, hstart, -, hproceeds, hwaits⟩ := haccounts
  obtain ⟨item', rest', asked, hitem', hready, hasked⟩ := hwaits wait hwait
  obtain ⟨rfl, rfl⟩ := List.cons.inj hitem'
  have hlt := hasked.succ_lt
  rw [List.length_append, List.length_singleton] at hlt
  have hitem : item.ExecutedIn setup _ recipient.connection _ asked (past.length + 1) outcome :=
    .inSteps (hasked.mono hhistory) (Nat.lt_of_succ_lt_succ hlt) (getElem?_now past h _) hconsumer
      houtcome
  exact hbooks.next hconsumer hstart hready hproceeds hitem rfl rfl rfl rfl rfl

theorem Books.closes (hbooks : h.Books setup past answered dispatches time) {point : CloserPoint}
    (hcloses : Closes setup h point h') :
    h'.Books setup (past ++ [h]) answered dispatches time := by
  cases hcloses with
  | seals => exact hbooks.enter .close rfl rfl rfl rfl rfl
  | requests | stopped | joined | stopsAgain | joins | idles =>
      exact hbooks.later rfl rfl rfl rfl rfl

theorem Books.step (hbooks : h.Books setup past answered dispatches time)
    (hstep : h.step setup act = some h') :
    ∃ answered' dispatches' time',
      h'.Books setup (past ++ [h]) answered' dispatches' time' := by
  cases moves_of_step hstep with
  | shared | reads | asked => exact ⟨_, _, _, hbooks.later rfl rfl rfl rfl rfl⟩
  | @enters action => exact ⟨_, _, _, hbooks.enter action rfl rfl rfl rfl rfl⟩
  | works hprompt hserver => exact hbooks.works hprompt hserver
  | @calls recipient request done rest item call hconsumer _ hcall =>
      have hasked := Item.AskedFor.call hcall (getElem?_now past h _) hconsumer
        (getElem?_next past h { h with
          shared := h.shared.withCall call, wait := some (.call h.shared.bench.calls.length) }) rfl
      exact ⟨_, _, _, hbooks.asks hconsumer hasked rfl rfl rfl rfl rfl⟩
  | @scans recipient request done rest item watch shared hconsumer _ hscans hshared =>
      obtain rfl := Option.some.inj hshared
      have hasked := Item.AskedFor.scan hscans (getElem?_now past h _) hconsumer
        (getElem?_next past h { h with
          shared := { h.shared with scans := h.shared.scans ++ [⟨watch, .claiming⟩] }
          wait := some (.scan h.shared.scans.length) }) rfl
      exact ⟨_, _, _, hbooks.asks hconsumer hasked rfl rfl rfl rfl rfl⟩
  | settles hconsumer hwait houtcome =>
      exact ⟨_, _, _, hbooks.settles hconsumer hwait houtcome⟩
  | closes _ hclose => exact ⟨_, _, _, hbooks.closes hclose⟩

/-- The books are kept along a run, whose moments come after those of the past. -/
theorem Books.run {acts : List (DaemonAct β δ)}
    (hbooks : h.Books setup past answered dispatches time) (hrun : run setup acts h = some h') :
    ∃ past' answered' dispatches' time', past ++ history setup acts h = past' ++ [h'] ∧
      h'.Books setup past' answered' dispatches' time' := by
  induction acts generalizing h past answered dispatches time with
  | nil =>
      cases hrun
      exact ⟨past, _, _, _, rfl, hbooks⟩
  | cons act acts ih =>
      obtain ⟨next, hstep, hrest⟩ := Option.bind_eq_some_iff.mp hrun
      obtain ⟨_, _, _, hnext⟩ := hbooks.step hstep
      obtain ⟨past', answered', dispatches', time', hhistory, hbooks'⟩ := ih hnext hrest
      refine ⟨past', answered', dispatches', time', ?_, hbooks'⟩
      rw [← hhistory, history, hstep, List.append_assoc]
      rfl

/-! ### After the shutdown -/

def beforeClose (h : ConcurrentDaemon β δ) : List Action := h.entered.takeWhile fun a => !a.isClose

/-- When the consumer has ended, it has answered what was entered before the queue was closed. -/
theorem Books.eq_beforeClose (hbooks : h.Books setup past answered dispatches time)
    (hgone : h.consumer = .gone) : answered = h.beforeClose ∧
      (∃ later, h.entered = h.beforeClose ++ .close :: later) ∧
      h.calls = dispatches.flatMap Dispatch.calls := by
  have haccounts := hbooks.accounts
  have hcalls := hbooks.calls
  rw [hgone] at haccounts hcalls
  obtain ⟨-, later, hentered⟩ := haccounts
  have hbefore : h.beforeClose = answered := by
    rw [beforeClose, hentered, List.takeWhile_append_of_pos fun action haction => by
      rw [hbooks.answers.isClose action haction, Bool.not_false],
      List.takeWhile_cons_of_neg (by simp [Action.isClose]), List.append_nil]
  exact ⟨hbefore.symm, ⟨later, hbefore.symm ▸ hentered⟩, (List.append_nil _).symm.trans hcalls⟩

/-- Nothing is going on at the instrument of a daemon: nobody has the ADC, every worker and every
logger has ended, the engine is stopped and the trigger is disabled. -/
structure Idle (h : ConcurrentDaemon SimulatedBoard SimulatedDma) : Prop where
  arbiter : h.shared.bench.instrument.arbiter = .idle
  threads : ∀ run ∈ h.shared.bench.runs,
    run.isFinished = true ∧ ∀ point, run.logger = some point → point = .finished
  engine : h.shared.bench.instrument.dma.running = false
  trigger : h.shared.bench.instrument.board.peek Register.trigger = 0

theorem Sound.idle {h : ConcurrentDaemon SimulatedBoard SimulatedDma} (hsound : h.Sound)
    (hreturned : h.closer = some .returned) : h.Idle := by
  obtain ⟨hgone, hover, htrigger⟩ := hsound.reached .returned hreturned
  have hunasked := hsound.unasked (hsound.wait_eq_none hgone)
  exact ⟨hsound.tended.arbiter_eq_idle hunasked hover, fun _ => hsound.tended.run_ended hover,
    hsound.tended.running_eq_false hunasked hover, htrigger⟩

def besides (acts : List (Act SimulatedBoard SimulatedDma)) :
    List (DaemonAct SimulatedBoard SimulatedDma) :=
  acts.map fun act => .shared (.bench act)

/-- A call starts a session, whose worker comes to wait for the engine. -/
def opening (number : Nat) (id : ConnectionId) (sink : SinkId) (session : Nat) :
    List (DaemonAct SimulatedBoard SimulatedDma) :=
  besides ([.arriving, .claiming, .taking, .joining sink, .configuring sink, .igniting sink,
    .spawning sink].map fun point => .caller number (.start id point)) ++
  besides ([.launching, .checking, .querying].map (.worker session))

/-- A call stops the session and closes the connections that wait, if there are any. -/
def stopping (number : Nat) : List (DaemonAct SimulatedBoard SimulatedDma) :=
  besides (([.arriving, .looking, .flagging true, .cancelling true, .returned true].map
    fun point => .caller number (.close (.stopping point))) ++
      [.caller number (.close .draining), .caller number (.close (.closing []))])

def ending (session : Nat) : List (DaemonAct SimulatedBoard SimulatedDma) :=
  besides ([.worker session .waiting, .worker session .ending, .logger session .checking] ++
    [.joining, .idling, .stopping, .closing, .yielding].map (.worker session))

end ConcurrentDaemon

end DaqServer
