import DaqServer.Proofs.Daemon.Concurrent
import DaqServer.Proofs.Scan.Steps
import DaqServer.Proofs.Stream.Alone
import DaqServer.Stream.Server

/-!
# A daemon where nobody interrupts

When the calls, scans and threads that are needed take their steps one right after the other, the
consumer of a daemon does what that of an action server does. Main statement: who shuts down such a
daemon does what `Daemon.shutdown` does as a whole (`ConcurrentDaemon.shutdown_alone`).
-/

namespace DaqServer

variable {β δ : Type} {setup : Setup β δ}

open Relation (ReflTransGen)

/-! ### Items -/

namespace Item

variable {item : Item}

theorem execute_of_pending (setup : Setup β δ) (connection : ConnectionId) (code : UInt16)
    (payload : Bytes) (request : Request) (x : Instrument β δ) :
    execute setup connection ⟨code, payload, request, .pending⟩ x =
      (settle ⟨code, payload, request, .pending⟩ (request.run setup connection x).1,
        (request.run setup connection x).2) := by
  rw [execute]
  rcases request.run setup connection x with ⟨e | result, y⟩ <;> rfl

/-- What comes of an item by a call that nobody interrupts is what carrying it out yields. -/
theorem call_ends {b : Bench β δ} {call : Call} (hcall : item.call? = some call)
    (connection : ConnectionId) (hlock : b.locked = false)
    (hjoined : b.instrument.arbiter.owner = none → b.instrument.isJoined) :
    ∃ call', item.ofCall? call' = some (item.execute setup connection b.instrument).1 ∧
      Bench.Ends setup call b call' (item.execute setup connection b.instrument).2 := by
  rw [call?.eq_def] at hcall
  split at hcall
  · rename_i code payload target
    cases hcall
    rw [execute_of_pending]
    refine ⟨_, ?_, Bench.start_ends hlock hjoined⟩
    change some _ = some _
    simp only [Request.run, ItemAction.acquisition]
    cases (b.instrument.startStream setup target).1 <;> rfl
  · cases hcall
    rw [execute_of_pending]
    exact ⟨_, rfl, Bench.stop_ends hlock⟩
  · cases hcall

/-- What comes of an item by a scan that nobody interrupts is what carrying it out yields. -/
theorem execute_of_scans (setup : Setup β δ) (connection : ConnectionId)
    (hscans : item.scans = true) (x : Instrument β δ) :
    item.ofScan? (.returned (x.scan setup).1) = some (item.execute setup connection x).1 ∧
      (item.execute setup connection x).2 = (x.scan setup).2 := by
  rw [scans.eq_def] at hscans
  split at hscans
  · rw [execute_of_pending]
    exact ⟨rfl, rfl⟩
  · cases hscans

end Item

/-! ### The queue of an action server -/

namespace ActionServer

def Consumes (setup : Setup β δ) (d d' : ActionServer β δ) : Prop := d.consume setup = some d'

variable {d : ActionServer β δ}

theorem items_alone (setup : Setup β δ) {recipient : Recipient} {request : Message}
    {done rest : List Item} (hconsumer : d.consumer = .executing recipient request done rest) :
    ReflTransGen (Consumes setup) d { d with
      instrument := (executeItems setup recipient.connection rest d.instrument).2
      consumer := .executing recipient request
        (done ++ (executeItems setup recipient.connection rest d.instrument).1) [] } := by
  induction rest generalizing d done with
  | nil =>
      rw [executeItems, List.append_nil, ← hconsumer]
  | cons item rest ih =>
      rw [executeItems]
      rcases hexecute : item.execute setup recipient.connection d.instrument with
        ⟨⟨_ | _, item'⟩, x⟩
      · refine .single ?_
        rw [Consumes, consume.eq_def]
        simp only [hconsumer, hexecute]
      · have hstep : Consumes setup d { d with
            instrument := x, consumer := .executing recipient request (done ++ [item']) rest } := by
          rw [Consumes, consume.eq_def]
          simp only [hconsumer, hexecute]
        have hrest := ih (d := { d with
          instrument := x, consumer := .executing recipient request (done ++ [item']) rest }) rfl
        rw [List.append_assoc] at hrest
        exact .head hstep hrest

theorem sending_alone (setup : Setup β δ) {dispatch : Dispatch}
    (hconsumer : d.consumer = .sending dispatch) :
    ∃ last, ReflTransGen (Consumes setup) d last ∧ last.consumer = .waiting ∧
      last.queue = d.queue ∧ last.instrument = d.instrument := by
  have hstep : Consumes setup d { d with
      calls := d.calls ++ [.send dispatch.recipient.connection dispatch.reply]
      consumer := if dispatch.recipient.reachable then .waiting
        else .closing dispatch.recipient.connection } := by
    rw [Consumes, consume.eq_def]
    simp only [hconsumer]
  cases hreachable : dispatch.recipient.reachable with
  | true =>
      rw [hreachable] at hstep
      exact ⟨_, .single hstep, rfl, rfl, rfl⟩
  | false =>
      rw [hreachable] at hstep
      exact ⟨_, .head hstep (.single rfl), rfl, rfl, rfl⟩

theorem entry_alone (setup : Setup β δ) {action : Action} {rest : List Action}
    (hconsumer : d.consumer = .waiting) (hwaiting : d.queue.waiting = action :: rest)
    (hopen : action.isClose = false) :
    ∃ last, ReflTransGen (Consumes setup) d last ∧ last.consumer = .waiting ∧
      last.queue.waiting = rest ∧
      last.instrument = (Action.answer setup ([], d.instrument) action).2 := by
  have htake : Consumes setup d { d with
      queue := { d.queue with waiting := rest }, consumer := .take action } := by
    rw [Consumes, consume.eq_def]
    simp only [hconsumer, hwaiting]
  cases action with
  | close => cases hopen
  | deliver recipient reply =>
      obtain ⟨last, hsteps, hlast, hqueue, hx⟩ := sending_alone setup
        (d := { d with
          queue := { d.queue with waiting := rest }, consumer := .sending ⟨recipient, reply⟩ }) rfl
      exact ⟨last, .head htake hsteps, hlast, by rw [hqueue], hx⟩
  | execute recipient request =>
      by_cases hrequest : request.IsRequest
      · rw [ConsumerPoint.take_of_isRequest recipient hrequest] at htake
        have hitems := items_alone setup (d := { d with
          queue := { d.queue with waiting := rest }
          consumer := .executing recipient request [] request.items }) rfl
        obtain ⟨last, hsteps, hlast, hqueue, hx⟩ := sending_alone setup
          (d := { d with
            instrument := (executeItems setup recipient.connection request.items d.instrument).2
            queue := { d.queue with waiting := rest }
            consumer := .sending ⟨recipient, request.replyWith
              (executeItems setup recipient.connection request.items d.instrument).1⟩ }) rfl
        refine ⟨last, .head htake (hitems.trans (.head rfl hsteps)), hlast, by rw [hqueue], ?_⟩
        rw [hx, Action.answer, Message.execute_of_isRequest hrequest]
      · rw [ConsumerPoint.take_of_not_isRequest recipient hrequest] at htake
        obtain ⟨last, hsteps, hlast, hqueue, hx⟩ := sending_alone setup
          (d := { d with
            queue := { d.queue with waiting := rest }
            consumer := .sending ⟨recipient, .unexpected request.kind⟩ }) rfl
        refine ⟨last, .head htake hsteps, hlast, by rw [hqueue], ?_⟩
        rw [hx, Action.answer, Message.execute_of_not_isRequest hrequest]

/-- What waits is answered up to the first entry that closes the queue, which there is. -/
theorem serve_alone (setup : Setup β δ) (hconsumer : d.consumer = .waiting)
    (hclosed : d.queue.waiting.any Action.isClose = true) :
    ∃ last, ReflTransGen (Consumes setup) d last ∧ last.consumer = .gone ∧
      last.instrument = (handleActions setup d.queue.waiting d.instrument).2 := by
  induction hwaiting : d.queue.waiting generalizing d with
  | nil =>
      rw [hwaiting] at hclosed
      cases hclosed
  | cons action rest ih =>
      cases hclose : action.isClose with
      | true =>
          cases action with
          | close =>
              have htake : Consumes setup d { d with
                  queue := { d.queue with waiting := rest }, consumer := .leaving } := by
                rw [Consumes, consume.eq_def]
                simp only [hconsumer, hwaiting]
                rfl
              exact ⟨_, .head htake (.single rfl), rfl, rfl⟩
          | execute | deliver => cases hclose
      | false =>
          obtain ⟨next, hsteps, hnext, hqueue, hx⟩ := entry_alone setup hconsumer hwaiting hclose
          rw [hwaiting, List.any_cons, hclose, Bool.false_or] at hclosed
          obtain ⟨last, hrest, hgone, hlast⟩ := ih hnext (hqueue.symm ▸ hclosed) hqueue
          refine ⟨last, hsteps.trans hrest, hgone, ?_⟩
          rw [hlast, hx]
          cases action with
          | close => cases hclose
          | execute | deliver => rfl

end ActionServer

/-! ### The consumer -/

namespace ConcurrentDaemon

variable {act : DaemonAct β δ} {h h' h'' : ConcurrentDaemon β δ}

def Comes (setup : Setup β δ) (h h' : ConcurrentDaemon β δ) : Prop :=
  ∃ acts, run setup acts h = some h'

theorem Comes.refl (h : ConcurrentDaemon β δ) : h.Comes setup h := ⟨[], rfl⟩

theorem Comes.head (hstep : h.step setup act = some h') (hrest : h'.Comes setup h'') :
    h.Comes setup h'' := by
  obtain ⟨acts, hacts⟩ := hrest
  refine ⟨act :: acts, ?_⟩
  rw [run, hstep, Option.bind_some, hacts]

theorem Comes.of_step (hstep : h.step setup act = some h') : h.Comes setup h' :=
  .head hstep (.refl h')

theorem Comes.trans (hcomes : h.Comes setup h') (hrest : h'.Comes setup h'') :
    h.Comes setup h'' := by
  obtain ⟨acts, hacts⟩ := hcomes
  induction acts generalizing h with
  | nil => exact Option.some.inj hacts ▸ hrest
  | cons act acts ih =>
      obtain ⟨next, hstep, hacts⟩ := Option.bind_eq_some_iff.mp hacts
      exact .head hstep (ih hacts)

/-- What happens in the shared instrument happens in the daemon. -/
theorem Comes.of_shared {acts : List (SharedAct β δ)} {shared : SharedInstrument β δ}
    (hacts : ∀ act ∈ acts, act.isReserved = false)
    (hrun : SharedInstrument.run setup acts h.shared = some shared) :
    h.Comes setup { h with shared := shared } := by
  induction acts generalizing h with
  | nil =>
      obtain rfl := Option.some.inj hrun
      exact .refl h
  | cons act acts ih =>
      obtain ⟨next, hstep, hrest⟩ := Option.bind_eq_some_iff.mp hrun
      have hdaemon : h.step setup (.shared act) = some { h with shared := next } := by
        rw [step, if_neg (by simp [hacts act List.mem_cons_self]), hstep]
        rfl
      exact .head hdaemon (ih (h := { h with shared := next })
        (fun act hmem => hacts act (.tail _ hmem)) hrest)

theorem Comes.of_closes {point : CloserPoint} (hcloser : h.closer = some point)
    (hcloses : Closes setup h point h') : h.Comes setup h' := by
  have hstep : h.step setup .close = some h' := by
    rw [step, hcloser, Option.bind_some, close_eq_some_iff.mpr hcloses]
  exact .of_step hstep

end ConcurrentDaemon

theorem SharedInstrument.run_bench {acts : List (Act β δ)} {shared : SharedInstrument β δ}
    {b : Bench β δ}
    (hacts : ∀ act ∈ acts, act.isScan = false) (hrun : Bench.run setup acts shared.bench = some b) :
    run setup (acts.map .bench) shared = some { shared with bench := b } := by
  induction acts generalizing shared with
  | nil =>
      obtain rfl := Option.some.inj hrun
      rfl
  | cons act acts ih =>
      obtain ⟨next, hstep, hrest⟩ := Option.bind_eq_some_iff.mp hrun
      have hnext : run setup (acts.map .bench) { shared with bench := next } = _ :=
        ih (fun act hmem => hacts act (.tail _ hmem)) hrest
      rw [List.map_cons, run, step, if_neg (by simp [hacts act List.mem_cons_self]), hstep,
        Option.map_some, Option.bind_some, hnext]

namespace ConcurrentDaemon

variable {h : ConcurrentDaemon β δ}

/-- A call that is made in a daemon goes on alone to its end. -/
theorem call_alone {call call' : Call} {x : Instrument β δ} (hlock : h.shared.bench.locked = false)
    (hends : Bench.Ends setup call h.shared.bench call' x) (hinside : call'.inside = false) :
    ∃ shared, Comes setup { h with shared := h.shared.withCall call } { h with shared := shared } ∧
      shared.bench.calls[h.shared.bench.calls.length]? = some call' ∧ shared.bench.instrument = x ∧
      shared.bench.locked = false := by
  obtain ⟨b', hgoes, -, rfl⟩ := hends
  obtain ⟨hcalls, steps, hsteps⟩ := Bench.run_of_goes hlock hgoes rfl
  have hshared : SharedInstrument.run setup _ (h.shared.withCall call) = _ :=
    SharedInstrument.run_bench (by simp [Act.isScan]) hsteps
  have hcomes : Comes setup { h with shared := h.shared.withCall call } _ :=
    .of_shared (by simp [SharedAct.isReserved]) hshared
  refine ⟨_, hcomes, List.getElem?_concat_length, rfl, ?_⟩
  simp only [Bench.locked, List.any_append, List.any_cons, List.any_nil, hinside]
  simpa [Bench.locked] using hlock

section Items

variable {recipient : Recipient} {request : Message} {done rest : List Item} {item : Item}

theorem server_consume_item
    (hconsumer : h.consumer = .executing recipient request done (item :: rest)) :
    h.server.consume setup = some { h.server with
      instrument := (item.execute setup recipient.connection h.shared.bench.instrument).2
      consumer := .next recipient request done rest
        (item.execute setup recipient.connection h.shared.bench.instrument).1 } := by
  rw [ActionServer.consume.eq_def]
  simp only [server, hconsumer]
  rcases item.execute setup recipient.connection h.shared.bench.instrument with
    ⟨⟨_ | _, _⟩, _⟩ <;> rfl

theorem consume_settles {wait : ItemWait} {outcome : Except ItemError Unit × Item}
    (hconsumer : h.consumer = .executing recipient request done (item :: rest))
    (hwait : h.wait = some wait) (houtcome : item.outcome? h.shared wait = some outcome)
    (watch : Stopwatch) :
    h.consume setup watch = some { h with
      wait := none, consumer := .next recipient request done rest outcome } := by
  simp only [consume, hconsumer, hwait, houtcome, Option.map_some]

theorem consume_calls {call : Call}
    (hconsumer : h.consumer = .executing recipient request done (item :: rest))
    (hwait : h.wait = none) (hcall : item.call? = some call) (watch : Stopwatch) :
    h.consume setup watch = some { h with
      shared := h.shared.withCall call, wait := some (.call h.shared.bench.calls.length) } := by
  simp only [consume, hconsumer, hwait, hcall, make_eq (Item.isNew_of_call? hcall).1,
    Option.map_some]

theorem consume_scans
    (hconsumer : h.consumer = .executing recipient request done (item :: rest))
    (hwait : h.wait = none) (hcall : item.call? = none) (hscans : item.scans = true)
    (watch : Stopwatch) :
    h.consume setup watch = some { h with
      shared := { h.shared with scans := h.shared.scans ++ [⟨watch, .claiming⟩] }
      wait := some (.scan h.shared.scans.length) } := by
  simp only [consume, hconsumer, hwait, hcall, hscans, if_true, SharedInstrument.step,
    Option.map_some]

theorem consume_executes
    (hconsumer : h.consumer = .executing recipient request done (item :: rest))
    (hwait : h.wait = none) (hcall : item.call? = none) (hscans : item.scans = false)
    (watch : Stopwatch) :
    h.consume setup watch = (h.server.consume setup).map h.withServer := by
  simp only [consume, hconsumer, hwait, hcall, hscans, if_neg Bool.false_ne_true]

/-- The consumer waits for a call or a scan and goes on. -/
theorem Comes.wait {watch : Stopwatch} {begun ended : SharedInstrument β δ} {wait : ItemWait}
    {outcome : Except ItemError Unit × Item}
    (hconsumer : h.consumer = .executing recipient request done (item :: rest))
    (hbegins : h.consume setup watch = some { h with shared := begun, wait := some wait })
    (hcomes : Comes setup { h with shared := begun, wait := some wait }
      { h with shared := ended, wait := some wait })
    (houtcome : item.outcome? ended wait = some outcome) :
    h.Comes setup { h with
      shared := ended, wait := none, consumer := .next recipient request done rest outcome } := by
  have hends : step setup { h with shared := ended, wait := some wait } (.consume watch) = _ :=
    consume_settles (h := { h with shared := ended, wait := some wait }) hconsumer rfl houtcome
      watch
  have hbegins : h.step setup (.consume watch) = _ := hbegins
  exact .head hbegins (hcomes.trans (.of_step hends))

/-- When nobody is in between, the consumer of a daemon has a call made as that of an action server
does. -/
theorem call_item_alone (hlock : h.shared.bench.locked = false)
    (hjoined : h.shared.bench.instrument.arbiter.owner = none → h.shared.bench.instrument.isJoined)
    (hconsumer : h.consumer = .executing recipient request done (item :: rest))
    (hwait : h.wait = none) {call : Call} (hcall : item.call? = some call) :
    ∃ h', h.Comes setup h' ∧ h.server.consume setup = some h'.server ∧ h'.wait = none ∧
      h'.closer = h.closer ∧ h'.shared.bench.locked = false := by
  obtain ⟨call', hof, hends⟩ := Item.call_ends hcall recipient.connection hlock hjoined
  obtain ⟨shared, hcomes, hreturned, hx, hfree⟩ :=
    call_alone (h := { h with wait := some (.call h.shared.bench.calls.length) }) hlock hends
      (Call.inside_of_hasReturned (Item.hasReturned_of_ofCall? hof))
  have houtcome : item.outcome? shared (.call h.shared.bench.calls.length) = _ :=
    Option.bind_eq_some_iff.mpr ⟨call', hreturned, hof⟩
  have hended := Comes.wait hconsumer
    (consume_calls hconsumer hwait hcall setup.watch) hcomes houtcome
  refine ⟨_, hended, ?_, rfl, rfl, hfree⟩
  rw [server_consume_item hconsumer, server, server, hx]

/-- When nobody is in between, the consumer of a daemon has a scan made as that of an action server
does. -/
theorem scan_item_alone (hlock : h.shared.bench.locked = false)
    (hconsumer : h.consumer = .executing recipient request done (item :: rest))
    (hwait : h.wait = none) (hcall : item.call? = none) (hscans : item.scans = true) :
    ∃ h', h.Comes setup h' ∧ h.server.consume setup = some h'.server ∧ h'.wait = none ∧
      h'.closer = h.closer ∧ h'.shared.bench.locked = false := by
  obtain ⟨hof, hx⟩ :=
    Item.execute_of_scans setup recipient.connection hscans h.shared.bench.instrument
  have hbegun : ({ h.shared with scans := h.shared.scans ++ [⟨setup.watch, .claiming⟩] } :
      SharedInstrument β δ).scans[h.shared.scans.length]? = some ⟨setup.watch, .claiming⟩ :=
    List.getElem?_concat_length
  obtain ⟨steps, hsteps⟩ := SharedInstrument.scan_alone hbegun
  have hcomes := Comes.of_shared (h := { h with
      shared := { h.shared with scans := h.shared.scans ++ [⟨setup.watch, .claiming⟩] }
      wait := some (.scan h.shared.scans.length) })
    (by simp [SharedAct.isReserved]) hsteps
  have hended := Comes.wait hconsumer
    (consume_scans hconsumer hwait hcall hscans setup.watch) hcomes
    (Option.bind_eq_some_iff.mpr ⟨_, List.getElem?_set_self (by simp), hof⟩)
  refine ⟨_, hended, ?_, rfl, rfl, hlock⟩
  rw [server_consume_item hconsumer, server, server, hx]
  rfl

end Items

theorem consume_of_item?_eq_none (hitem : h.consumer.item? = none) (watch : Stopwatch) :
    h.consume setup watch = (h.server.consume setup).map h.withServer := by
  rw [consume.eq_def]
  split
  · rename_i hconsumer
    rw [hconsumer] at hitem
    cases hitem
  · rfl

/-- When nobody is in between, the consumer of a daemon does what that of an action server does. -/
theorem consume_alone (hlock : h.shared.bench.locked = false)
    (hjoined : h.shared.bench.instrument.arbiter.owner = none → h.shared.bench.instrument.isJoined)
    (hwait : h.wait = none) {d : ActionServer β δ} (hstep : h.server.consume setup = some d) :
    ∃ h', h.Comes setup h' ∧ h.server.consume setup = some h'.server ∧ h'.wait = none ∧
      h'.closer = h.closer ∧ h'.shared.bench.locked = false := by
  have hatOnce
      (hconsume : h.consume setup setup.watch = (h.server.consume setup).map h.withServer) :
      ∃ h', h.Comes setup h' ∧ h.server.consume setup = some h'.server ∧ h'.wait = none ∧
        h'.closer = h.closer ∧ h'.shared.bench.locked = false := by
    rw [hstep, Option.map_some] at hconsume
    have hdaemon : h.step setup (.consume setup.watch) = _ := hconsume
    exact ⟨_, .of_step hdaemon, hstep, hwait, rfl, hlock⟩
  cases hitem : h.consumer.item? with
  | none => exact hatOnce (consume_of_item?_eq_none hitem _)
  | some item =>
      obtain ⟨recipient, request, done, rest, hconsumer⟩ := ConsumerPoint.eq_of_item? hitem
      cases hcall : item.call? with
      | some call => exact call_item_alone hlock hjoined hconsumer hwait hcall
      | none =>
          cases hscans : item.scans with
          | true => exact scan_item_alone hlock hconsumer hwait hcall hscans
          | false => exact hatOnce (consume_executes hconsumer hwait hcall hscans _)

end ConcurrentDaemon

/-! ### The queue -/

theorem SharedInstrument.Guarded.isJoined {shared : SharedInstrument β δ} (h : shared.Guarded)
    (hfree : shared.bench.instrument.arbiter.owner = none) : shared.bench.instrument.isJoined := by
  obtain ⟨acts, hsound⟩ := h.sound
  have hnobody : shared.bench.holders = [] := by
    rw [hsound.holders_eq, Arbiter.streamingOwner, hfree]
    rfl
  rw [Instrument.isJoined]
  cases hrun : shared.bench.instrument.session.run with
  | none => rfl
  | some run =>
      have hclaim := List.filterMap_eq_nil_iff.mp (List.append_eq_nil_iff.mp hnobody).1 run
        (List.mem_append_right _ (Option.mem_toList.mpr hrun))
      rw [Run.claim?] at hclaim
      split at hclaim
      · assumption
      · cases hclaim

namespace ConcurrentDaemon

variable {act : DaemonAct β δ} {h h' : ConcurrentDaemon β δ}

theorem guarded_of_step (hguard : h.shared.Guarded) (hstep : h.step setup act = some h') :
    h'.shared.Guarded := by
  have hmade {shared : SharedInstrument β δ} {call : Call} (hnew : call.isNew = true)
      (hshared : shared.Guarded) :
      (shared.withCall call).Guarded := hshared.step (SharedInstrument.step_call hnew setup shared)
  cases moves_of_step hstep with
  | shared _ _ hshared => exact hguard.step hshared
  | reads | enters | settles | asked => exact hguard
  | works hprompt hserver =>
      obtain ⟨-, board, shutdown, htouches⟩ := touches_of_consume hprompt hserver
      rw [withServer, on, htouches]
      exact hguard.touch board shutdown
  | calls _ _ hcall => exact hmade (Item.isNew_of_call? hcall).1 hguard
  | scans _ _ _ hshared => exact hguard.step hshared
  | closes _ hcloses =>
      cases hcloses with
      | requests => exact hmade rfl (hguard.touch _ _)
      | stopped | seals | joined => exact hguard
      | stopsAgain | joins => exact hmade rfl hguard
      | idles => exact hguard.touch _ _

theorem Comes.guarded (hcomes : h.Comes setup h') (hguard : h.shared.Guarded) :
    h'.shared.Guarded := by
  obtain ⟨acts, hacts⟩ := hcomes
  induction acts generalizing h with
  | nil => exact Option.some.inj hacts ▸ hguard
  | cons act acts ih =>
      obtain ⟨next, hstep, hacts⟩ := Option.bind_eq_some_iff.mp hacts
      exact ih (guarded_of_step hguard hstep) hacts

/-- When nobody is in between, the consumer of a daemon goes on as that of an action server does. -/
theorem consumes_alone (hguard : h.shared.Guarded) (hlock : h.shared.bench.locked = false)
    (hwait : h.wait = none) {d d' : ActionServer β δ} (hd : h.server = d)
    (hsteps : ReflTransGen (ActionServer.Consumes setup) d d') :
    ∃ h', h.Comes setup h' ∧ h'.server = d' ∧ h'.closer = h.closer ∧
      h'.shared.bench.locked = false := by
  induction hsteps using ReflTransGen.head_induction_on generalizing h with
  | refl => exact ⟨h, .refl h, hd, rfl, hlock⟩
  | head hstep _ ih =>
      subst hd
      obtain ⟨x, hx, hserver, hidle, hcloser, hfree⟩ :=
        consume_alone hlock hguard.isJoined hwait hstep
      obtain ⟨h', hh', hd', hcloser', hfree'⟩ :=
        ih (hx.guarded hguard) hfree hidle (Option.some.inj (hserver.symm.trans hstep))
      exact ⟨h', hx.trans hh', hd', hcloser'.trans hcloser, hfree'⟩

/-- When nobody is in between, the consumer answers what waits up to the first entry that closes the
queue, which there is. -/
theorem serve_alone (setup : Setup β δ) (hguard : h.shared.Guarded)
    (hlock : h.shared.bench.locked = false) (hwait : h.wait = none)
    (hconsumer : h.consumer = .waiting) (hclosed : h.queue.waiting.any Action.isClose = true) :
    ∃ h', h.Comes setup h' ∧ h'.consumer = .gone ∧ h'.closer = h.closer ∧
      h'.shared.bench.locked = false ∧ h'.shared.bench.instrument =
        (handleActions setup h.queue.waiting h.shared.bench.instrument).2 := by
  obtain ⟨last, hsteps, hgone, hx⟩ :=
    ActionServer.serve_alone (d := h.server) setup hconsumer hclosed
  obtain ⟨h', hh', rfl, hcloser, hfree⟩ := consumes_alone hguard hlock hwait rfl hsteps
  exact ⟨h', hh', hgone, hcloser, hfree, hx⟩

end ConcurrentDaemon

/-! ### The threads -/

namespace ConcurrentDaemon

variable {h : ConcurrentDaemon β δ}

theorem Comes.of_bench {act : Act β δ} {b : Bench β δ}
    (hact : act.isScan = false ∧ (SharedAct.bench act).isReserved = false)
    (hstep : h.shared.bench.step setup act = some b) :
    h.Comes setup { h with shared := { h.shared with bench := b } } := by
  have hdaemon : h.step setup (.shared (.bench act)) =
      some { h with shared := { h.shared with bench := b } } := by
    rw [step, hact.2, if_neg Bool.false_ne_true, SharedInstrument.step, hact.1,
      if_neg Bool.false_ne_true, hstep]
    rfl
  exact .of_step hdaemon

/-- Someone at the bench changes the instrument, or cannot. -/
theorem Comes.of_thread {f : Instrument β δ → Option (Instrument β δ)}
    (hstep : ∀ x, f h.shared.bench.instrument = some x → ∃ act : Act β δ,
      (act.isScan = false ∧ (SharedAct.bench act).isReserved = false) ∧
      h.shared.bench.step setup act = some { h.shared.bench with instrument := x }) :
    h.Comes setup (h.on fun x => (f x).getD x) := by
  rw [on, Bench.on]
  cases hf : f h.shared.bench.instrument with
  | none => exact .refl h
  | some x =>
      obtain ⟨act, hact, hx⟩ := hstep x hf
      exact .of_bench hact hx

theorem turn_alone (setup : Setup β δ) (h : ConcurrentDaemon β δ) :
    h.Comes setup (h.on (Instrument.turn setup)) := by
  have hworker (h : ConcurrentDaemon β δ) :
      h.Comes setup (h.on fun x => (x.workerStep setup).getD x) := by
    refine .of_thread fun x hx => ?_
    obtain ⟨point, hstep⟩ := Bench.step_worker hx
    exact ⟨_, ⟨rfl, rfl⟩, hstep⟩
  have hlogger (h : ConcurrentDaemon β δ) :
      h.Comes setup (h.on fun x => (x.loggerStep setup).getD x) := by
    refine .of_thread fun x hx => ?_
    obtain ⟨point, hstep⟩ := Bench.step_logger hx
    exact ⟨_, ⟨rfl, rfl⟩, hstep⟩
  exact (hworker h).trans (hlogger _)

theorem advance_alone (setup : Setup β δ) (goal : Instrument β δ → Bool) (turns : Nat)
    (h : ConcurrentDaemon β δ) : h.Comes setup (h.on (Instrument.advance setup goal turns)) := by
  induction turns generalizing h with
  | zero => exact .refl h
  | succ turns ih =>
      cases hgoal : goal h.shared.bench.instrument with
      | true =>
          rw [on, Bench.on, Instrument.advance, if_pos hgoal]
          exact .refl h
      | false =>
          have hrest := (turn_alone setup h).trans (ih _)
          rw [on, Bench.on, Instrument.advance, if_neg (by simp [hgoal])]
          exact hrest

end ConcurrentDaemon

/-! ### The one who shuts a daemon down -/

namespace ConcurrentDaemon

variable {h : ConcurrentDaemon β δ}

theorem deregister_alone (setup : Setup β δ) (id : ConnectionId)
    (hlock : h.shared.bench.locked = false) :
    ∃ shared, h.Comes setup { h with shared := shared } ∧ shared.bench.locked = false ∧
      shared.bench.instrument = h.shared.bench.instrument.deregisterEndpoint setup id := by
  have hmade : h.shared.bench.step setup (.call (.detach id .removing)) =
      some (h.shared.withCall (.detach id .removing)).bench := rfl
  obtain ⟨point, hreturned, hends⟩ := Bench.detach_ends hlock
  obtain ⟨shared, hcall, -, hx, hfree⟩ :=
    call_alone hlock hends (Call.inside_of_hasReturned hreturned)
  exact ⟨shared, (Comes.of_bench ⟨rfl, rfl⟩ hmade).trans hcall, hfree, hx⟩

theorem detach_alone (setup : Setup β δ) (id : ConnectionId) {d : Daemon β δ}
    (hlock : h.shared.bench.locked = false)
    (hinstrument : h.shared.bench.instrument = d.instrument) :
    ∃ shared, h.Comes setup { h with shared := shared } ∧ shared.bench.locked = false ∧
      shared.bench.instrument = (d.detach setup id).instrument := by
  rw [Daemon.detach]
  split
  · exact ⟨h.shared, .refl h, hlock, hinstrument⟩
  · rename_i client _
    have hup : h.shared.bench.step setup (.peer client.sink (some 0)) =
        some (h.shared.bench.on fun x => x.modifySink client.sink Sink.hangUp) := rfl
    obtain ⟨shared, hdetach, hfree, hx⟩ := deregister_alone setup id
      (h := h.on fun x => x.modifySink client.sink Sink.hangUp) hlock
    refine ⟨shared, (Comes.of_bench ⟨rfl, rfl⟩ hup).trans hdetach, hfree, ?_⟩
    rw [hx, ← hinstrument]
    rfl

theorem detaches_alone (setup : Setup β δ) (clients : List StreamClient) {d : Daemon β δ}
    (hlock : h.shared.bench.locked = false)
    (hinstrument : h.shared.bench.instrument = d.instrument) :
    ∃ shared, h.Comes setup { h with shared := shared } ∧ shared.bench.locked = false ∧
      shared.bench.instrument = (clients.foldl (fun d c => d.detach setup c.id) d).instrument := by
  induction clients generalizing h d with
  | nil => exact ⟨h.shared, .refl h, hlock, hinstrument⟩
  | cons client clients ih =>
      obtain ⟨shared, hcomes, hfree, hx⟩ := detach_alone setup client.id hlock hinstrument
      obtain ⟨last, hrest, hlast⟩ := ih (h := { h with shared := shared }) hfree hx
      exact ⟨last, hcomes.trans hrest, hlast⟩

theorem closeAll_alone (setup : Setup β δ) {d : Daemon β δ} (hlock : h.shared.bench.locked = false)
    (hinstrument : h.shared.bench.instrument = d.instrument) :
    ∃ shared, h.Comes setup { h with shared := shared } ∧ shared.bench.locked = false ∧
      shared.bench.instrument = (d.closeAll setup).instrument :=
  detaches_alone setup d.streams hlock hinstrument

/-- Somebody asks for the daemon to be shut down; the session is stopped and the queue closed. -/
theorem seal_alone (setup : Setup β δ) (hlock : h.shared.bench.locked = false)
    (hcloser : h.closer = none) :
    ∃ shared, h.Comes setup { h.enter .close with shared := shared, closer := some .awaiting } ∧
      shared.bench.locked = false ∧ shared.bench.instrument =
        Instrument.shutdownStream setup { h.shared.bench.instrument with
          shutdown := h.shared.bench.instrument.shutdown.request } := by
  have hasked : h.step setup .shutdown = some { h with closer := some .requesting } := by
    rw [step, hcloser]
    rfl
  have hrequests : Comes setup { h with closer := some .requesting } _ := .of_closes rfl .requests
  obtain ⟨shared, hcall, hreturned, hx, hfree⟩ := call_alone
    (h := { h.on fun x => { x with shutdown := x.shutdown.request } with
      closer := some (.stopping h.shared.bench.calls.length) }) hlock (Bench.close_ends hlock) rfl
  have hstopped : Comes setup { h with
      shared := shared, closer := some (.stopping h.shared.bench.calls.length) } _ :=
    .of_closes rfl (.stopped hreturned)
  have hseals : Comes setup { h with shared := shared, closer := some .sealing } _ :=
    .of_closes rfl .seals
  exact ⟨shared, .head hasked (hrequests.trans (hcall.trans (hstopped.trans hseals))), hfree, hx⟩

/-- The session is stopped again, its threads end, and the trigger is disabled. -/
theorem end_alone (hlock : h.shared.bench.locked = false) (hgone : h.consumer = .gone)
    (hcloser : h.closer = some .awaiting)
    (hjoined : (Daemon.endSession setup h.shared.bench.instrument).isJoined = true) :
    ∃ h', h.Comes setup h' ∧ h'.closer = some .returned ∧ h'.shared.bench.instrument =
      ((Daemon.endSession setup h.shared.bench.instrument).onBoard
        (setup.port.write Register.trigger Trigger.disabled)).2 := by
  have hagain : h.Comes setup _ := .of_closes hcloser (.stopsAgain hgone)
  obtain ⟨shared, hcall, hreturned, hx, hfree⟩ := call_alone
    (h := { h with closer := some (.stoppingAgain h.shared.bench.calls.length) }) hlock
      (Bench.close_ends hlock) rfl
  have hturns := advance_alone setup Instrument.isJoined Instrument.endingTurns
    { h with shared := shared, closer := some (.stoppingAgain h.shared.bench.calls.length) }
  have hended : (shared.bench.on (Instrument.joinStream setup Instrument.endingTurns)).instrument =
      Daemon.endSession setup h.shared.bench.instrument := by
    rw [Daemon.endSession, ← hx]
    rfl
  rw [← hended] at hjoined ⊢
  have hjoins : Comes setup { h with
      shared := { shared with
        bench := shared.bench.on (Instrument.joinStream setup Instrument.endingTurns) }
      closer := some (.stoppingAgain h.shared.bench.calls.length) } _ :=
    .of_closes rfl (.joins hreturned)
  obtain ⟨last, hjoin, hlast, hsame, -⟩ := call_alone
    (h := { h with
      shared := { shared with
        bench := shared.bench.on (Instrument.joinStream setup Instrument.endingTurns) }
      closer := some (.joining shared.bench.calls.length) }) hfree
      (Bench.join_ends hfree hjoined) rfl
  have hidling : Comes setup { h with
      shared := last, closer := some (.joining shared.bench.calls.length) } _ :=
    .of_closes rfl (.joined hlast)
  have hidles : Comes setup { h with shared := last, closer := some .idling } _ :=
    .of_closes rfl .idles
  refine ⟨_, hagain.trans (hcall.trans (hturns.trans (hjoins.trans (hjoin.trans
    (hidling.trans hidles))))), rfl, ?_⟩
  rw [← hsame]
  rfl

end ConcurrentDaemon

namespace Daemon

variable {d : Daemon β δ}

/-- A streaming client that nobody interrupts as it comes is registered and greeted as the daemon
does both at once. -/
theorem attach_alone (setup : Setup β δ) {server : StreamServer β δ}
    (hlock : server.bench.locked = false) (hinstrument : server.bench.instrument = d.instrument) :
    ∃ server', StreamServer.run setup [.arrive d.attach.1 none,
        .connection server.connections.length .register,
        .connection server.connections.length (.greet true)] server = some server' ∧
      server'.bench.instrument = d.attach.2.instrument ∧
      server'.connections = server.connections ++
        [⟨d.attach.1, none, .reading server.bench.instrument.session.sinks.length⟩] := by
  obtain ⟨bench, connections⟩ := server
  replace hlock : bench.locked = false := hlock
  refine ⟨⟨bench.on fun x => (x.registerEndpoint d.attach.1 (.fresh none)).2.modifySink
    x.session.sinks.length fun s => s.write d.attach.1.helloBytes, _⟩, ?_, ?_, rfl⟩
  · simp [StreamServer.run, StreamServer.step, StreamConnection.step, Bench.step, hlock]
    rfl
  · rw [Bench.on, hinstrument]
    rfl

/-- A daemon on its way to the end: its session was stopped, its queue is closed and served. -/
def served (setup : Setup β δ) (d : Daemon β δ) : Daemon β δ :=
  serve setup (push .close { d.requestShutdown with
    stopped := true
    instrument := d.requestShutdown.instrument.shutdownStream setup })

theorem instrument_serve (setup : Setup β δ) (d : Daemon β δ) :
    (d.serve setup).instrument = (handleActions setup d.queue.waiting d.instrument).2 := by
  have hposts (dispatches : List Dispatch) (d : Daemon β δ) :
      (dispatches.foldl (fun d reply => d.post reply) d).instrument = d.instrument := by
    induction dispatches generalizing d with
    | nil => rfl
    | cons dispatch dispatches ih => exact ih (d.post dispatch)
  exact hposts _ _

theorem instrument_served (setup : Setup β δ) (haccepting : d.queue.accepting = true) :
    (d.served setup).instrument = (handleActions setup (d.queue.waiting ++ [.close])
      (Instrument.shutdownStream setup { d.instrument with
        shutdown := d.instrument.shutdown.request })).2 := by
  rw [served, instrument_serve, push, ActionQueue.push]
  simp only [requestShutdown, haccepting, if_true]

theorem instrument_shutdown (setup : Setup β δ) (hrunning : d.stopped = false) :
    (d.shutdown setup).instrument =
      ((endSession setup ((d.served setup).closeAll setup).instrument).onBoard
        (setup.port.write Register.trigger Trigger.disabled)).2 := by
  rw [shutdown, if_neg (by simp [hrunning])]
  rfl

end Daemon

namespace ConcurrentDaemon

variable {h : ConcurrentDaemon β δ} {d : Daemon β δ}

/-- A daemon at rest has the instrument and the queue of a daemon, and nobody is at work in it. -/
structure Rests (h : ConcurrentDaemon β δ) (d : Daemon β δ) : Prop where
  guarded : h.shared.Guarded
  unlocked : h.shared.bench.locked = false
  consumer : h.consumer = .waiting
  wait : h.wait = none
  closer : h.closer = none
  instrument : h.shared.bench.instrument = d.instrument
  queue : h.queue = d.queue
  accepting : d.queue.accepting = true
  running : d.stopped = false

/-- Who shuts down a daemon where nobody interrupts does what shutting down the daemon as a whole
does. -/
theorem shutdown_alone (hrests : h.Rests d)
    (hjoined : (d.shutdown setup).instrument.isJoined = true) :
    ∃ h', h.Comes setup h' ∧ h'.closer = some .returned ∧
      h'.shared.bench.instrument = (d.shutdown setup).instrument := by
  have hqueue : (h.enter .close).queue.waiting = d.queue.waiting ++ [.close] := by
    simp [enter, ActionQueue.push, hrests.queue, hrests.accepting]
  obtain ⟨sealed, hseal, hfree, hsealed⟩ := seal_alone setup hrests.unlocked hrests.closer
  obtain ⟨served, hserve, hgone, hcloser, hfree, hserved⟩ := serve_alone setup
    (h := { h.enter .close with shared := sealed, closer := some .awaiting })
    (hseal.guarded hrests.guarded) hfree hrests.wait hrests.consumer
    (by simp [hqueue, Action.isClose])
  rw [hqueue, hsealed, hrests.instrument, ← Daemon.instrument_served setup hrests.accepting]
    at hserved
  obtain ⟨closed, hclose, hfree, hclosed⟩ := closeAll_alone setup hfree hserved
  rw [Daemon.instrument_shutdown setup hrests.running, ← hclosed] at hjoined ⊢
  obtain ⟨h', hend, hreturned, hx⟩ := end_alone (h := { served with shared := closed })
    hfree hgone hcloser hjoined
  exact ⟨h', hseal.trans (hserve.trans (hclose.trans hend)), hreturned, hx⟩

end ConcurrentDaemon

end DaqServer
