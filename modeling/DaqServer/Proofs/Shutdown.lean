import DaqServer.Shutdown.Calls
import Mathlib.Data.List.Basic

/-!
# No request is missed

A waiter takes its ticket before it looks at the flag, and a requester sets the flag before it wakes
the waiters. `Moves` lists what the acts around a signal do, and `Sound` says what they keep: once
the flag is set, the one wake-up has been or is on its way, and whoever sleeps has a ticket from
before it. Main statement: however the calls overlap, no waiter sleeps on once the flag is set and
its setter has woken the waiters; every waiter returns after three steps of its own at most.
-/

namespace DaqServer

namespace ShutdownSignal

/-- What a waiter can know of a signal: it holds a ticket that was given out, or it sleeps with one
from before the flag was set, or it has seen the flag. -/
def Waiter.Knows (s : ShutdownSignal) : Waiter → Prop
  | .arriving => True
  | .holding ticket => ticket ≤ s.wakeups
  | .suspended ticket => ticket = 0
  | .returned => s.requested = true

/-- A signal goes on to another: its flag stays set and wake-ups are not forgotten. -/
structure Advances (s s' : ShutdownSignal) : Prop where
  requested : s.requested = true → s'.requested = true
  wakeups : s.wakeups ≤ s'.wakeups

theorem Advances.refl (s : ShutdownSignal) : Advances s s := ⟨id, Nat.le_refl _⟩

theorem Advances.knows {s s' : ShutdownSignal} {waiter : Waiter} (h : Advances s s')
    (hknows : waiter.Knows s) : waiter.Knows s' := by
  cases waiter with
  | arriving => trivial
  | holding ticket => exact Nat.le_trans hknows h.wakeups
  | suspended ticket => exact hknows
  | returned => exact h.requested hknows

/-- Steps that a waiter has left when the flag is set and its ticket reached. -/
def Waiter.left : Waiter → Nat
  | .suspended _ => 3
  | .arriving => 2
  | .holding _ => 1
  | .returned => 0

end ShutdownSignal

open ShutdownSignal (Requester Waiter Advances)

namespace ShutdownCalls

variable {acts : List ShutdownAct} {act : ShutdownAct} {v v' : ShutdownCalls}

/-! ### What an act does -/

/-- What the acts around a signal do. -/
inductive Moves (v : ShutdownCalls) : ShutdownAct → ShutdownCalls → Prop
  | request : Moves v .request { v with requesters := v.requesters ++ [.arriving] }
  | await : Moves v .await { v with waiters := v.waiters ++ [.arriving] }
  /-- The flag is set for the first time. -/
  | sets {number : Nat} : v.requesters[number]? = some .arriving → v.signal.requested = false →
      Moves v (.requester number) { v with
        signal := ⟨true, v.signal.wakeups⟩
        requesters := v.requesters.set number .setting }
  /-- The flag was set before. -/
  | passes {number : Nat} : v.requesters[number]? = some .arriving → v.signal.requested = true →
      Moves v (.requester number) { v with requesters := v.requesters.set number .finished }
  /-- The waiters are woken. -/
  | wakes {number : Nat} : v.requesters[number]? = some .setting →
      Moves v (.requester number) { v with
        signal := ⟨v.signal.requested, v.signal.wakeups + 1⟩
        requesters := v.requesters.set number .finished }
  /-- A waiter takes its ticket. -/
  | takes {number : Nat} : v.waiters[number]? = some .arriving →
      Moves v (.waiter number) { v with
        waiters := v.waiters.set number (.holding v.signal.wakeups) }
  /-- A waiter sees the flag. -/
  | sees {number ticket : Nat} : v.waiters[number]? = some (.holding ticket) →
      v.signal.requested = true →
      Moves v (.waiter number) { v with waiters := v.waiters.set number .returned }
  /-- A waiter does not see the flag and goes to sleep. -/
  | sleeps {number ticket : Nat} : v.waiters[number]? = some (.holding ticket) →
      v.signal.requested = false →
      Moves v (.waiter number) { v with waiters := v.waiters.set number (.suspended ticket) }
  /-- A waiter that a wake-up has reached begins anew. -/
  | rises {number ticket : Nat} : v.waiters[number]? = some (.suspended ticket) →
      ticket < v.signal.wakeups →
      Moves v (.waiter number) { v with waiters := v.waiters.set number .arriving }

theorem moves_of_step (h : v.step act = some v') : Moves v act v' := by
  cases act with
  | request =>
      obtain rfl := Option.some.inj h
      exact .request
  | await =>
      obtain rfl := Option.some.inj h
      exact .await
  | requester number =>
      obtain ⟨requester, hrequester, h⟩ := Option.bind_eq_some_iff.mp h
      cases requester with
      | arriving =>
          obtain rfl := Option.some.inj h
          cases hflag : v.signal.requested with
          | false => exact .sets hrequester hflag
          | true =>
              have hsignal : { v.signal with requested := true } = v.signal := by rw [← hflag]
              rw [if_pos rfl, hsignal]
              exact .passes hrequester hflag
      | setting =>
          obtain rfl := Option.some.inj h
          exact .wakes hrequester
      | finished => cases h
  | waiter number =>
      obtain ⟨waiter, hwaiter, h⟩ := Option.bind_eq_some_iff.mp h
      cases waiter with
      | arriving =>
          obtain rfl := Option.some.inj h
          exact .takes hwaiter
      | holding ticket =>
          obtain rfl := Option.some.inj h
          cases hflag : v.signal.requested with
          | false => exact .sleeps hwaiter hflag
          | true => exact .sees hwaiter hflag
      | suspended ticket =>
          obtain ⟨next, hnext, h⟩ := Option.bind_eq_some_iff.mp h
          obtain ⟨hwoken, hnext⟩ := Option.ite_none_right_eq_some.mp hnext
          obtain rfl := Option.some.inj hnext
          obtain rfl := Option.some.inj h
          exact .rises hwaiter hwoken
      | returned => cases h

theorem step_requester {number : Nat} {requester next : Requester} {signal : ShutdownSignal}
    (hrequester : v.requesters[number]? = some requester)
    (hnext : requester.step v.signal = some (next, signal)) :
    v.step (.requester number) = some { v with
      signal := signal
      requesters := v.requesters.set number next } := by
  rw [step, hrequester]
  change (requester.step v.signal).bind _ = _
  rw [hnext]
  rfl

theorem step_waiter {number : Nat} {waiter next : Waiter}
    (hwaiter : v.waiters[number]? = some waiter) (hnext : waiter.step v.signal = some next) :
    v.step (.waiter number) = some { v with waiters := v.waiters.set number next } := by
  rw [step, hwaiter]
  change (waiter.step v.signal).bind _ = _
  rw [hnext]
  rfl

/-! ### What every act keeps -/

/-- What is true of a signal and its calls after acts on a new one. -/
structure Sound (v : ShutdownCalls) : Prop where
  /-- There is a wake-up once the flag is set, and only one: it has been, or its requester stands
  before it. -/
  wakeups : v.signal.wakeups + v.requesters.count .setting = if v.signal.requested then 1 else 0
  waiters : ∀ waiter ∈ v.waiters, waiter.Knows v.signal

theorem sound_start : Sound start := ⟨rfl, nofun⟩

theorem Moves.advances (h : Moves v act v') : Advances v.signal v'.signal := by
  cases h with
  | sets => exact ⟨fun _ => rfl, Nat.le_refl _⟩
  | wakes => exact ⟨id, Nat.le_succ _⟩
  | _ => exact .refl _

/-- The requesters before their wake-up when one of the requesters has moved on. -/
theorem count_setting_set {requesters : List Requester} {requester : Requester} {number : Nat}
    (h : requesters[number]? = some requester) (next : Requester) :
    (requesters.set number next).count .setting + (if requester = .setting then 1 else 0) =
      requesters.count .setting + if next = .setting then 1 else 0 := by
  obtain ⟨hlt, hget⟩ := List.getElem?_eq_some_iff.mp h
  rw [List.count_set hlt, hget]
  by_cases hsetting : requester = .setting
  · have hpos : 0 < requesters.count .setting :=
      List.count_pos_iff.mpr (hsetting ▸ List.mem_of_getElem? h)
    simp only [hsetting, beq_iff_eq, if_true]
    omega
  · simp only [hsetting, beq_iff_eq, if_false, Nat.sub_zero, Nat.add_zero]

theorem Sound.step (h : Sound v) (hmoves : Moves v act v') : Sound v' := by
  have hwakeups := h.wakeups
  have hstays (waiter : Waiter) (hmem : waiter ∈ v.waiters) : waiter.Knows v'.signal :=
    hmoves.advances.knows (h.waiters waiter hmem)
  -- One waiter has moved on, and the signal is the same.
  have hset {number : Nat} {next : Waiter} (hnext : next.Knows v.signal) :
      Sound { v with waiters := v.waiters.set number next } := by
    refine ⟨hwakeups, fun waiter hmem => ?_⟩
    rcases List.mem_or_eq_of_mem_set hmem with hmem | rfl
    · exact h.waiters waiter hmem
    · exact hnext
  cases hmoves with
  | request =>
      refine ⟨?_, hstays⟩
      rwa [List.count_append, show [Requester.arriving].count .setting = 0 from rfl]
  | await =>
      refine ⟨hwakeups, fun waiter hmem => ?_⟩
      rcases List.mem_append.mp hmem with hmem | hmem
      · exact h.waiters waiter hmem
      · obtain rfl := List.mem_singleton.mp hmem
        trivial
  | @sets number hrequester hflag =>
      have hcount : (v.requesters.set number .setting).count .setting =
          v.requesters.count .setting + 1 := by
        simpa using count_setting_set hrequester .setting
      rw [hflag] at hwakeups
      refine ⟨?_, hstays⟩
      change v.signal.wakeups + (v.requesters.set number .setting).count .setting = 1
      rw [hcount, ← Nat.add_assoc, hwakeups]
      rfl
  | @passes number hrequester =>
      have hcount : (v.requesters.set number .finished).count .setting =
          v.requesters.count .setting := by
        simpa using count_setting_set hrequester .finished
      refine ⟨?_, hstays⟩
      change v.signal.wakeups + (v.requesters.set number .finished).count .setting = _
      rw [hcount, hwakeups]
  | @wakes number hrequester =>
      have hcount : (v.requesters.set number .finished).count .setting + 1 =
          v.requesters.count .setting := by
        simpa using count_setting_set hrequester .finished
      refine ⟨?_, hstays⟩
      change v.signal.wakeups + 1 + (v.requesters.set number .finished).count .setting = _
      rw [Nat.add_right_comm, Nat.add_assoc, hcount, hwakeups]
  | takes => exact hset (Nat.le_refl _)
  | sees _ hflag => exact hset hflag
  | @sleeps number ticket hwaiter hflag =>
      -- The flag is not set, so nobody has been woken yet.
      have hticket : ticket ≤ v.signal.wakeups := h.waiters _ (List.mem_of_getElem? hwaiter)
      rw [hflag] at hwakeups
      have hnone : v.signal.wakeups = 0 := (Nat.add_eq_zero_iff.mp hwakeups).1
      exact hset (Nat.le_zero.mp (hnone ▸ hticket))
  | rises => exact hset trivial

theorem run_induction {P : ShutdownCalls → Prop} (hstep : ∀ {act v v'}, P v → Moves v act v' → P v')
    (hv : P v) (hrun : run acts v = some v') : P v' := by
  induction acts generalizing v with
  | nil => exact Option.some.inj hrun ▸ hv
  | cons act acts ih =>
      obtain ⟨next, hnext, hrest⟩ := Option.bind_eq_some_iff.mp hrun
      exact ih (hstep hv (moves_of_step hnext)) hrest

theorem Sound.run (h : Sound v) (hrun : run acts v = some v') : Sound v' :=
  run_induction Sound.step h hrun

theorem requested_of_run (hrun : run acts v = some v') (hset : v.signal.requested = true) :
    v'.signal.requested = true :=
  run_induction (P := fun v => v.signal.requested = true)
    (fun hset hmoves => hmoves.advances.requested hset) hset hrun

/-- Who returns has seen the flag. -/
theorem Moves.requested_of_returns (h : Moves v act v') {number : Nat}
    (hreturned : v'.waiters[number]? = some .returned)
    (hbefore : v.waiters[number]? ≠ some .returned) : v.signal.requested = true := by
  have hold {other : Nat} {next : Waiter} (hnext : next ≠ .returned) :
      (v.waiters.set other next)[number]? ≠ some .returned := by
    rw [List.getElem?_set]
    split
    · split
      · exact fun hsame => hnext (Option.some.inj hsame)
      · exact nofun
    · exact hbefore
  cases h with
  | request | sets | passes | wakes => exact absurd hreturned hbefore
  | await =>
      rw [List.getElem?_append] at hreturned
      split at hreturned
      · exact absurd hreturned hbefore
      · exact absurd (List.mem_singleton.mp (List.mem_of_getElem? hreturned)) nofun
  | sees _ hflag => exact hflag
  | takes | sleeps | rises => exact absurd hreturned (hold nofun)

/-! ### How often the waiters are woken -/

theorem Moves.wakeups_eq (h : Moves v act v') :
    v'.signal.wakeups = v.signal.wakeups + if v.wakesBy act then 1 else 0 := by
  cases h with
  | sets hrequester | passes hrequester => simp [wakesBy, hrequester]
  | wakes hrequester => simp [wakesBy, hrequester]
  | _ => rfl

theorem wakeups_of_run (hrun : run acts v = some v') :
    v'.signal.wakeups = v.signal.wakeups + wakings acts v := by
  induction acts generalizing v with
  | nil => exact Option.some.inj hrun ▸ rfl
  | cons act acts ih =>
      obtain ⟨next, hnext, hrest⟩ := Option.bind_eq_some_iff.mp hrun
      have hwakings : wakings (act :: acts) v =
          (if v.wakesBy act then 1 else 0) + wakings acts next := by
        rw [wakings, hnext]
        rfl
      rw [ih hrest, (moves_of_step hnext).wakeups_eq, hwakings, Nat.add_assoc]

/-! ### Once the waiters have been woken -/

/-- The flag is set, and who set it has woken the waiters. -/
structure Settled (v : ShutdownCalls) : Prop where
  sound : Sound v
  requested : v.signal.requested = true
  woken : .setting ∉ v.requesters

theorem Settled.wakeups_eq (h : Settled v) : v.signal.wakeups = 1 := by
  have hwakeups := h.sound.wakeups
  rwa [h.requested, List.count_eq_zero.mpr h.woken] at hwakeups

/-- Nobody sleeps on. -/
theorem Settled.lt_wakeups (h : Settled v) {ticket : Nat}
    (hmem : .suspended ticket ∈ v.waiters) : ticket < v.signal.wakeups := by
  have hticket : ticket = 0 := h.sound.waiters _ hmem
  rw [hticket, h.wakeups_eq]
  exact Nat.zero_lt_one

theorem Settled.step (h : Settled v) (hmoves : Moves v act v') : Settled v' := by
  refine ⟨h.sound.step hmoves, hmoves.advances.requested h.requested, ?_⟩
  cases hmoves with
  | request =>
      refine fun hmem => ?_
      rcases List.mem_append.mp hmem with hmem | hmem
      · exact h.woken hmem
      · exact absurd (List.mem_singleton.mp hmem) nofun
  | sets _ hflag => exact absurd (h.requested.symm.trans hflag) nofun
  | passes =>
      refine fun hmem => ?_
      rcases List.mem_or_eq_of_mem_set hmem with hmem | hsame
      · exact h.woken hmem
      · exact absurd hsame nofun
  | wakes hrequester => exact absurd (List.mem_of_getElem? hrequester) h.woken
  | _ => exact h.woken

/-- A step of a waiter brings it one step nearer to its return, and it takes no other. -/
theorem Settled.left_step (h : Settled v) (hmoves : Moves v act v') {number : Nat} {waiter : Waiter}
    (hwaiter : v.waiters[number]? = some waiter) :
    ∃ next, v'.waiters[number]? = some next ∧
      next.left + (if act = .waiter number then 1 else 0) = waiter.left := by
  have hset {other : Nat} {before next : Waiter} (hbefore : v.waiters[other]? = some before)
      (hleft : next.left + 1 = before.left) :
      ∃ now, (v.waiters.set other next)[number]? = some now ∧
        now.left + (if ShutdownAct.waiter other = .waiter number then 1 else 0) =
          waiter.left := by
    by_cases hother : other = number
    · subst hother
      obtain rfl := Option.some.inj (hbefore.symm.trans hwaiter)
      obtain ⟨hlt, -⟩ := List.getElem?_eq_some_iff.mp hwaiter
      exact ⟨next, List.getElem?_set_self hlt, by rw [if_pos rfl, hleft]⟩
    · refine ⟨waiter, (List.getElem?_set_ne hother).trans hwaiter, ?_⟩
      rw [if_neg fun hsame => hother (ShutdownAct.waiter.inj hsame), Nat.add_zero]
  cases hmoves with
  | request | sets | passes | wakes => exact ⟨waiter, hwaiter, rfl⟩
  | await =>
      obtain ⟨hlt, -⟩ := List.getElem?_eq_some_iff.mp hwaiter
      exact ⟨waiter, (List.getElem?_append_left hlt).trans hwaiter, rfl⟩
  | takes hbefore | sees hbefore | rises hbefore => exact hset hbefore rfl
  | sleeps _ hflag => exact absurd (h.requested.symm.trans hflag) nofun

theorem Settled.left_run (h : Settled v) (hrun : run acts v = some v') {number : Nat}
    {waiter : Waiter} (hwaiter : v.waiters[number]? = some waiter) :
    ∃ next, v'.waiters[number]? = some next ∧
      next.left + acts.count (.waiter number) = waiter.left := by
  induction acts generalizing v waiter with
  | nil => exact ⟨waiter, Option.some.inj hrun ▸ hwaiter, rfl⟩
  | cons act acts ih =>
      obtain ⟨between, hnext, hrest⟩ := Option.bind_eq_some_iff.mp hrun
      have hmoves := moves_of_step hnext
      obtain ⟨now, hnow, hstep⟩ := h.left_step hmoves hwaiter
      obtain ⟨next, hnext, hleft⟩ := ih (h.step hmoves) hrest hnow
      refine ⟨next, hnext, ?_⟩
      rw [List.count_cons, ← Nat.add_assoc, hleft, ← hstep]
      simp only [beq_iff_eq]

/-- A waiter that has not returned can go on. -/
theorem Settled.isSome_step (h : Settled v) {number : Nat} {waiter : Waiter}
    (hwaiter : v.waiters[number]? = some waiter) (hleft : waiter ≠ .returned) :
    (v.step (.waiter number)).isSome := by
  cases waiter with
  | arriving | holding => rw [step_waiter hwaiter rfl, Option.isSome_some]
  | suspended ticket =>
      have hticket := h.lt_wakeups (List.mem_of_getElem? hwaiter)
      rw [step_waiter hwaiter (if_pos hticket), Option.isSome_some]
  | returned => exact absurd rfl hleft

/-! ### Calls that nobody interrupts -/

theorem step_last_requester {others : List Requester} {requester next : Requester}
    {signal : ShutdownSignal} (hlast : v.requesters = others ++ [requester])
    (hnext : requester.step v.signal = some (next, signal)) :
    v.step (.requester others.length) = some { v with
      signal := signal
      requesters := others ++ [next] } := by
  have hrequester : v.requesters[others.length]? = some requester :=
    hlast ▸ List.getElem?_concat_length
  rw [step_requester hrequester hnext, hlast, List.set_append_right _ _ (Nat.le_refl _),
    Nat.sub_self]
  rfl

theorem step_last_waiter {others : List Waiter} {waiter next : Waiter}
    (hlast : v.waiters = others ++ [waiter]) (hnext : waiter.step v.signal = some next) :
    v.step (.waiter others.length) = some { v with waiters := others ++ [next] } := by
  have hwaiter : v.waiters[others.length]? = some waiter :=
    hlast ▸ List.getElem?_concat_length
  rw [step_waiter hwaiter hnext, hlast, List.set_append_right _ _ (Nat.le_refl _), Nat.sub_self]
  rfl

theorem run_of_step {next : ShutdownCalls} (h : v.step act = some next) :
    run (act :: acts) v = run acts next := by
  rw [run, h, Option.bind_some]

/-- A request that nobody interrupts is `ShutdownSignal.request`. -/
theorem request_alone (v : ShutdownCalls) :
    ∃ acts, run acts v = some { v with
      signal := v.signal.request
      requesters := v.requesters ++ [.finished] } := by
  obtain ⟨⟨requested, wakeups⟩, requesters, waiters⟩ := v
  cases requested with
  | true =>
      refine ⟨[.request, .requester requesters.length], ?_⟩
      rw [run_of_step rfl, run_of_step (step_last_requester rfl rfl)]
      rfl
  | false =>
      refine ⟨[.request, .requester requesters.length, .requester requesters.length], ?_⟩
      rw [run_of_step rfl, run_of_step (step_last_requester rfl rfl),
        run_of_step (step_last_requester rfl rfl)]
      rfl

/-- A wait that nobody interrupts returns where `ShutdownSignal.resolves` says so. -/
theorem wait_alone (h : v.signal.resolves = true) :
    run [.await, .waiter v.waiters.length, .waiter v.waiters.length] v =
      some { v with waiters := v.waiters ++ [.returned] } := by
  obtain ⟨⟨requested, wakeups⟩, requesters, waiters⟩ := v
  obtain rfl : requested = true := (ShutdownSignal.resolves_eq_requested _).symm.trans h
  rw [run_of_step rfl, run_of_step (step_last_waiter rfl rfl),
    run_of_step (step_last_waiter rfl rfl)]
  rfl

/-! ### The main statement -/

/-- No request for shutdown is missed. However the steps of requests and waits of one signal's
clones come one after another:

* where the flag is set and no requester stands between setting it and waking the waiters, the
  wake-up has reached the ticket of every waiter that is suspended; each waiter can go on until it
  has returned, and does so after at most three steps of its own, whatever the others do meanwhile;
* a waiter returns only when the flag has been set;
* the flag is never reset;
* the waiters are woken once at most, however many requests are made. -/
theorem misses_no_request (h : run acts start = some v) :
    (v.signal.requested = true → .setting ∉ v.requesters →
      (∀ ticket, .suspended ticket ∈ v.waiters → ticket < v.signal.wakeups) ∧
      ∀ later v', run later v = some v' →
        ∀ (number : Nat) (waiter : Waiter), v.waiters[number]? = some waiter →
          ∃ next, v'.waiters[number]? = some next ∧
            next.left + later.count (.waiter number) = waiter.left ∧
            (next ≠ .returned → (v'.step (.waiter number)).isSome)) ∧
    (.returned ∈ v.waiters → v.signal.requested = true) ∧
    (∀ act v' (number : Nat), v.step act = some v' → v'.waiters[number]? = some .returned →
      v.waiters[number]? ≠ some .returned → v.signal.requested = true) ∧
    (∀ later v', run later v = some v' → v.signal.requested = true →
      v'.signal.requested = true) ∧
    v.signal.wakeups = wakings acts start ∧ wakings acts start ≤ 1 := by
  have hsound : Sound v := sound_start.run h
  have hwakings : v.signal.wakeups = wakings acts start := by
    rw [wakeups_of_run h]
    exact Nat.zero_add _
  refine ⟨fun hflag hwoken => ?_, fun hmem => hsound.waiters _ hmem,
    fun act v' number hstep => (moves_of_step hstep).requested_of_returns,
    fun later v' hrun => requested_of_run hrun, hwakings, ?_⟩
  · have hsettled : Settled v := ⟨hsound, hflag, hwoken⟩
    refine ⟨fun ticket hmem => hsettled.lt_wakeups hmem,
      fun later v' hrun number waiter hwaiter => ?_⟩
    obtain ⟨next, hnext, hleft⟩ := hsettled.left_run hrun hwaiter
    have hlater : Settled v' := run_induction Settled.step hsettled hrun
    exact ⟨next, hnext, hleft, hlater.isSome_step hnext⟩
  · rw [← hwakings]
    have hwakeups := hsound.wakeups
    split at hwakeups <;> omega

/-- A waiter goes to sleep right before the flag is set, and another takes its ticket after that but
before the waiters are woken; a second request comes in between. -/
theorem misses_no_request_amid_waits :
    let acts : List ShutdownAct := [.await, .await, .request, .request, .waiter 0, .waiter 0,
      .requester 1, .waiter 1, .requester 0, .requester 1]
    let v : ShutdownCalls := ⟨⟨true, 1⟩, [.finished, .finished], [.suspended 0, .holding 0]⟩
    run acts start = some v ∧ 0 < v.signal.wakeups ∧
      ∀ later v', run later v = some v' → ∃ next, v'.waiters[0]? = some next ∧
        next.left + later.count (.waiter 0) = 3 := by
  intro acts v
  have hrun : run acts start = some v := by decide
  obtain ⟨hwoken, hleft⟩ := (misses_no_request hrun).1 rfl (by decide)
  refine ⟨hrun, hwoken 0 (by decide), fun later v' hlater => ?_⟩
  obtain ⟨next, hnext, hcount, -⟩ := hleft later v' hlater 0 (.suspended 0) rfl
  exact ⟨next, hnext, hcount⟩

end ShutdownCalls

end DaqServer
