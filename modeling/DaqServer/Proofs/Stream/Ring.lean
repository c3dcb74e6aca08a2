import DaqServer.Stream.Ring
import DaqServer.Proofs.Rounds
import Mathlib.Data.List.GetD

/-!
# The slot ring as a bounded queue

The two sides of a ring never compare their indices; what keeps them apart are the permits alone.
`Holds` ties both to the blocks pushed so far, and every operation of a side has a lemma that says
how it moves on. `Ring.Step` interleaves the operations of a writer and a reader. Main statement:
whatever the order of their steps, the ring is a first-in first-out queue with room for as many
blocks as it has slots.
-/

namespace DaqServer

namespace Ring

theorem eq_of_takeEmpty {r r' : Ring} (h : r.takeEmpty = some r') :
    r.empty ≠ 0 ∧ r' = { r with empty := r.empty - 1 } := by
  simp only [takeEmpty, Option.ite_none_left_eq_some, Option.some.injEq] at h
  exact ⟨h.1, h.2.symm⟩

theorem eq_of_takeFull {r r' : Ring} (h : r.takeFull = some r') :
    r.full ≠ 0 ∧ r' = { r with full := r.full - 1 } := by
  simp only [takeFull, Option.ite_none_left_eq_some, Option.some.injEq] at h
  exact ⟨h.1, h.2.symm⟩

/-- A ring between its operations: all blocks pushed so far, how many of them were released, and
the permits that the writer and the reader have in hand. -/
structure Holds (r : Ring) (pushed : List Bytes) (freed writing reading : Nat) : Prop where
  capacity_pos : 0 < r.capacity
  writeIndex_eq : r.writeIndex = pushed.length % r.capacity
  readIndex_eq : r.readIndex = freed % r.capacity
  empty_add : r.empty + writing + pushed.length = r.capacity + freed
  full_add : r.full + reading + freed = pushed.length
  slots_eq : ∀ k, freed ≤ k → k < pushed.length → r.slots[k % r.capacity]? = pushed[k]?

theorem holds_make {slots : Nat} (hslots : 0 < slots) (slotBytes : Nat) :
    (make slots slotBytes).Holds [] 0 0 0 where
  capacity_pos := by simpa using hslots
  writeIndex_eq := by simp [make]
  readIndex_eq := by simp [make]
  empty_add := by simp [make, capacity]
  full_add := rfl
  slots_eq k _ hk := absurd hk (Nat.not_lt_zero k)

namespace Holds

variable {r r' : Ring} {pushed : List Bytes} {freed writing reading : Nat}

theorem takeEmpty (h : r.Holds pushed freed 0 reading) (hr : r.takeEmpty = some r') :
    r'.Holds pushed freed 1 reading := by
  obtain ⟨hempty, rfl⟩ := eq_of_takeEmpty hr
  have hadd := h.empty_add
  exact { h with empty_add := by change r.empty - 1 + 1 + _ = r.capacity + freed; omega }

theorem giveBack (h : r.Holds pushed freed 1 reading) : r.giveBack.Holds pushed freed 0 reading :=
  { h with empty_add := h.empty_add }

/-- The slot that the writer fills is none of those that were not released yet. -/
theorem writeIndex_ne (h : r.Holds pushed freed 1 reading) {k : Nat} (hfreed : freed ≤ k)
    (hpushed : k < pushed.length) : k % r.capacity ≠ r.writeIndex := by
  have hadd := h.empty_add
  rw [h.writeIndex_eq]
  exact Rounds.mod_ne_mod hpushed (by omega)

theorem fill (h : r.Holds pushed freed 1 reading) (contents : Bytes) :
    (r.fill contents).Holds pushed freed 1 reading where
  capacity_pos := by rw [capacity_fill]; exact h.capacity_pos
  writeIndex_eq := by rw [capacity_fill]; exact h.writeIndex_eq
  readIndex_eq := by rw [capacity_fill]; exact h.readIndex_eq
  empty_add := by rw [capacity_fill]; exact h.empty_add
  full_add := h.full_add
  slots_eq k hfreed hpushed := by
    rw [capacity_fill, ← h.slots_eq k hfreed hpushed]
    exact List.getElem?_set_ne (h.writeIndex_ne hfreed hpushed).symm

theorem getElem?_fill (h : r.Holds pushed freed writing reading) (contents : Bytes) :
    (r.fill contents).slots[(r.fill contents).writeIndex]? = some contents := by
  have hindex : r.writeIndex < r.slots.length := by
    rw [h.writeIndex_eq]
    exact Nat.mod_lt _ h.capacity_pos
  exact List.getElem?_set_self hindex

theorem publish (h : r.Holds pushed freed 1 reading) {contents : Bytes}
    (hslot : r.slots[r.writeIndex]? = some contents) :
    r.publish.Holds (pushed ++ [contents]) freed 0 reading where
  capacity_pos := h.capacity_pos
  writeIndex_eq := by
    change (r.writeIndex + 1) % r.capacity = (pushed ++ [contents]).length % r.capacity
    rw [h.writeIndex_eq, Nat.mod_add_mod, List.length_append, List.length_singleton]
  readIndex_eq := h.readIndex_eq
  empty_add := by
    have hadd := h.empty_add
    change r.empty + 0 + (pushed ++ [contents]).length = r.capacity + freed
    rw [List.length_append, List.length_singleton]
    omega
  full_add := by
    have hadd := h.full_add
    change r.full + 1 + reading + freed = (pushed ++ [contents]).length
    rw [List.length_append, List.length_singleton]
    omega
  slots_eq k hfreed hpushed := by
    change r.slots[k % r.capacity]? = (pushed ++ [contents])[k]?
    rw [List.length_append, List.length_singleton] at hpushed
    rcases Nat.lt_succ_iff_lt_or_eq.mp hpushed with hlt | rfl
    · rw [List.getElem?_append_left hlt, h.slots_eq k hfreed hlt]
    · rw [← h.writeIndex_eq, hslot, List.getElem?_concat_length]

theorem takeFull (h : r.Holds pushed freed writing 0) (hr : r.takeFull = some r') :
    r'.Holds pushed freed writing 1 := by
  obtain ⟨hfull, rfl⟩ := eq_of_takeFull hr
  have hadd := h.full_add
  exact { h with full_add := by change r.full - 1 + 1 + freed = pushed.length; omega }

theorem readSlot (h : r.Holds pushed freed writing 1) : pushed[freed]? = some r.readSlot := by
  have hadd := h.full_add
  have hlt : freed < pushed.length := by omega
  have hslot := h.slots_eq freed le_rfl hlt
  rw [← h.readIndex_eq, List.getElem?_eq_getElem hlt] at hslot
  rw [Ring.readSlot, List.getD_eq_getElem?_getD, hslot, List.getElem?_eq_getElem hlt]
  rfl

theorem release (h : r.Holds pushed freed writing 1) :
    r.release.Holds pushed (freed + 1) writing 0 where
  capacity_pos := h.capacity_pos
  writeIndex_eq := h.writeIndex_eq
  readIndex_eq := by
    change (r.readIndex + 1) % r.capacity = (freed + 1) % r.capacity
    rw [h.readIndex_eq, Nat.mod_add_mod]
  empty_add := by
    have hadd := h.empty_add
    change r.empty + 1 + writing + pushed.length = r.capacity + (freed + 1)
    omega
  full_add := by
    have hadd := h.full_add
    change r.full + 0 + (freed + 1) = pushed.length
    omega
  slots_eq k hfreed hpushed := h.slots_eq k (Nat.le_of_succ_le hfreed) hpushed

end Holds

/-! ## A writer and a reader at work -/

inductive WriterPoint
  | resting
  /-- It has a permit and is about to fill its slot. -/
  | filling
  /-- It has filled its slot and is about to hand it over. -/
  | publishing (contents : Bytes)
  /-- It could not fill its slot and is about to return the permit. -/
  | returning

inductive ReaderPoint
  | resting
  /-- It has a permit and is about to copy its slot. -/
  | copying
  /-- It has copied its slot and is about to release it. -/
  | releasing

def WriterPoint.permits : WriterPoint → Nat
  | resting => 0
  | filling | publishing _ | returning => 1

def ReaderPoint.permits : ReaderPoint → Nat
  | resting => 0
  | copying | releasing => 1

/-- The blocks that the reader has copied and not released. -/
def ReaderPoint.copied : ReaderPoint → Nat
  | resting | copying => 0
  | releasing => 1

structure InUse where
  ring : Ring
  writer : WriterPoint
  reader : ReaderPoint

/-- What a queue sees of a ring. -/
inductive Event
  | pushed (block : Bytes)
  | popped (block : Bytes)
  | released

/-- One step of the writer or the reader, and what a queue sees of it. Filling a slot may leave any
contents, and it may fail after it has written some; a wait for a permit may time out. -/
inductive Step : InUse → Option Event → InUse → Prop
  | takeEmpty {r r' : Ring} {reader : ReaderPoint} (h : r.takeEmpty = some r') :
      Step ⟨r, .resting, reader⟩ none ⟨r', .filling, reader⟩
  | pushTimeout {r : Ring} {reader : ReaderPoint} :
      Step ⟨r, .resting, reader⟩ none ⟨r, .resting, reader⟩
  | fill {r : Ring} {reader : ReaderPoint} (contents : Bytes) :
      Step ⟨r, .filling, reader⟩ none ⟨r.fill contents, .publishing contents, reader⟩
  | fillFails {r : Ring} {reader : ReaderPoint} (contents : Bytes) :
      Step ⟨r, .filling, reader⟩ none ⟨r.fill contents, .returning, reader⟩
  | publish {r : Ring} {reader : ReaderPoint} {contents : Bytes} :
      Step ⟨r, .publishing contents, reader⟩ (some (.pushed contents)) ⟨r.publish, .resting, reader⟩
  | giveBack {r : Ring} {reader : ReaderPoint} :
      Step ⟨r, .returning, reader⟩ none ⟨r.giveBack, .resting, reader⟩
  | takeFull {r r' : Ring} {writer : WriterPoint} (h : r.takeFull = some r') :
      Step ⟨r, writer, .resting⟩ none ⟨r', writer, .copying⟩
  | popTimeout {r : Ring} {writer : WriterPoint} :
      Step ⟨r, writer, .resting⟩ none ⟨r, writer, .resting⟩
  | copy {r : Ring} {writer : WriterPoint} :
      Step ⟨r, writer, .copying⟩ (some (.popped r.readSlot)) ⟨r, writer, .releasing⟩
  | release {r : Ring} {writer : WriterPoint} :
      Step ⟨r, writer, .releasing⟩ (some .released) ⟨r.release, writer, .resting⟩

/-- The runs of a ring from its making on, with the events seen, oldest first. -/
inductive Runs (slots slotBytes : Nat) : List Event → InUse → Prop
  | start : Runs slots slotBytes [] ⟨make slots slotBytes, .resting, .resting⟩
  | quiet {events : List Event} {s t : InUse} (h : Runs slots slotBytes events s)
      (step : Step s none t) : Runs slots slotBytes events t
  | seen {events : List Event} {event : Event} {s t : InUse} (h : Runs slots slotBytes events s)
      (step : Step s (some event) t) : Runs slots slotBytes (events ++ [event]) t

/-! ## The queue -/

structure Queue where
  room : Nat
  blocks : List Bytes

/-- A queue after an event; nothing if the event cannot happen: a block may be pushed if there is
room, only the oldest block can be popped, and what is released is the oldest block. -/
def Queue.after (q : Queue) : Event → Option Queue
  | .pushed block => if q.blocks.length < q.room then some ⟨q.room, q.blocks ++ [block]⟩ else none
  | .popped block => if q.blocks.head? = some block then some q else none
  | .released => match q.blocks with
    | [] => none
    | _ :: blocks => some ⟨q.room, blocks⟩

def pushes (events : List Event) : List Bytes :=
  events.filterMap fun
    | .pushed block => some block
    | _ => none

def pops (events : List Event) : List Bytes :=
  events.filterMap fun
    | .popped block => some block
    | _ => none

def releases (events : List Event) : Nat :=
  events.countP fun
    | .released => true
    | _ => false

namespace InUse

def unreleased (s : InUse) : Nat := s.ring.full + s.reader.permits

def place (s : InUse) (i : Nat) : Nat := (s.ring.readIndex + i) % s.ring.capacity

/-- The blocks in a ring that were not released, as they lie in its slots, oldest first. -/
def contents (s : InUse) : List Bytes :=
  (List.range s.unreleased).map fun i => s.ring.slots.getD (s.place i) []

/-- How the state of a ring goes with the events so far. -/
structure Agrees (slots : Nat) (events : List Event) (s : InUse) : Prop where
  holds : s.ring.Holds (pushes events) (releases events) s.writer.permits s.reader.permits
  capacity_eq : s.ring.capacity = slots
  filled : ∀ contents, s.writer = .publishing contents →
    s.ring.slots[s.ring.writeIndex]? = some contents
  popped : pops events = (pushes events).take (releases events + s.reader.copied)
  queue : events.foldlM Queue.after ⟨slots, []⟩ =
    some ⟨slots, (pushes events).drop (releases events)⟩

theorem agrees_start {slots : Nat} (hslots : 0 < slots) (slotBytes : Nat) :
    Agrees slots [] ⟨make slots slotBytes, .resting, .resting⟩ where
  holds := holds_make hslots slotBytes
  capacity_eq := capacity_make slots slotBytes
  filled := nofun
  popped := rfl
  queue := rfl

section Contents

variable {s : InUse} {pushed : List Bytes} {freed writing : Nat}

theorem unreleased_eq (h : s.ring.Holds pushed freed writing s.reader.permits) :
    s.unreleased = pushed.length - freed := by
  have hadd := h.full_add
  rw [unreleased]
  omega

theorem place_eq (h : s.ring.Holds pushed freed writing s.reader.permits) (i : Nat) :
    s.place i = (freed + i) % s.ring.capacity := by
  rw [place, h.readIndex_eq, Nat.mod_add_mod]

/-- The blocks that were not released are the last ones pushed. -/
theorem contents_eq (h : s.ring.Holds pushed freed writing s.reader.permits) :
    s.contents = pushed.drop freed := by
  have hunreleased := unreleased_eq h
  apply List.ext_getElem
  · rw [contents, List.length_map, List.length_range, List.length_drop, hunreleased]
  · intro i hi hi'
    rw [List.length_drop] at hi'
    have hlt : freed + i < pushed.length := by omega
    have hslot := h.slots_eq (freed + i) (Nat.le_add_right _ _) hlt
    rw [List.getElem?_eq_getElem hlt] at hslot
    simp only [contents, List.getElem_map, List.getElem_range, List.getElem_drop, place_eq h,
      List.getD_eq_getElem?_getD, hslot, Option.getD_some]

end Contents

theorem queue_snoc {slots : Nat} {events : List Event} {q q' : Queue} {event : Event}
    (h : events.foldlM Queue.after ⟨slots, []⟩ = some q) (hq : q.after event = some q') :
    (events ++ [event]).foldlM Queue.after ⟨slots, []⟩ = some q' := by
  rw [List.foldlM_append, h]
  simp [hq]

/-- A step that the queue does not see keeps the ring with the queue as it is. -/
theorem agrees_quiet {slots : Nat} {events : List Event} {s t : InUse}
    (h : Agrees slots events s) (step : Step s none t) : Agrees slots events t := by
  cases step with
  | takeEmpty hr =>
      have hholds := h.holds.takeEmpty hr
      obtain ⟨-, rfl⟩ := eq_of_takeEmpty hr
      exact { h with holds := hholds, filled := nofun }
  | pushTimeout => exact h
  | fill contents =>
      exact {
        holds := h.holds.fill contents
        capacity_eq := (capacity_fill _ _).trans h.capacity_eq
        filled := by rintro _ ⟨⟩; exact h.holds.getElem?_fill contents
        popped := h.popped
        queue := h.queue }
  | fillFails contents =>
      exact {
        holds := h.holds.fill contents
        capacity_eq := (capacity_fill _ _).trans h.capacity_eq
        filled := nofun
        popped := h.popped
        queue := h.queue }
  | giveBack => exact { h with holds := h.holds.giveBack, filled := nofun }
  | takeFull hr =>
      have hholds := h.holds.takeFull hr
      obtain ⟨-, rfl⟩ := eq_of_takeFull hr
      exact { h with holds := hholds }
  | popTimeout => exact h

/-- A step that the queue sees is one that the queue can take. -/
theorem agrees_seen {slots : Nat} {events : List Event} {event : Event} {s t : InUse}
    (h : Agrees slots events s) (step : Step s (some event) t) :
    Agrees slots (events ++ [event]) t := by
  have hempty := h.holds.empty_add
  have hfull := h.holds.full_add
  have hcapacity := h.capacity_eq
  cases step with
  | @publish r reader contents =>
      have hpushes : pushes (events ++ [.pushed contents]) = pushes events ++ [contents] := by
        simp [pushes]
      have hpops : pops (events ++ [.pushed contents]) = pops events := by simp [pops]
      have hreleases : releases (events ++ [.pushed contents]) = releases events := by
        simp [releases]
      have hcopied : reader.copied ≤ reader.permits := by cases reader <;> decide
      change r.empty + 1 + _ = r.capacity + _ at hempty
      change r.full + reader.permits + _ = _ at hfull
      change r.capacity = slots at hcapacity
      refine ⟨?_, h.capacity_eq, nofun, ?_, queue_snoc h.queue ?_⟩
      · rw [hpushes, hreleases]
        exact h.holds.publish (h.filled contents rfl)
      · have hle : releases events + reader.copied ≤ (pushes events).length := by omega
        rw [hpops, hpushes, hreleases, h.popped]
        exact (List.take_append_of_le_length hle).symm
      · have hroom : ((pushes events).drop (releases events)).length < slots := by
          rw [List.length_drop]
          omega
        rw [hpushes, hreleases, List.drop_append_of_le_length (by omega)]
        exact if_pos hroom
  | @copy r writer =>
      have hread := h.holds.readSlot
      have hpushes : pushes (events ++ [.popped r.readSlot]) = pushes events := by simp [pushes]
      have hpops : pops (events ++ [.popped r.readSlot]) = pops events ++ [r.readSlot] := by
        simp [pops]
      have hreleases : releases (events ++ [.popped r.readSlot]) = releases events := by
        simp [releases]
      change (pushes events)[releases events]? = some r.readSlot at hread
      refine ⟨?_, h.capacity_eq, h.filled, ?_, queue_snoc h.queue ?_⟩
      · rw [hpushes, hreleases]
        exact h.holds
      · rw [hpops, hpushes, hreleases, h.popped]
        change (pushes events).take (releases events) ++ [r.readSlot] =
          (pushes events).take (releases events + 1)
        rw [List.take_add_one, hread, Option.toList_some]
      · rw [hpushes, hreleases]
        refine if_pos ?_
        rw [List.head?_drop]
        exact hread
  | @release r writer =>
      have hpushes : pushes (events ++ [.released]) = pushes events := by simp [pushes]
      have hpops : pops (events ++ [.released]) = pops events := by simp [pops]
      have hreleases : releases (events ++ [.released]) = releases events + 1 := by
        simp [releases]
      change r.full + 1 + _ = _ at hfull
      have hlt : releases events < (pushes events).length := by omega
      refine ⟨?_, h.capacity_eq, h.filled, ?_, queue_snoc h.queue ?_⟩
      · rw [hpushes, hreleases]
        exact h.holds.release
      · rw [hpops, hpushes, hreleases, h.popped]
        rfl
      · rw [hpushes, hreleases, List.drop_eq_getElem_cons hlt]
        rfl

theorem agrees_of_runs {slots slotBytes : Nat} (hslots : 0 < slots) {events : List Event}
    {s : InUse} (h : Runs slots slotBytes events s) : Agrees slots events s := by
  induction h with
  | start => exact agrees_start hslots slotBytes
  | quiet _ step ih => exact agrees_quiet ih step
  | seen _ step ih => exact agrees_seen ih step

/-- A step that the queue does not see leaves the contents as they are. -/
theorem contents_quiet {slots : Nat} {events : List Event} {s t : InUse}
    (h : Agrees slots events s) (step : Step s none t) : t.contents = s.contents := by
  rw [contents_eq h.holds, contents_eq (agrees_quiet h step).holds]

/-- A push that times out or fails leaves the contents as they are, whatever it has written. -/
theorem contents_push {ε : Type} {slots : Nat} {events : List Event} {r : Ring}
    {reader : ReaderPoint} (h : Agrees slots events ⟨r, .resting, reader⟩)
    (write : Bytes → Except ε Unit × Bytes) (hpush : (r.push write).1 ≠ .ok true) :
    contents ⟨(r.push write).2, .resting, reader⟩ = contents ⟨r, .resting, reader⟩ := by
  cases htake : r.takeEmpty with
  | none => simp only [Ring.push, htake]
  | some taken =>
      have hclaimed := agrees_quiet h (.takeEmpty htake)
      rcases hwrite : write taken.writeSlot with ⟨result, written⟩
      cases result with
      | ok _ =>
          simp only [Ring.push, htake, hwrite] at hpush
          exact absurd rfl hpush
      | error e =>
          have hfilled := agrees_quiet hclaimed (.fillFails written)
          simp only [Ring.push, htake, hwrite]
          rw [contents_quiet hfilled .giveBack, contents_quiet hclaimed (.fillFails written),
            contents_quiet h (.takeEmpty htake)]

/-- A pop that times out leaves the ring as it is. -/
theorem pop_of_none {r : Ring} (h : r.pop.1 = none) : r.pop.2 = r := by
  cases htake : r.takeFull with
  | none => simp only [pop, htake]
  | some taken => simp [pop, htake] at h

end InUse

/-- Whatever the order of the steps of its two sides, a ring is a bounded queue: the events are ones
that a queue with room for its slots can take, and its contents are what that queue holds; what was
popped are the first blocks pushed, and every block pushed was released or is still there; the slot
being filled holds no block that was not released; each permit is in one place; and what fails or
times out leaves the contents as they are. -/
theorem refines_queue {slots slotBytes : Nat} (hslots : 0 < slots) {events : List Event}
    {s : InUse} (h : Runs slots slotBytes events s) :
    events.foldlM Queue.after ⟨slots, []⟩ = some ⟨slots, s.contents⟩ ∧
    (∀ (k : Nat) (block : Bytes),
      (pops events)[k]? = some block → (pushes events)[k]? = some block) ∧
    (pops events).length = releases events + s.reader.copied ∧
    pushes events = (pops events).take (releases events) ++ s.contents ∧
    (s.writer.permits = 1 → ∀ i < s.unreleased, s.place i ≠ s.ring.writeIndex) ∧
    s.ring.empty + s.ring.full + s.writer.permits + s.reader.permits = slots ∧
    s.ring.capacity = slots ∧ s.ring.empty ≤ s.ring.capacity ∧
    s.ring.occupied = s.contents.length + s.writer.permits ∧
    (∀ t, Step s none t → t.contents = s.contents) ∧
    (s.writer = .resting → ∀ (ε : Type) (write : Bytes → Except ε Unit × Bytes),
      (s.ring.push write).1 ≠ .ok true →
        InUse.contents ⟨(s.ring.push write).2, s.writer, s.reader⟩ = s.contents) ∧
    (s.ring.pop.1 = none → s.ring.pop.2 = s.ring) := by
  have hagrees := InUse.agrees_of_runs hslots h
  have hholds := hagrees.holds
  have hempty := hholds.empty_add
  have hfull := hholds.full_add
  have hcapacity := hagrees.capacity_eq
  have hpopped := hagrees.popped
  have hcontents := InUse.contents_eq hholds
  have hcopied : s.reader.copied ≤ s.reader.permits := by cases s.reader <;> decide
  have hle : releases events + s.reader.copied ≤ (pushes events).length := by omega
  refine ⟨?_, ?_, ?_, ?_, ?_, ?_, hcapacity, ?_, ?_, ?_, ?_, InUse.pop_of_none⟩
  · rw [hcontents]
    exact hagrees.queue
  · intro k block hk
    rw [hpopped, List.getElem?_take] at hk
    exact (Option.ite_none_right_eq_some.mp hk).2
  · rw [hpopped, List.length_take, Nat.min_eq_left hle]
  · rw [hpopped, hcontents, List.take_take, Nat.min_eq_left (Nat.le_add_right _ _)]
    exact (List.take_append_drop _ _).symm
  · intro hwriter i hi
    rw [hwriter] at hholds
    rw [InUse.unreleased_eq hholds] at hi
    rw [InUse.place_eq hholds]
    exact hholds.writeIndex_ne (Nat.le_add_right _ _) (by omega)
  · omega
  · omega
  · rw [occupied, hcontents, List.length_drop]
    omega
  · intro t step
    exact InUse.contents_quiet hagrees step
  · rcases s with ⟨r, writer, reader⟩
    rintro ⟨⟩ ε write hpush
    exact InUse.contents_push hagrees write hpush

/-- One slot used twice, with a fill in between that failed after it had written. -/
theorem one_slot_used_twice :
    Runs 1 1 [.pushed [1], .popped [1], .released, .pushed [2]]
      ⟨⟨[[2]], 1, 0, 1, 0, 0⟩, .resting, .resting⟩ ∧
    [.pushed [1], .popped [1], .released, .pushed [2]].foldlM Queue.after ⟨1, []⟩ =
      some ⟨1, [[2]]⟩ := by
  have first : Runs 1 1 [.pushed [1]] ⟨⟨[[1]], 1, 0, 1, 0, 0⟩, .resting, .resting⟩ :=
    .seen (.quiet (.quiet .start (.takeEmpty rfl)) (.fill [1])) .publish
  have emptied : Runs 1 1 [.pushed [1], .popped [1], .released]
      ⟨⟨[[1]], 1, 1, 0, 0, 0⟩, .resting, .resting⟩ :=
    .seen (.seen (.quiet first (.takeFull rfl)) .copy) .release
  have failed : Runs 1 1 [.pushed [1], .popped [1], .released]
      ⟨⟨[[9]], 1, 1, 0, 0, 0⟩, .resting, .resting⟩ :=
    .quiet (.quiet (.quiet emptied (.takeEmpty rfl)) (.fillFails [9])) .giveBack
  have second : Runs 1 1 [.pushed [1], .popped [1], .released, .pushed [2]]
      ⟨⟨[[2]], 1, 0, 1, 0, 0⟩, .resting, .resting⟩ :=
    .seen (.quiet (.quiet failed (.takeEmpty rfl)) (.fill [2])) .publish
  exact ⟨second, (refines_queue Nat.one_pos second).1⟩

end Ring

end DaqServer
