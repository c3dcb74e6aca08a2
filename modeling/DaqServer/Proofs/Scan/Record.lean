import DaqServer.Proofs.Board.Access
import DaqServer.Scan.Record

/-!
# What goes on record

`Records` says of a computation that it does the same on a recorded port as on the port, and what
the events are that it adds to the record. A sequence adds the events of its parts, up to the first
part that fails.
-/

namespace DaqServer

variable {ε σ α β : Type} {port : Port σ}

/-- A computation on a recorded port does what one on the port does, and adds events that stand to
its result as `Q` says. -/
def Records (x : ExceptT ε (StateM σ) α) (y : ExceptT ε (StateM (σ × List PortEvent)) α)
    (Q : List PortEvent → Except ε α → Prop) : Prop :=
  ∀ s log, ∃ events, y (s, log) = ((x s).1, (x s).2, log ++ events) ∧ Q events (x s).1

variable {x : ExceptT ε (StateM σ) α} {y : ExceptT ε (StateM (σ × List PortEvent)) α}
  {Q R : List PortEvent → Except ε α → Prop}

theorem Records.mono (h : Records x y Q)
    (hQR : ∀ events result, Q events result → R events result) :
    Records x y R := by
  intro s log
  obtain ⟨events, hy, hQ⟩ := h s log
  exact ⟨events, hy, hQR events _ hQ⟩

theorem records_pure {a : α} (h : Q [] (.ok a)) :
    Records (pure a : ExceptT ε (StateM σ) α) (pure a) Q :=
  fun s log => ⟨[], by rw [List.append_nil]; rfl, h⟩

theorem records_throw {e : ε} (h : Q [] (.error e)) :
    Records (throw e : ExceptT ε (StateM σ) α) (throw e) Q :=
  fun s log => ⟨[], by rw [List.append_nil]; rfl, h⟩

theorem records_lift {result : Except ε α} (h : Q [] result) :
    Records (liftM result : ExceptT ε (StateM σ) α) (liftM result) Q :=
  fun s log => ⟨[], by rw [List.append_nil]; rfl, h⟩

/-- A sequence adds the events of its first part alone if that fails, else those of both. -/
theorem Records.bind {f : α → ExceptT ε (StateM σ) β}
    {g : α → ExceptT ε (StateM (σ × List PortEvent)) β} {S : List PortEvent → Except ε β → Prop}
    (h : Records x y Q) (herror : ∀ events e, Q events (.error e) → S events (.error e))
    (hok : ∀ events a, Q events (.ok a) →
      Records (f a) (g a) fun events' result => S (events ++ events') result) :
    Records (x >>= f) (y >>= g) S := by
  intro s log
  obtain ⟨events, hy, hQ⟩ := h s log
  rcases hx : x s with ⟨e | a, s'⟩
  · rw [hx] at hy hQ
    rw [bind_of_error hx]
    exact ⟨events, bind_of_error hy, herror events e hQ⟩
  · rw [hx] at hy hQ
    obtain ⟨events', hg, hS⟩ := hok events a hQ s' (log ++ events)
    rw [bind_of_ok hx]
    exact ⟨events ++ events', (bind_of_ok hy).trans (by rw [hg, List.append_assoc]), hS⟩

theorem Records.of_map_some {S : List PortEvent → Except ε (Option α) → Prop}
    (h : Records (some <$> x) (some <$> y) S) :
    Records x y fun events result => S events (result.map some) := by
  have hmap {τ : Type} (z : ExceptT ε (StateM τ) α) (t : τ) :
      (some <$> z) t = ((z t).1.map some, (z t).2) := by
    rw [map_eq_pure_bind]
    rcases hz : z t with ⟨e | a, t'⟩
    · exact bind_of_error hz
    · exact bind_of_ok hz
  intro s log
  obtain ⟨events, hy, hS⟩ := h s log
  rw [hmap, hmap] at hy
  rw [hmap] at hS
  obtain ⟨hresult, hstate⟩ := Prod.mk.inj hy
  refine ⟨events, Prod.ext ?_ hstate, hS⟩
  rcases hx : (x s).1 with e | a <;> rcases hy' : (y (s, log)).1 with e' | a' <;>
    rw [hx, hy'] at hresult <;> cases hresult <;> rfl

theorem records_read (offset : UInt8) :
    Records (port.read offset) (port.recorded.read offset)
      fun events result => events = [⟨.read offset, result⟩] :=
  fun _ _ => ⟨_, rfl, rfl⟩

theorem records_write (offset : UInt8) (value : UInt32) :
    Records (port.write offset value) (port.recorded.write offset value)
      fun events result => ∃ answer : PortAnswer,
        events = [⟨.write offset value, answer⟩] ∧ result = answer.map fun _ => () := by
  intro s log
  have hwrite : port.recorded.write offset value (s, log) =
      (port.note (.write offset value) >>= fun _ => pure ()) (s, log) := rfl
  rcases hresult : port.write offset value s with ⟨e | ⟨⟩, s'⟩
  · have hperform : (PortAccess.write offset value).perform port s = (.error e, s') :=
      bind_of_error hresult
    refine ⟨[⟨.write offset value, .error e⟩], ?_, _, rfl, rfl⟩
    rw [hwrite]
    exact bind_of_error (by rw [Port.note, hperform])
  · have hperform : (PortAccess.write offset value).perform port s = (.ok 0, s') :=
      bind_of_ok hresult
    have hnote : port.note (.write offset value) (s, log) =
        (.ok 0, s', log ++ [⟨.write offset value, .ok 0⟩]) := by rw [Port.note, hperform]
    refine ⟨[⟨.write offset value, .ok 0⟩], ?_, _, rfl, rfl⟩
    rw [hwrite, bind_of_ok hnote]
    rfl

theorem Records.access {x : Access σ α} {y : Access (σ × List PortEvent) α}
    {Q : List PortEvent → Except BoardError α → Prop} (h : Records x y Q) :
    Records (Acquisition.access x) (Acquisition.access y) fun events result =>
      ∃ answer, Q events answer ∧ result = answer.mapError .board := by
  intro s log
  obtain ⟨events, hy, hQ⟩ := h s log
  refine ⟨events, ?_, _, hQ, ?_⟩
  · rw [Acquisition.access_apply, Acquisition.access_apply, hy]
  · rw [Acquisition.access_apply]

section Acquisition

variable {S : List PortEvent → Except AcquisitionError β → Prop}

/-- An acquisition that reads a register and goes on with the word. -/
theorem Records.readThen {f : UInt32 → Acquisition σ β}
    {g : UInt32 → Acquisition (σ × List PortEvent) β} (offset : UInt8)
    (herror : ∀ e, S [⟨.read offset, .error e⟩] (.error (.board e)))
    (hok : ∀ word, Records (f word) (g word) fun events result =>
      S (.read offset word :: events) result) :
    Records (Acquisition.access (port.read offset) >>= f)
      (Acquisition.access (port.recorded.read offset) >>= g) S := by
  refine (records_read offset).access.bind ?_ ?_
  · rintro events e ⟨answer | _, rfl, he⟩
    · cases he
      exact herror answer
    · cases he
  · rintro events word ⟨_ | answer, rfl, hanswer⟩
    · cases hanswer
    · cases hanswer
      exact hok word

/-- An acquisition that writes a register and goes on. -/
theorem Records.writeThen {f : Unit → Acquisition σ β}
    {g : Unit → Acquisition (σ × List PortEvent) β} (offset : UInt8) (value : UInt32)
    (herror : ∀ e, S [⟨.write offset value, .error e⟩] (.error (.board e)))
    (hok : ∀ answer, Records (f ()) (g ()) fun events result =>
      S (⟨.write offset value, .ok answer⟩ :: events) result) :
    Records (Acquisition.access (port.write offset value) >>= f)
      (Acquisition.access (port.recorded.write offset value) >>= g) S := by
  refine (records_write offset value).access.bind ?_ ?_
  · rintro events e ⟨_, ⟨answer | _, rfl, rfl⟩, he⟩
    · cases he
      exact herror answer
    · cases he
  · rintro events ⟨⟩ ⟨_, ⟨_ | answer, rfl, rfl⟩, hanswer⟩
    · cases hanswer
    · exact hok answer

end Acquisition

end DaqServer
