import DaqServer.Board.Port
import DaqServer.Scan.Engine

/-!
# Sequences of accesses

A sequence of accesses goes on where one succeeds and ends where one fails; the board keeps what was
done before. The same holds for the accesses of an acquisition. `Chains` are the relations of the
state before to the state behind that single accesses hand on to sequences of them.
-/

namespace DaqServer

section Sequence

variable {ε σ α β : Type} {x : ExceptT ε (StateM σ) α} {f : α → ExceptT ε (StateM σ) β} {s s' : σ}

theorem bind_of_ok {a : α} (h : x s = (.ok a, s')) : (x >>= f) s = f a s' := by
  simp only [bind, ExceptT.bind, ExceptT.mk, StateT.bind, h, ExceptT.bindCont]

theorem bind_of_error {e : ε} (h : x s = (.error e, s')) : (x >>= f) s = (.error e, s') := by
  simp only [bind, ExceptT.bind, ExceptT.mk, StateT.bind, h, ExceptT.bindCont]
  rfl

/-- What ends well went well up to there. -/
theorem exists_of_bind {b : β} (h : (x >>= f) s = (.ok b, s')) :
    ∃ a t, x s = (.ok a, t) ∧ f a t = (.ok b, s') := by
  rcases hx : x s with ⟨e | a, t⟩
  · rw [bind_of_error hx] at h
    cases h
  · rw [bind_of_ok hx] at h
    exact ⟨a, t, rfl, h⟩

/-- What changes nothing may be done for every index in turn. -/
theorem ofFnM_of_ok {n : Nat} {g : Fin n → ExceptT ε (StateM σ) α} {v : Fin n → α}
    (h : ∀ i, g i s = (.ok (v i), s)) : Vector.ofFnM g s = (.ok (Vector.ofFn v), s) := by
  induction n with
  | zero =>
      rw [Vector.ofFnM_zero]
      rfl
  | succ n ih =>
      rw [Vector.ofFnM_succ, bind_of_ok (ih fun i => h _), bind_of_ok (h _), Vector.ofFn_succ]
      rfl

end Sequence

section Obeys

variable {ε σ α γ : Type} {R : σ → Bool → σ → Prop}

/-- What may hold of a state, whether things went well from there on, and the state behind them: it
holds of doing nothing, and of one thing after another when it holds of both. -/
structure Chains (R : σ → Bool → σ → Prop) : Prop where
  refl (s : σ) : R s true s
  trans {s t u : σ} {ok : Bool} : R s true t → R t ok u → R s ok u

def Obeys (R : σ → Bool → σ → Prop) (x : ExceptT ε (StateM σ) α) : Prop :=
  ∀ s, R s (x s).1.isOk (x s).2

theorem Chains.pure (hR : Chains R) (a : α) : Obeys R (pure a : ExceptT ε (StateM σ) α) :=
  fun s => hR.refl s

theorem Chains.bind (hR : Chains R) {x : ExceptT ε (StateM σ) α} {f : α → ExceptT ε (StateM σ) γ}
    (hx : Obeys R x) (hf : ∀ a, Obeys R (f a)) : Obeys R (x >>= f) := by
  intro s
  have hfirst := hx s
  rcases h : x s with ⟨e | a, t⟩ <;> rw [h] at hfirst
  · rw [bind_of_error h]
    exact hfirst
  · rw [bind_of_ok h]
    exact hR.trans hfirst (hf a t)

theorem Chains.forM (hR : Chains R) {ι : Type} {f : ι → ExceptT ε (StateM σ) PUnit} {xs : List ι}
    (hf : ∀ i ∈ xs, Obeys R (f i)) : Obeys R (xs.forM f) := by
  induction xs with
  | nil => exact hR.pure _
  | cons i xs ih =>
      exact hR.bind (hf i List.mem_cons_self) fun _ =>
        ih fun j hj => hf j (List.mem_cons_of_mem _ hj)

theorem Chains.ofFnM (hR : Chains R) {n : Nat} {f : Fin n → ExceptT ε (StateM σ) α}
    (hf : ∀ i, Obeys R (f i)) : Obeys R (Vector.ofFnM f) := by
  induction n with
  | zero =>
      rw [Vector.ofFnM_zero]
      exact hR.pure _
  | succ n ih =>
      rw [Vector.ofFnM_succ]
      exact hR.bind (ih fun i => hf _) fun as => hR.bind (hf _) fun a => hR.pure _

abbrev Total : ExceptT ε (StateM σ) α → Prop := Obeys fun _ ok _ => ok = true

abbrev Silent : ExceptT ε (StateM σ) α → Prop := Obeys fun s _ t => t = s

theorem chains_total : Chains fun (_ : σ) ok (_ : σ) => ok = true where
  refl _ := rfl
  trans _ h := h

theorem chains_silent : Chains fun (s : σ) _ (t : σ) => t = s where
  refl _ := rfl
  trans h h' := h'.trans h

/-- What changes nothing may follow without being seen in the state. -/
theorem state_bind_of_silent {x : ExceptT ε (StateM σ) α} {f : α → ExceptT ε (StateM σ) γ}
    (hf : ∀ a, Silent (f a)) (s : σ) : ((x >>= f) s).2 = (x s).2 := by
  rcases h : x s with ⟨e | a, t⟩
  · rw [bind_of_error h]
  · rw [bind_of_ok h]
    exact hf a t

/-- When what comes first changes nothing, and a failure of what follows changes nothing either,
then no failure does. -/
theorem Silent.eq_of_bind_error {x : ExceptT ε (StateM σ) α} {f : α → ExceptT ε (StateM σ) γ}
    (hx : Silent x) (hf : ∀ a {s e s'}, f a s = (.error e, s') → s' = s) {s s' : σ} {e : ε}
    (h : (x >>= f) s = (.error e, s')) : s' = s := by
  have hsilent := hx s
  rcases hfirst : x s with ⟨e' | a, t⟩ <;> rw [hfirst] at hsilent
  · rw [bind_of_error hfirst] at h
    exact (congrArg Prod.snd h).symm.trans hsilent
  · rw [bind_of_ok hfirst] at h
    exact (hf a h).trans hsilent

end Obeys

theorem Acquisition.access_apply {σ α : Type} (x : Access σ α) (s : σ) :
    Acquisition.access x s = ((x s).1.mapError AcquisitionError.board, (x s).2) := rfl

theorem Acquisition.access_of_ok {σ α : Type} {x : Access σ α} {s s' : σ} {a : α}
    (h : x s = (.ok a, s')) : Acquisition.access x s = (.ok a, s') := by
  rw [access_apply, h]
  rfl

/-- A write passes the checks when its register takes writes and the value fits. -/
theorem Register.checkWrite_eq_ok {bounds : Width → Except BoardError Unit} {offset : UInt8}
    {value : UInt32} {w : Width} (hwidth : width offset = .ok w) (hbounds : bounds w = .ok ())
    (hreadOnly : isReadOnly offset = false) (hfits : w.Fits value) :
    checkWrite bounds offset value = .ok w := by
  simp only [checkWrite, hwidth, bind, Except.bind, hbounds, hreadOnly, hfits]
  rfl

theorem Width.fits_byte (value : UInt8) : byte.Fits value.toUInt32 := by
  rw [Fits, UInt32.le_iff_toNat_le, UInt8.toNat_toUInt32]
  exact Nat.le_of_lt_succ value.toNat_lt

end DaqServer
