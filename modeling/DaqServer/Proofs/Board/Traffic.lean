import DaqServer.Proofs.Board.Access
import DaqServer.Scan.Record
import Mathlib.Data.List.Induction

/-!
# Accesses one after another

A board takes accesses as they come, also behind one that it refused. `Port.performAll` keeps every
access with its answer. Which accesses a board without a window refuses, and for what reason, is
told by the offset and the value alone: `Register.Takes` has the writes that pass.
-/

namespace DaqServer

namespace Port

variable {σ : Type} (port : Port σ)

/-- Do accesses one after another, whatever becomes of them: each with its answer, and the state in
the end. -/
def performAll : List PortAccess → σ → List PortEvent × σ
  | [], s => ([], s)
  | access :: rest, s =>
      let (answer, s) := access.perform port s
      let (events, s) := performAll rest s
      (⟨access, answer⟩ :: events, s)

theorem performAll_cons (access : PortAccess) (rest : List PortAccess) (s : σ) :
    port.performAll (access :: rest) s =
      (⟨access, (access.perform port s).1⟩ ::
        (port.performAll rest (access.perform port s).2).1,
        (port.performAll rest (access.perform port s).2).2) := rfl

theorem performAll_append (first later : List PortAccess) (s : σ) :
    port.performAll (first ++ later) s =
      ((port.performAll first s).1 ++ (port.performAll later (port.performAll first s).2).1,
        (port.performAll later (port.performAll first s).2).2) := by
  induction first generalizing s with
  | nil => rfl
  | cons access rest ih => rw [List.cons_append, performAll_cons, ih, performAll_cons]; rfl

/-- What holds before any access and is kept by each one, with its answer, holds in the end. -/
theorem performAll_induction {port : Port σ} {P : List PortEvent → σ → Prop} {s : σ}
    (start : P [] s)
    (step : ∀ events s access, P events s →
      P (events ++ [⟨access, (access.perform port s).1⟩]) (access.perform port s).2)
    (accesses : List PortAccess) :
    P (port.performAll accesses s).1 (port.performAll accesses s).2 := by
  induction accesses using List.reverseRecOn with
  | nil => exact start
  | append_singleton before access ih =>
      rw [performAll_append]
      exact step _ _ access ih

/-- Where each access gives the same answer and corresponding states, any number of them do. -/
theorem performAll_of_map {τ : Type} {port : Port σ} {port' : Port τ} {f : σ → τ}
    (h : ∀ (access : PortAccess) s, access.perform port' (f s) =
      ((access.perform port s).1, f (access.perform port s).2))
    (accesses : List PortAccess) (s : σ) :
    port'.performAll accesses (f s) =
      ((port.performAll accesses s).1, f (port.performAll accesses s).2) := by
  induction accesses generalizing s with
  | nil => rfl
  | cons access rest ih => rw [performAll_cons, performAll_cons, h, ih]

end Port

namespace PortAccess

def offset : PortAccess → UInt8
  | read offset => offset
  | write offset _ => offset

variable {σ : Type} {port : Port σ} {s s' : σ} {offset : UInt8} {value : UInt32}

theorem perform_write_of_ok (h : port.write offset value s = (.ok (), s')) :
    (write offset value).perform port s = (.ok 0, s') := bind_of_ok h

theorem perform_write_of_error {e : BoardError} (h : port.write offset value s = (.error e, s')) :
    (write offset value).perform port s = (.error e, s') := bind_of_error h

end PortAccess

namespace Register

/-- A register lies at each offset of the narrow bank and at each fourth one of the wide bank. -/
def IsRegister (offset : UInt8) : Prop := offset < 0x40 ∨ 4 ∣ offset.toNat

instance (offset : UInt8) : Decidable (IsRegister offset) := inferInstanceAs (Decidable (_ ∨ _))

def Takes (offset : UInt8) (value : UInt32) : Prop :=
  IsRegister offset ∧ offset ∉ readOnly ∧ (offset < 0x40 → value ≤ 0xFF)

instance (offset : UInt8) (value : UInt32) : Decidable (Takes offset value) :=
  inferInstanceAs (Decidable (_ ∧ _ ∧ (_ → _)))

variable {offset : UInt8} {value : UInt32}

theorem four_dvd_iff : 4 ∣ offset.toNat ↔ offset % 4 = 0 := by
  rw [Nat.dvd_iff_mod_eq_zero, ← UInt8.toNat_inj, UInt8.toNat_mod]
  rfl

def widthOf (offset : UInt8) : Width := if offset < 0x40 then .byte else .dword

theorem width_of_isRegister (h : IsRegister offset) : width offset = .ok (widthOf offset) := by
  by_cases hnarrow : offset < 0x40
  · rw [width, widthOf, if_pos hnarrow, if_pos hnarrow]
  · have hwide := four_dvd_iff.mp (h.resolve_left hnarrow)
    rw [width, widthOf, if_neg hnarrow, if_neg hnarrow, if_pos hwide]

theorem width_of_not_isRegister (h : ¬ IsRegister offset) :
    width offset = .error (.unaligned offset) := by
  obtain ⟨hnarrow, hwide⟩ := not_or.mp h
  rw [width, if_neg hnarrow, if_neg (mt four_dvd_iff.mpr hwide)]

theorem isReadOnly_iff : isReadOnly offset = true ↔ offset ∈ readOnly := List.contains_iff_mem

/-- Values fit wide registers whatever they are. -/
theorem fits_iff : (widthOf offset).Fits value ↔ (offset < 0x40 → value ≤ 0xFF) := by
  by_cases hnarrow : offset < 0x40
  · rw [widthOf, if_pos hnarrow]
    exact ⟨fun h _ => h, fun h => h hnarrow⟩
  · rw [widthOf, if_neg hnarrow]
    exact ⟨fun _ h => absurd h hnarrow, fun _ => Width.fits_dword value⟩

theorem checkWrite_of_takes {bounds : Width → Except BoardError Unit} (h : Takes offset value)
    (hbounds : bounds (widthOf offset) = .ok ()) :
    checkWrite bounds offset value = .ok (widthOf offset) := by
  obtain ⟨hregister, hwritable, hfits⟩ := h
  exact checkWrite_eq_ok (width_of_isRegister hregister) hbounds
    (Bool.eq_false_iff.mpr (mt isReadOnly_iff.mp hwritable)) (fits_iff.mpr hfits)

/-- Why a write that passes no checks is refused, in this order. -/
def refusal (offset : UInt8) (value : UInt32) : BoardError :=
  if ¬ IsRegister offset then .unaligned offset
  else if offset ∈ readOnly then .readOnly offset
  else .tooWide offset value

theorem checkWrite_of_not_takes {bounds : Width → Except BoardError Unit}
    (h : ¬ Takes offset value) (hbounds : IsRegister offset → bounds (widthOf offset) = .ok ()) :
    checkWrite bounds offset value = .error (refusal offset value) := by
  by_cases hregister : IsRegister offset
  · have hwidth := width_of_isRegister hregister
    by_cases hreadOnly : offset ∈ readOnly
    · rw [refusal, if_neg (not_not.mpr hregister), if_pos hreadOnly]
      simp only [checkWrite, hwidth, bind, Except.bind, hbounds hregister,
        isReadOnly_iff.mpr hreadOnly]
      rfl
    · have hwide : ¬ (widthOf offset).Fits value := fun hfits =>
        h ⟨hregister, hreadOnly, fits_iff.mp hfits⟩
      rw [refusal, if_neg (not_not.mpr hregister), if_neg hreadOnly]
      simp only [checkWrite, hwidth, bind, Except.bind, hbounds hregister,
        Bool.eq_false_iff.mpr (mt isReadOnly_iff.mp hreadOnly), hwide]
      rfl
  · rw [refusal, if_pos hregister]
    simp only [checkWrite, width_of_not_isRegister hregister, bind, Except.bind]

theorem checkWrite_of_bounds {bounds : Width → Except BoardError Unit} {e : BoardError}
    (hregister : IsRegister offset) (hbounds : bounds (widthOf offset) = .error e) :
    checkWrite bounds offset value = .error e := by
  simp only [checkWrite, width_of_isRegister hregister, bind, Except.bind, hbounds]

end Register

end DaqServer
