import DaqServer.Proofs.Item.Acceptance
import DaqServer.Proofs.Item.Safety
import DaqServer.Proofs.Text.Boundary
import DaqServer.Proofs.Text.Lossless

/-!
# Diagnostics arrive as they were made

A diagnostic that is made here has room for what is left of its text, and what is written for it is
read as the same kind of error and the same text.
-/

namespace DaqServer

namespace Catalogue

/-- The bytes of a kind of error and of a text that a diagnostic has room for are read as that. -/
theorem construct_written_diagnostic (kind : ErrorKind) {text : String}
    (h : (Utf8.encode text).length ≤ diagnosticLimit) :
    construct ItemId.diagnostic.code (kind.code :: Utf8.encode text) =
      .ok (.ofRequest .diagnostic (kind.code :: Utf8.encode text)
        (.diagnostic (some kind) text)) := by
  have hbounded : Bounded .diagnostic (kind.code :: Utf8.encode text).length :=
    ⟨Nat.zero_le _, Nat.succ_le_succ h⟩
  rw [construct_of_bounded hbounded, decode, decodeDiagnostic, ErrorKind.ofCode?_code,
    Utf8.decodeLossy_encode]
  rfl

end Catalogue

/-- A diagnostic of any kind and text carries the longest leading part of the text that ends between
characters and takes at most 1023 bytes: all of it where that fits, and otherwise a part that comes
within three bytes of the limit. Going back from the limit byte by byte finds it without a trap, and
who reads what the diagnostic is written as in a reply has the kind and the part. -/
theorem Item.diagnostic_arrives (kind : ErrorKind) (message : String) :
    ∃ text, Utf8.CutTo 1023 message text ∧
      ((Utf8.encode message).length ≤ 1023 → text = message) ∧
      (1023 < (Utf8.encode message).length → 1020 ≤ (Utf8.encode text).length) ∧
      (diagnostic kind message).request = .diagnostic (some kind) text ∧
      RawItem.diagnostic kind message = .ok (diagnostic kind message).raw ∧
      Catalogue.construct 0x8002 ((diagnostic kind message).wirePayload true) =
        .ok (.ofRequest .diagnostic ((diagnostic kind message).wirePayload true)
          (.diagnostic (some kind) text)) := by
  have hcut : Utf8.CutTo 1023 message (Utf8.fit 1023 message) := Utf8.cutTo_fit 1023 message
  have hwritten : (diagnostic kind message).wirePayload true =
      kind.code :: Utf8.encode (Utf8.fit 1023 message) := rfl
  refine ⟨_, hcut, Utf8.fit_of_fits, fun hlonger => ?_, rfl, RawItem.diagnostic_eq kind message, ?_⟩
  · have hkept := Utf8.limit_le_length_fit hlonger
    omega
  · rw [hwritten]
    exact Catalogue.construct_written_diagnostic kind hcut.fits

end DaqServer
