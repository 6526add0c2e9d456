import TrustBoundary.Protection.Error
import TrustBoundary.Text.Utf8

/-!
# The last step of a recovery

In either mode the bytes that are recovered are read as a text (`recoverText`), and refused if they
are not the bytes of one.
-/

namespace TrustBoundary

/-- The text of recovered bytes. -/
def recoverText (bytes : List UInt8) : Except RecoveryFault String :=
  match Text.ofUtf8? bytes with
  | some text => .ok text
  | none => .error .notText

theorem recoverText_eq_ok_iff {bytes : List UInt8} {text : String} :
    recoverText bytes = .ok text ↔ Text.utf8 text = bytes := by
  rw [← Text.ofUtf8?_eq_some_iff, recoverText]
  cases Text.ofUtf8? bytes <;> simp

theorem recoverText_eq_error_iff {bytes : List UInt8} {fault : RecoveryFault} :
    recoverText bytes = .error fault ↔ Text.ofUtf8? bytes = none ∧ fault = .notText := by
  rw [recoverText]
  cases Text.ofUtf8? bytes <;> simp [eq_comm]

end TrustBoundary
