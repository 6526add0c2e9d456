import TrustBoundary.Protection.Error
import TrustBoundary.Text.Blank

/-!
# Cipher modes

A value is protected in one of two ways.  Deterministic values can be compared without being
recovered; sealed values differ from one another even where what they protect does not.
-/

namespace TrustBoundary

/-- How new values are protected. -/
inductive CipherMode where
  | deterministic
  | sealed
deriving DecidableEq

namespace CipherMode

/-- The modes under their names. -/
def named : List (String × CipherMode) := [("deterministic", deterministic), ("sealed", sealed)]

/-- The name of a mode. -/
def name : CipherMode → String
  | deterministic => "deterministic"
  | sealed => "sealed"

/-- The name of a mode at the head of a line. -/
def title : CipherMode → String
  | deterministic => "Deterministic"
  | sealed => "Sealed"

/-- The mode whose name a text is, whatever blanks are around it and whatever the case of its
letters.  -/
def read (text : String) : Except ProtectionError CipherMode :=
  match String.ofList ((Text.trim text.toList).map Char.toLower) with
  | "deterministic" => .ok deterministic
  | "sealed" => .ok sealed
  | other => .error (.settings (.unknownMode other))

end CipherMode

end TrustBoundary
