import TrustBoundary.Cipher.SipHash
import TrustBoundary.Text.Utf8

/-!
# Lanes

Records with one key are scored in one lane, so that their alerts keep their order.
-/

namespace TrustBoundary

/-- The lane of a key, one of `lanes` many.  A byte that no text has marks the end of the key. -/
def laneOf (key : String) (lanes : UInt64) : UInt64 :=
  SipHash.hash (Text.utf8 key ++ [0xff]) % max lanes 1

theorem laneOf_lt {key : String} {lanes : UInt64} (h : 0 < lanes) : laneOf key lanes < lanes := by
  have hmax : max lanes 1 = lanes := by
    have : 1 ≤ lanes := by
      rw [UInt64.le_iff_toNat_le]; rw [UInt64.lt_iff_toNat_lt] at h
      exact h
    rw [show max lanes 1 = if lanes ≤ 1 then 1 else lanes from rfl]
    split
    · exact UInt64.le_antisymm this ‹_›
    · rfl
  rw [laneOf, hmax]
  exact UInt64.mod_lt _ h

end TrustBoundary
