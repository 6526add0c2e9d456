import TrustBoundary.Proofs.Decimal.Reading
import TrustBoundary.Proofs.Json.Scalars

/-!
# Which doubles are read exactly

A reader of numbers rounds the collected digits, and then the product or the quotient with a power
of ten.  If the digits fit a significand and the power of ten is a double itself, only the second
step rounds, and the number that is read is the double nearest to the decimal (`scaled?_eq_some`).
The decimal in the text of a double is nearest to that double, which is then read back as it was
(`reread?_eq_some_self`).
-/

namespace TrustBoundary.Json

/-! ### Reading a decimal -/

/-- If the digits fit a significand and the power of ten is a double, the double that attracts the
decimal is read. -/
theorem scaled?_eq_some {b : Binary} (h : b.IsDouble) {m : ℕ} {k : ℤ}
    (hpos : 0 < m) (hlt : m < 9007199254740992) (hlow : -22 ≤ k) (hhigh : k ≤ 22)
    (hv : b.Attracts (m * 10 ^ k)) : scaled? m k = some (h.toFloat .positive) := by
  unfold scaled?
  dsimp only
  by_cases hk : 0 ≤ k
  · obtain ⟨n, rfl⟩ := Int.eq_ofNat_of_zero_le hk
    rw [zpow_natCast] at hv
    rw [if_pos hk, if_pos (by omega), Int.toNat_natCast,
      h.mul_powerOfTen hpos hlt (by omega) hv]
    exact if_neg (Bool.eq_false_iff.1 (h.isInf_toFloat _))
  · obtain ⟨n, rfl⟩ := Int.exists_eq_neg_ofNat (not_le.1 hk).le
    rw [zpow_neg, zpow_natCast, ← div_eq_mul_inv] at hv
    rw [if_neg hk, Int.natAbs_neg, Int.natAbs_natCast, show (n - 1) / 308 = 0 by omega,
      Nat.mul_zero, Nat.sub_zero, divideOften, h.div_powerOfTen hpos hlt (by omega) hv]

/-! ### Reading back a double -/

/-- A double is read back from its text if the digits in it fit a significand and the power of ten
behind them is a double. -/
theorem reread?_eq_some_self {x : Float} (hfinite : x.isFinite = true)
    (hdigits : (Decimal.floatAsRead x).1 < 9007199254740992)
    (hlow : -22 ≤ (Decimal.floatAsRead x).2) (hhigh : (Decimal.floatAsRead x).2 ≤ 22) :
    reread? x = some (.float x hfinite) := by
  by_cases hzero : (Binary.ofFloat x).significand = 0
  · clear hdigits hlow hhigh
    obtain rfl | rfl := eq_zero_of_significand_eq_zero hzero <;> revert hfinite <;> decide +kernel
  · have h := isDouble_ofFloat hfinite hzero
    obtain ⟨hpos, -, -, hvalue⟩ := Decimal.value_floatAsRead hfinite hzero
    have hscaled := scaled?_eq_some h hpos hdigits hlow hhigh
      (hvalue ▸ h.attracts_shortest)
    have hsigned := Decimal.signed_toFloat h
    rw [reread?, hscaled, Option.bind_some, signed?, hsigned, Number.ofFloat?, dif_pos hfinite]

end TrustBoundary.Json
