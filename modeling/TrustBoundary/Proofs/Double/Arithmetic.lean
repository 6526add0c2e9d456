import Mathlib.Tactic.FieldSimp
import TrustBoundary.Proofs.Double.Packing
import TrustBoundary.Proofs.Double.Rounding

/-!
# Products, quotients and whole numbers

Multiplication, division and the conversion of whole numbers give the double that attracts the exact
result (`Binary.IsDouble.toFloat_mul`, `Binary.IsDouble.toFloat_div`,
`Binary.IsDouble.toFloat_toUInt64`).
-/

namespace TrustBoundary

open Float.Model Float.Model.UnpackedFloat

/-! ### Fractions -/

/-- What is left over from a division says where the quotient lies. -/
theorem describes_fraction (m : ℕ) {d : ℕ} (hd : 0 < d) :
    Describes (.ofMantissaAndAccuracy (m / d) (accuracyOfFraction (m % d) d)) ((m : ℚ) / d) := by
  have hd' : (0 : ℚ) < d := by exact_mod_cast hd
  have hquotient : (m : ℚ) / d = (m / d : ℕ) + ((m % d : ℕ) : ℚ) / d := by
    rw [div_eq_iff hd'.ne', add_mul, div_mul_cancel₀ _ hd'.ne']
    exact_mod_cast (Nat.div_add_mod' m d).symm
  have hlt : ((m % d : ℕ) : ℚ) / d < 1 := by
    rw [div_lt_one hd']
    exact_mod_cast Nat.mod_lt m hd
  rw [hquotient, accuracyOfFraction]
  split
  next hzero =>
    rw [hzero, Nat.cast_zero, zero_div, add_zero]
    exact describes_exact _
  next hne =>
    -- twice the remainder is compared with the divisor
    have hpos : (0 : ℚ) < ((m % d : ℕ) : ℚ) / d := by
      refine div_pos ?_ hd'
      exact_mod_cast Nat.pos_of_ne_zero hne
    obtain hcompare | hcompare | hcompare := lt_trichotomy (2 * (m % d)) d
    · have hhalf : ((m % d : ℕ) : ℚ) / d < 1 / 2 := by
        rw [div_lt_div_iff₀ hd' two_pos]
        exact_mod_cast (by omega : m % d * 2 < 1 * d)
      rw [Nat.compare_eq_lt.2 hcompare]
      exact ⟨lt_add_of_pos_right _ hpos, add_lt_add_right hhalf _⟩
    · have hhalf : ((m % d : ℕ) : ℚ) / d = 1 / 2 := by
        rw [div_eq_div_iff hd'.ne' two_ne_zero]
        exact_mod_cast (by omega : m % d * 2 = 1 * d)
      rw [Nat.compare_eq_eq.2 hcompare, hhalf]
      rfl
    · have hhalf : 1 / 2 < ((m % d : ℕ) : ℚ) / d := by
        rw [div_lt_div_iff₀ two_pos hd']
        exact_mod_cast (by omega : 1 * d < m % d * 2)
      rw [Nat.compare_eq_gt.2 hcompare]
      exact ⟨add_lt_add_right hhalf _, add_lt_add_right hlt _⟩

/-- Rounding drops bits only: the mantissa has its full length, or the exponent is small enough. -/
theorem le_targetExponent {m : ℕ} {e : ℤ} (h : e ≤ -1074 ∨ 4503599627370496 ≤ m) :
    e ≤ Format.binary64.targetExponent (totalExponent m e) := by
  rw [targetExponent_eq]
  obtain hsmallest | hfull := h
  · exact hsmallest.trans (le_max_right _ _)
  · have hlog := (Nat.le_log2 (n := m) (k := 52) (by omega)).2 hfull
    refine le_trans ?_ (le_max_left _ _)
    unfold totalExponent
    omega

/-- A shifted mantissa is at least the power of two with its leading bit. -/
theorem two_pow_le_mul {m k n : ℕ} (hm : 0 < m) (h : n ≤ m.log2 + k) : 2 ^ n ≤ m * 2 ^ k :=
  calc 2 ^ n ≤ 2 ^ (m.log2 + k) := Nat.pow_le_pow_right two_pos h
    _ = 2 ^ m.log2 * 2 ^ k := pow_add _ _ _
    _ ≤ m * 2 ^ k := Nat.mul_le_mul_right _ (Nat.log2_self_le hm.ne')

namespace Binary

variable {a b c : Binary} {v : ℚ}

/-! ### Unpacked numbers -/

theorem IsDouble.mul_eq (h : b.IsDouble) {m₁ m₂ : ℕ} {e₁ e₂ : ℤ} (h₁ : 0 < m₁) (h₂ : 0 < m₂)
    (hv : b.Attracts (m₁ * 2 ^ e₁ * (m₂ * 2 ^ e₂))) (hfull : 4503599627370496 ≤ m₁ * m₂)
    (s₁ s₂ : Sign) :
    UnpackedFloat.mul Format.binary64 (.finite s₁ m₁ e₁ h₁) (.finite s₂ m₂ e₂ h₂) =
      .finite (s₁ * s₂) b.significand b.exponent h.significand_pos := by
  refine h.roundWithAccuracy_eq hv _ ?_ (le_targetExponent (.inr hfull))
  have hexact : (m₁ * 2 ^ e₁ * (m₂ * 2 ^ e₂) : ℚ) / 2 ^ (e₁ + e₂) = (m₁ * m₂ : ℕ) := by
    rw [zpow_add₀ two_ne_zero, mul_mul_mul_comm,
      mul_div_cancel_right₀ _ (mul_pos (two_zpow_pos e₁) (two_zpow_pos e₂)).ne', Nat.cast_mul]
  rw [hexact]
  exact describes_exact _

theorem IsDouble.div_eq (h : b.IsDouble) {m₁ m₂ : ℕ} {e₁ e₂ : ℤ} (h₁ : 0 < m₁) (h₂ : 0 < m₂)
    (hv : b.Attracts (m₁ * 2 ^ e₁ / (m₂ * 2 ^ e₂))) (s₁ s₂ : Sign) :
    UnpackedFloat.div Format.binary64 (.finite s₁ m₁ e₁ h₁) (.finite s₂ m₂ e₂ h₂) =
      .finite (s₁ / s₂) b.significand b.exponent h.significand_pos := by
  -- the dividend is shifted until the quotient has its full length
  generalize ht : min (e₁ - e₂)
    (Format.binary64.targetExponent (totalExponent m₁ e₁ - totalExponent m₂ e₂)) = t
  obtain ⟨k, hk⟩ := Int.eq_ofNat_of_zero_le (sub_nonneg.2 (ht ▸ min_le_left _ _ : t ≤ e₁ - e₂))
  have hdiv : UnpackedFloat.div Format.binary64 (.finite s₁ m₁ e₁ h₁) (.finite s₂ m₂ e₂ h₂) =
      roundWithAccuracy Format.binary64 (s₁ / s₂) (m₁ * 2 ^ k / m₂) t
        (accuracyOfFraction (m₁ * 2 ^ k % m₂) m₂) := by
    unfold UnpackedFloat.div divCore
    dsimp only
    rw [ht, hk, Int.toNat_natCast, Nat.shiftLeft_eq]
  rw [hdiv]
  refine h.roundWithAccuracy_eq hv _ ?_ (le_targetExponent ?_)
  · -- the quotient with its remainder is exact
    have hexact : (m₁ * 2 ^ e₁ / (m₂ * 2 ^ e₂) : ℚ) / 2 ^ t = (m₁ * 2 ^ k : ℕ) / m₂ := by
      have hm₂ : (m₂ : ℚ) ≠ 0 := by exact_mod_cast h₂.ne'
      rw [show e₁ = k + e₂ + t by omega, zpow_add₀ two_ne_zero, zpow_add₀ two_ne_zero,
        zpow_natCast]
      push_cast
      have := (two_zpow_pos e₂).ne'
      have := (two_zpow_pos t).ne'
      field_simp
    rw [hexact]
    exact describes_fraction _ h₂
  · -- above the smallest exponent the shift is large enough for a quotient of full length
    rw [or_iff_not_imp_left, not_le]
    intro hmin
    have hle : t ≤ totalExponent m₁ e₁ - totalExponent m₂ e₂ - 53 := by
      rw [targetExponent_eq] at ht
      omega
    unfold totalExponent at hle
    have hshift := two_pow_le_mul (k := k) (n := 52 + (m₂.log2 + 1)) h₁ (by omega)
    refine (Nat.le_div_iff_mul_le h₂).2 (le_trans ?_ hshift)
    rw [pow_add]
    exact Nat.mul_le_mul_left _ Nat.lt_log2_self.le

theorem IsDouble.round_eq (h : b.IsDouble) {m : ℕ} {e : ℤ} (hm : 0 < m)
    (hv : b.Attracts (m * 2 ^ e)) (s : Sign) :
    UnpackedFloat.round Format.binary64 s m e =
      .finite s b.significand b.exponent h.significand_pos := by
  generalize ht : Format.binary64.targetExponent (totalExponent m e) = t
  have hround : UnpackedFloat.round Format.binary64 s m e =
      roundWithAccuracy Format.binary64 s (m * 2 ^ (e - t).toNat) (e - (e - t).toNat) .exact := by
    unfold UnpackedFloat.round decreaseExponent
    dsimp only
    rw [ht, Nat.shiftLeft_eq]
  rw [hround]
  refine h.roundWithAccuracy_eq hv _ ?_ (le_targetExponent ?_)
  · -- shifting the mantissa to the left loses nothing
    have hexact : (m * 2 ^ e : ℚ) / 2 ^ (e - (e - t).toNat) = (m * 2 ^ (e - t).toNat : ℕ) := by
      rw [zpow_sub₀ two_ne_zero, zpow_natCast]
      push_cast
      have := (two_zpow_pos e).ne'
      field_simp
    rw [hexact]
    exact describes_exact _
  · rw [or_iff_not_imp_left, not_le]
    intro hmin
    rw [targetExponent_eq] at ht
    unfold totalExponent at ht
    exact two_pow_le_mul (n := 52) hm (by omega)

/-! ### Doubles -/

/-- The product of two doubles is the double that attracts it. -/
theorem IsDouble.toFloat_mul (ha : a.IsDouble) (hb : b.IsDouble) (hc : c.IsDouble)
    (hv : c.Attracts (a.value * b.value))
    (hfull : 4503599627370496 ≤ a.significand * b.significand) (s t : Sign) :
    ha.toFloat s * hb.toFloat t = hc.toFloat (s * t) := by
  change Float.ofModel (.pack (UnpackedFloat.mul Format.binary64 (ha.toFloat s).toModel.unpack
    (hb.toFloat t).toModel.unpack)) = _
  rw [ha.unpack_toFloat, hb.unpack_toFloat, hc.mul_eq _ _ hv hfull]
  rfl

/-- The quotient of two doubles is the double that attracts it. -/
theorem IsDouble.toFloat_div (ha : a.IsDouble) (hb : b.IsDouble) (hc : c.IsDouble)
    (hv : c.Attracts (a.value / b.value)) (s t : Sign) :
    ha.toFloat s / hb.toFloat t = hc.toFloat (s / t) := by
  change Float.ofModel (.pack (UnpackedFloat.div Format.binary64 (ha.toFloat s).toModel.unpack
    (hb.toFloat t).toModel.unpack)) = _
  rw [ha.unpack_toFloat, hb.unpack_toFloat, hc.div_eq _ _ hv]
  rfl

/-- A whole number becomes the double that attracts it. -/
theorem IsDouble.toFloat_toUInt64 (h : b.IsDouble) {n : ℕ} (hpos : 0 < n)
    (hlt : n < 18446744073709551616) (hv : b.Attracts n) :
    n.toUInt64.toFloat = h.toFloat .positive := by
  have hn : n.toUInt64.toNat = n := Nat.mod_eq_of_lt hlt
  have hvalue : b.Attracts ((n : ℚ) * 2 ^ (0 : ℤ)) := by
    rw [zpow_zero, mul_one]
    exact hv
  -- a whole number is a mantissa with the exponent zero
  have hnormalize : UnpackedFloat.ofUInt64 Format.binary64 n.toUInt64 =
      .round Format.binary64 .positive n 0 := by
    unfold UnpackedFloat.ofUInt64 UnpackedFloat.ofNat UnpackedFloat.ofInt UnpackedFloat.normalize
    rw [hn, Int.compare_eq_gt.2 (by exact_mod_cast hpos)]
    rfl
  change Float.ofModel (.pack (UnpackedFloat.ofUInt64 Format.binary64 n.toUInt64)) = _
  rw [hnormalize, h.round_eq hpos hvalue]
  rfl

end Binary


end TrustBoundary
