import TrustBoundary.Json.Numeral
import TrustBoundary.Proofs.Double.Arithmetic

/-!
# Scaling by powers of ten

Up to the twenty-second, a power of ten is a double (`exists_isDouble_powerOfTen`).  A whole number
that fits a significand is scaled by such a power with one rounding, and so to the double that
attracts the result (`Binary.IsDouble.mul_powerOfTen`, `Binary.IsDouble.div_powerOfTen`).  With any
power of ten, `Float.ofScientific` rounds a decimal to the double that attracts it
(`Binary.IsDouble.ofScientific_eq`).
-/

namespace TrustBoundary

open Float.Model Float.Model.UnpackedFloat
open Json (powerOfTen)

/-! ### Factors -/

/-- A whole number that fits a significand is a double. -/
theorem exists_isDouble {n : ℕ} (hpos : 0 < n) (hlt : n < 9007199254740992) :
    ∃ b : Binary, b.IsDouble ∧ 4503599627370496 ≤ b.significand ∧ b.value = n := by
  have hlog : n.log2 < 53 := (Nat.log2_lt hpos.ne').2 hlt
  obtain ⟨k, hk⟩ := Nat.exists_eq_add_of_le (Nat.lt_succ_iff.1 hlog)
  -- the number is shifted until it has the full length
  have hfull : 2 ^ 52 ≤ n * 2 ^ k := two_pow_le_mul hpos hk.le
  have hfits : n * 2 ^ k < 2 ^ 53 :=
    calc n * 2 ^ k < 2 ^ (n.log2 + 1) * 2 ^ k :=
          Nat.mul_lt_mul_of_pos_right Nat.lt_log2_self (Nat.two_pow_pos k)
      _ = 2 ^ 53 := by rw [← pow_add]; congr 1; omega
  refine ⟨⟨n * 2 ^ k, -k, n * 2 ^ k == 4503599627370496⟩, ⟨?_, hfits, ?_, ?_, .inl hfull, ?_⟩,
    hfull, ?_⟩
  · exact Nat.mul_pos hpos (Nat.two_pow_pos k)
  · dsimp only
    omega
  · dsimp only
    omega
  · dsimp only
    rw [beq_iff_eq]
    omega
  · rw [Binary.value, zpow_neg, zpow_natCast]
    push_cast
    exact mul_inv_cancel_right₀ (by positivity) _

/-- What is in the bits of the powers of ten that are doubles. -/
theorem powerOfTen_bits : ∀ k : Fin 23, (powerOfTen k).isFinite = true ∧
    (powerOfTen k).toBits.toNat < 9223372036854775808 ∧
    -52 ≤ (Binary.ofFloat (powerOfTen k)).exponent ∧
    (Binary.ofFloat (powerOfTen k)).significand *
      Nat.pow 2 ((Binary.ofFloat (powerOfTen k)).exponent + 52).toNat =
        Nat.pow 10 k * 4503599627370496 := by
  decide +kernel

/-- Up to the twenty-second, a power of ten is a double. -/
theorem exists_isDouble_powerOfTen {k : ℕ} (hk : k ≤ 22) :
    ∃ (b : Binary) (h : b.IsDouble), b.value = 10 ^ k ∧ powerOfTen k = h.toFloat .positive := by
  obtain ⟨hfinite, hsign, hlow, hvalue⟩ := powerOfTen_bits ⟨k, by omega⟩
  dsimp only at hfinite hsign hlow hvalue
  have hne : (Binary.ofFloat (powerOfTen k)).significand ≠ 0 := by
    intro hzero
    rw [hzero, Nat.zero_mul] at hvalue
    exact absurd hvalue.symm (Nat.mul_pos (Nat.pow_pos (by decide)) (by decide)).ne'
  have h := isDouble_ofFloat hfinite hne
  have heq := eq_toFloat h
  refine ⟨_, h, ?_, ?_⟩
  · generalize Binary.ofFloat (powerOfTen k) = b at hlow hvalue ⊢
    obtain ⟨j, hj⟩ := Int.eq_ofNat_of_zero_le (by omega : 0 ≤ b.exponent + 52)
    rw [hj, Int.toNat_natCast] at hvalue
    have hcast : (b.significand : ℚ) * 2 ^ j = 10 ^ k * 4503599627370496 := by
      exact_mod_cast hvalue
    rw [Binary.value, show b.exponent = j - 52 by omega, zpow_sub₀ two_ne_zero, zpow_natCast,
      ← mul_div_assoc, hcast]
    norm_num
  · rw [signBit_eq, if_pos hsign] at heq
    exact heq

/-- The powers of ten that are kept in a table. -/
theorem powerOfTen_eq : ∀ k : Fin 23,
    Float.exactlyRepresentablePowersOfTen[k.val]? = some (powerOfTen k) := by
  decide +kernel

namespace Binary.IsDouble

variable {b : Binary} {m n : ℕ}

theorem mul_powerOfTen (h : b.IsDouble) (hpos : 0 < m) (hlt : m < 9007199254740992) (hn : n ≤ 22)
    (hv : b.Attracts (m * 10 ^ n)) :
    m.toUInt64.toFloat * powerOfTen n = h.toFloat .positive := by
  obtain ⟨c, hc, hfull, hcvalue⟩ := exists_isDouble hpos hlt
  obtain ⟨d, hd, hdvalue, hten⟩ := exists_isDouble_powerOfTen hn
  rw [← hcvalue, ← hdvalue] at hv
  rw [hc.toFloat_toUInt64 hpos (by omega) (hcvalue ▸ c.attracts_value), hten,
    hc.toFloat_mul hd h hv (hfull.trans (Nat.le_mul_of_pos_right _ hd.significand_pos))]
  rfl

theorem div_powerOfTen (h : b.IsDouble) (hpos : 0 < m) (hlt : m < 9007199254740992) (hn : n ≤ 22)
    (hv : b.Attracts (m / 10 ^ n)) :
    m.toUInt64.toFloat / powerOfTen n = h.toFloat .positive := by
  obtain ⟨c, hc, -, hcvalue⟩ := exists_isDouble hpos hlt
  obtain ⟨d, hd, hdvalue, hten⟩ := exists_isDouble_powerOfTen hn
  rw [← hcvalue, ← hdvalue] at hv
  rw [hc.toFloat_toUInt64 hpos (by omega) (hcvalue ▸ c.attracts_value), hten,
    hc.toFloat_div hd h hv]
  rfl

/-- With a power of ten that is a double, a decimal is rounded by one multiplication or division. -/
theorem ofScientific_eq_of_le (h : b.IsDouble) (hpos : 0 < m) (hlt : m < 9007199254740992) {k : ℤ}
    (hk : k.natAbs ≤ 22) (hv : b.Attracts (m * 10 ^ k)) :
    Float.ofScientific m (k < 0) k.natAbs = h.toFloat .positive := by
  obtain ⟨htable, heq⟩ := Array.getElem?_eq_some_iff.1 (powerOfTen_eq ⟨k.natAbs, by omega⟩)
  dsimp only at htable heq
  unfold Float.ofScientific
  rw [dif_pos ⟨hlt, hk⟩]
  dsimp only
  rw [heq]
  by_cases hneg : k < 0
  · -- a quotient
    obtain ⟨n, rfl⟩ := Int.exists_eq_neg_ofNat hneg.le
    rw [Int.natAbs_neg, Int.natAbs_natCast] at hk ⊢
    rw [zpow_neg, zpow_natCast, ← div_eq_mul_inv] at hv
    rw [if_pos (decide_eq_true hneg), h.div_powerOfTen hpos hlt hk hv]
  · -- a product
    obtain ⟨n, rfl⟩ := Int.eq_ofNat_of_zero_le (not_lt.1 hneg)
    rw [Int.natAbs_natCast] at hk ⊢
    rw [zpow_natCast] at hv
    rw [if_neg (mt of_decide_eq_true hneg), h.mul_powerOfTen hpos hlt hk hv]

/-- A decimal becomes the double that attracts it. -/
theorem unpacked_ofScientific (h : b.IsDouble) (hpos : 0 < m) {k : ℤ} (hlow : -2048 ≤ k)
    (hhigh : k ≤ 2048) (hv : b.Attracts (m * 10 ^ k)) :
    UnpackedFloat.ofScientific Format.binary64 m k =
      .finite .positive b.significand b.exponent h.significand_pos := by
  unfold UnpackedFloat.ofScientific
  rw [dif_neg hpos.ne', if_neg (by change ¬ k > 2048; omega),
    if_neg (by change ¬ k < -(2048 + (m.log2 : ℤ)); omega)]
  split
  next hk =>
    obtain ⟨n, rfl⟩ := Int.eq_ofNat_of_zero_le hk
    rw [zpow_natCast] at hv
    -- a product, for which the digits are shifted to the full length
    refine h.mul_eq _ _ ?_ ?_ .positive .positive
    · rw [Int.toNat_natCast, Nat.shiftLeft_eq, Nat.cast_mul, Nat.cast_pow, Nat.cast_pow,
        zpow_neg, zpow_natCast, zpow_zero, mul_one, Nat.cast_ofNat, Nat.cast_ofNat,
        mul_inv_cancel_right₀ (pow_ne_zero _ two_ne_zero)]
      exact hv
    · rw [Nat.shiftLeft_eq]
      calc 4503599627370496 ≤ 1 * 2 ^ 53 * 1 := by decide
        _ ≤ m * 2 ^ 53 * 10 ^ (n : ℤ).toNat :=
          Nat.mul_le_mul (Nat.mul_le_mul_right _ hpos) (Nat.pow_pos (by decide))
  next hk =>
    obtain ⟨n, rfl⟩ := Int.exists_eq_neg_ofNat (not_le.1 hk).le
    rw [zpow_neg, zpow_natCast, ← div_eq_mul_inv] at hv
    -- a quotient
    refine h.div_eq _ _ ?_ .positive .positive
    rw [zpow_zero, mul_one, mul_one, neg_neg, Int.toNat_natCast, Nat.cast_pow, Nat.cast_ofNat]
    exact hv

/-- A decimal is rounded to the double that attracts it. -/
theorem ofScientific_eq (h : b.IsDouble) (hpos : 0 < m) {k : ℤ} (hlow : -2048 ≤ k)
    (hhigh : k ≤ 2048) (hv : b.Attracts (m * 10 ^ k)) :
    Float.ofScientific m (k < 0) k.natAbs = h.toFloat .positive := by
  by_cases hfast : m < 9007199254740992 ∧ k.natAbs ≤ 22
  · exact h.ofScientific_eq_of_le hpos hfast.1 hfast.2 hv
  · -- the sign and the magnitude of the exponent are put together again
    have hexponent : (if decide (k < 0) = true then Int.negOfNat k.natAbs
        else Int.ofNat k.natAbs) = k := by
      by_cases hneg : k < 0
      · rw [if_pos (decide_eq_true hneg), Int.negOfNat_eq, Int.ofNat_eq_natCast]
        omega
      · rw [if_neg (mt of_decide_eq_true hneg), Int.ofNat_eq_natCast]
        omega
    unfold Float.ofScientific
    rw [dif_neg hfast]
    dsimp only
    rw [hexponent]
    change Float.ofModel (.pack (UnpackedFloat.ofScientific Format.binary64 m k)) = _
    rw [h.unpacked_ofScientific hpos hlow hhigh hv]
    rfl

end Binary.IsDouble

end TrustBoundary
