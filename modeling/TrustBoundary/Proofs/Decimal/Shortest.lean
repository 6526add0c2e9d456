import Mathlib.Algebra.Order.Floor.Semifield
import Mathlib.Data.Nat.Cast.Order.Field
import Mathlib.Data.Rat.Floor
import Mathlib.Tactic.NormNum
import Mathlib.Tactic.Positivity
import Mathlib.Tactic.Ring
import TrustBoundary.Decimal.Shortest

/-!
# What the shortest decimal is made of

The search for the shortest decimal of a double begins at the place of its leading digit
(`Binary.IsDouble.leadingPlace_le`, `Binary.IsDouble.lt_leadingPlace`) and goes through no more than
eighteen places, so that the decimal has a digit that is not zero and at most eighteen of them
(`Binary.IsDouble.isWritable_shortest`).
-/

namespace TrustBoundary

open Decimal

/-! ### Powers and digits -/

/-- A power is the quotient of two natural ones, one of which is one. -/
theorem zpow_eq_div {b : ℕ} (hb : b ≠ 0) (n : ℤ) :
    (b : ℚ) ^ n = (Nat.pow b n.toNat : ℕ) / (Nat.pow b (-n).toNat : ℕ) := by
  have hb' : (b : ℚ) ≠ 0 := by exact_mod_cast hb
  simp only [Nat.pow_eq, Nat.cast_pow]
  rw [← zpow_natCast, ← zpow_natCast, ← zpow_sub₀ hb']
  congr 1
  omega

theorem lt_pow_length_toDigits (n : ℕ) : n < 10 ^ (Nat.toDigits 10 n).length :=
  (Nat.length_toDigits_le_iff (by decide) Nat.length_toDigits_pos).1 le_rfl

theorem pow_length_toDigits_le {n : ℕ} (h : 0 < n) :
    10 ^ ((Nat.toDigits 10 n).length - 1) ≤ n := by
  obtain hone | hmore := Nat.eq_zero_or_pos ((Nat.toDigits 10 n).length - 1)
  · rw [hone]
    exact h
  · refine Nat.not_lt.1 fun hlt => ?_
    have hle := (Nat.length_toDigits_le_iff (by decide) hmore).2 hlt
    omega

/-! ### The leading digit -/

namespace Binary

section

variable {num den : ℕ}

theorem leadingExponent_le (hnum : 0 < num) (hden : 0 < den) :
    (10 : ℚ) ^ leadingExponent num den ≤ num / den := by
  have hden' : (0 : ℚ) < den := by exact_mod_cast hden
  unfold leadingExponent
  split
  next h =>
    -- the number is at least one, and its whole part has the leading digit
    have hpos : 0 < num / den := Nat.div_pos h hden
    have hlength := Nat.length_toDigits_pos (b := 10) (n := num / den)
    have hpow := pow_length_toDigits_le hpos
    rw [show ((Nat.toDigits 10 (num / den)).length : ℤ) - 1 =
      ((Nat.toDigits 10 (num / den)).length - 1 : ℕ) by omega, zpow_natCast]
    refine le_trans ?_ Nat.cast_div_le
    exact_mod_cast hpow
  next h =>
    -- the quotient counts how often the number goes into one, but for what is left over
    have hlt := lt_pow_length_toDigits ((den - 1) / num)
    rw [zpow_neg, zpow_natCast, inv_eq_one_div, div_le_div_iff₀ (by positivity) hden', one_mul]
    have hle : den ≤ num * 10 ^ (Nat.toDigits 10 ((den - 1) / num)).length := by
      have := (Nat.div_lt_iff_lt_mul hnum).1 hlt
      rw [Nat.mul_comm]
      omega
    exact_mod_cast hle

theorem lt_leadingExponent (hnum : 0 < num) (hden : 0 < den) :
    (num : ℚ) / den < (10 : ℚ) ^ (leadingExponent num den + 1) := by
  have hden' : (0 : ℚ) < den := by exact_mod_cast hden
  unfold leadingExponent
  split
  next h =>
    have hlt := (Nat.div_lt_iff_lt_mul hden).1 (lt_pow_length_toDigits (num / den))
    rw [sub_add_cancel, zpow_natCast, div_lt_iff₀ hden']
    exact_mod_cast hlt
  next h =>
    -- below one the digits of the quotient count the zeros behind the point
    have hpos : 0 < (den - 1) / num := Nat.div_pos (by omega) hnum
    have hlength := Nat.length_toDigits_pos (b := 10) (n := (den - 1) / num)
    have hpow := (Nat.le_div_iff_mul_le hnum).1 (pow_length_toDigits_le hpos)
    rw [show -((Nat.toDigits 10 ((den - 1) / num)).length : ℤ) + 1 =
      -((Nat.toDigits 10 ((den - 1) / num)).length - 1 : ℕ) by omega, zpow_neg, zpow_natCast,
      inv_eq_one_div, div_lt_div_iff₀ hden' (by positivity), one_mul]
    have hlt : num * 10 ^ ((Nat.toDigits 10 ((den - 1) / num)).length - 1) < den := by
      rw [Nat.mul_comm]
      omega
    exact_mod_cast hlt

end

/-! ### Points of a grid -/

/-- The number that a double stands for, without its sign. -/
def value (b : Binary) : ℚ := b.significand * (2 : ℚ) ^ b.exponent

variable {b : Binary} {place : ℤ}

theorem quarter_eq (b : Binary) : (b.quarter.1 : ℚ) / b.quarter.2 = 2 ^ (b.exponent - 2) := by
  have hpow := zpow_eq_div two_ne_zero (b.exponent - 2)
  rw [Nat.cast_ofNat] at hpow
  rw [hpow, quarter]
  split
  · rw [show (-(b.exponent - 2)).toNat = 0 by omega]
  · rw [show (b.exponent - 2).toNat = 0 by omega, neg_sub]

theorem quarter_pos (b : Binary) : 0 < b.quarter.1 ∧ 0 < b.quarter.2 := by
  rw [quarter]
  split
  · exact ⟨Nat.pow_pos (by decide), Nat.one_pos⟩
  · exact ⟨Nat.one_pos, Nat.pow_pos (by decide)⟩

/-- A quarter of the step between two doubles is the unit in which a double is four times its
significand. -/
theorem value_eq (b : Binary) :
    b.value = ((4 * b.significand * b.quarter.1 : ℕ) : ℚ) / b.quarter.2 := by
  rw [Nat.cast_mul, mul_div_assoc, quarter_eq, value, zpow_sub₀ two_ne_zero]
  push_cast
  ring

/-- How many steps of a grid a double is large, in whole numbers. -/
theorem steps_eq (b : Binary) (place : ℤ) :
    4 * b.significand * (Nat.pow 10 (-place).toNat * b.quarter.1) /
      (Nat.pow 10 place.toNat * b.quarter.2) = ⌊b.value / 10 ^ place⌋₊ := by
  have hpow := zpow_eq_div (b := 10) (by decide) place
  rw [Nat.cast_ofNat] at hpow
  rw [← Nat.floor_div_eq_div (K := ℚ), value_eq, hpow, div_div_div_eq]
  push_cast
  congr 2 <;> ring

/-- What lies on a grid next to a double is the multiple of the step below it, or the one above. -/
theorem of_nearestOnGrid?_eq_some {d : Decimal} (h : b.nearestOnGrid? place = some d) :
    d.exponent = place ∧
      (d.digits = ⌊b.value / 10 ^ place⌋₊ ∨ d.digits = ⌊b.value / 10 ^ place⌋₊ + 1) := by
  unfold nearestOnGrid? at h
  simp only [steps_eq] at h
  split at h
  · cases h
    exact ⟨rfl, .inl rfl⟩
  · split at h
    · cases h
      exact ⟨rfl, .inr rfl⟩
    · cases h

/-- The search ends on one of the grids that it goes through, or gives up if none has a point. -/
theorem shortestFrom_cases (b : Binary) (fuel : ℕ) (place : ℤ) :
    (∃ i < fuel, b.nearestOnGrid? (place - i) = some (b.shortestFrom fuel place)) ∨
      (∀ i < fuel, b.nearestOnGrid? (place - i) = none) ∧
        b.shortestFrom fuel place = ⟨b.significand, b.exponent⟩ := by
  induction fuel generalizing place with
  | zero => exact .inr ⟨fun i hi => absurd hi (Nat.not_lt_zero i), rfl⟩
  | succ fuel ih =>
    have hplace (i : ℕ) : place - 1 - i = place - ((i + 1 : ℕ) : ℤ) := by push_cast; ring
    rw [shortestFrom]
    cases h : b.nearestOnGrid? place with
    | some d =>
      refine .inl ⟨0, Nat.succ_pos fuel, ?_⟩
      rw [Nat.cast_zero, sub_zero, h, Option.getD_some]
    | none =>
      rw [Option.getD_none]
      -- the finer grids are counted from the one behind this
      obtain ⟨i, hi, hgrid⟩ | ⟨hnone, hend⟩ := ih (place - 1)
      · exact .inl ⟨i + 1, Nat.succ_lt_succ hi, hplace i ▸ hgrid⟩
      · refine .inr ⟨fun i hi => ?_, hend⟩
        cases i with
        | zero => rw [Nat.cast_zero, sub_zero, h]
        | succ i => exact hplace i ▸ hnone i (Nat.lt_of_succ_lt_succ hi)

end Binary

namespace Decimal

/-- What is known of the decimals that are found for doubles. -/
structure IsWritable (d : Decimal) : Prop where
  digits_pos : 0 < d.digits
  digits_le : d.digits ≤ 1000000000000000000
  le_exponent : -2000 ≤ d.exponent
  exponent_le : d.exponent ≤ 2000

/-- Zeros at the end that are dropped make the digits no more and the exponent no smaller. -/
theorem dropZeros_bounds (fuel : ℕ) {d : Decimal} (h : 0 < d.digits) :
    0 < (d.dropZeros fuel).digits ∧ (d.dropZeros fuel).digits ≤ d.digits ∧
      d.exponent ≤ (d.dropZeros fuel).exponent ∧
      (d.dropZeros fuel).exponent ≤ d.exponent + fuel := by
  induction fuel generalizing d with
  | zero => exact ⟨h, le_rfl, le_rfl, by simp [dropZeros]⟩
  | succ fuel ih =>
    rw [dropZeros]
    split
    next hzero =>
      have hstep := ih (d := ⟨d.digits / 10, d.exponent + 1⟩) (by dsimp only; omega)
      dsimp only at hstep
      push_cast
      omega
    next => exact ⟨h, le_rfl, le_rfl, by push_cast; omega⟩

end Decimal

namespace Binary

/-- What is known of every finite double but zero, by its bits. -/
structure IsDouble (b : Binary) : Prop where
  significand_pos : 0 < b.significand
  significand_lt : b.significand < 9007199254740992
  le_exponent : -1074 ≤ b.exponent
  exponent_le : b.exponent ≤ 971
  isNormal_or_smallest : 4503599627370496 ≤ b.significand ∨ b.exponent = -1074
  isPowerOfTwo_iff :
    b.isPowerOfTwo = true ↔ b.significand = 4503599627370496 ∧ -1074 < b.exponent

section

variable {b : Binary}

theorem two_zpow_pos (n : ℤ) : (0 : ℚ) < 2 ^ n := zpow_pos (by norm_num) n

theorem ten_zpow_pos (n : ℤ) : (0 : ℚ) < 10 ^ n := zpow_pos (by norm_num) n

theorem IsDouble.le_value (h : b.IsDouble) : (10 : ℚ) ^ (-1074 : ℤ) ≤ b.value := by
  have hone : (1 : ℚ) ≤ b.significand := by exact_mod_cast h.significand_pos
  calc (10 : ℚ) ^ (-1074 : ℤ) = ((10 : ℚ) ^ 1074)⁻¹ := by rw [zpow_neg]; rfl
    _ ≤ ((2 : ℚ) ^ 1074)⁻¹ := by
      exact inv_anti₀ (by positivity) (pow_le_pow_left₀ (by norm_num) (by norm_num) 1074)
    _ = (2 : ℚ) ^ (-1074 : ℤ) := by rw [zpow_neg]; rfl
    _ ≤ (2 : ℚ) ^ b.exponent := zpow_le_zpow_right₀ (by norm_num) h.le_exponent
    _ ≤ b.significand * (2 : ℚ) ^ b.exponent := le_mul_of_one_le_left (two_zpow_pos _).le hone

theorem IsDouble.value_lt (h : b.IsDouble) : b.value < (10 : ℚ) ^ (1024 : ℤ) := by
  have hlt : (b.significand : ℚ) < 2 ^ (53 : ℤ) := by
    have := h.significand_lt
    norm_num
    exact_mod_cast this
  calc b.value < 2 ^ (53 : ℤ) * (2 : ℚ) ^ b.exponent :=
        mul_lt_mul_of_pos_right hlt (two_zpow_pos _)
    _ ≤ 2 ^ (53 : ℤ) * (2 : ℚ) ^ (971 : ℤ) := by
      gcongr
      · norm_num
      · exact h.exponent_le
    _ = (2 : ℚ) ^ 1024 := by rw [← zpow_add₀ two_ne_zero]; rfl
    _ ≤ (10 : ℚ) ^ 1024 := pow_le_pow_left₀ (by norm_num) (by norm_num) 1024

/-- The place of the leading digit of a double. -/
def leadingPlace (b : Binary) : ℤ :=
  leadingExponent (4 * b.significand * b.quarter.1) b.quarter.2

theorem IsDouble.leadingPlace_le (h : b.IsDouble) : (10 : ℚ) ^ b.leadingPlace ≤ b.value := by
  rw [value_eq]
  exact leadingExponent_le (Nat.mul_pos (Nat.mul_pos (by decide) h.significand_pos) b.quarter_pos.1)
    b.quarter_pos.2

theorem IsDouble.lt_leadingPlace (h : b.IsDouble) :
    b.value < (10 : ℚ) ^ (b.leadingPlace + 1) := by
  rw [value_eq]
  exact lt_leadingExponent (Nat.mul_pos (Nat.mul_pos (by decide) h.significand_pos) b.quarter_pos.1)
    b.quarter_pos.2

theorem IsDouble.leadingPlace_bounds (h : b.IsDouble) :
    -1075 < b.leadingPlace ∧ b.leadingPlace < 1024 := by
  have hlow := (zpow_lt_zpow_iff_right₀ (a := (10 : ℚ)) (by norm_num)).1
    (h.le_value.trans_lt h.lt_leadingPlace)
  have hhigh := (zpow_lt_zpow_iff_right₀ (a := (10 : ℚ)) (by norm_num)).1
    (h.leadingPlace_le.trans_lt h.value_lt)
  omega

/-- A grid whose last place is at most seventeen after the leading digit has a point next to a
double with at most eighteen digits, and it is not zero. -/
theorem IsDouble.steps_bounds (h : b.IsDouble) {i : ℕ} (hi : i < 18) :
    0 < ⌊b.value / 10 ^ (b.leadingPlace - i)⌋₊ ∧
      ⌊b.value / 10 ^ (b.leadingPlace - i)⌋₊ < 1000000000000000000 := by
  have hstep : (0 : ℚ) < 10 ^ (b.leadingPlace - i) := ten_zpow_pos _
  constructor
  · refine Nat.floor_pos.2 ((one_le_div hstep).2 (le_trans ?_ h.leadingPlace_le))
    exact zpow_le_zpow_right₀ (by norm_num) (by omega)
  · refine (Nat.floor_lt (div_nonneg ?_ hstep.le)).2 ((div_lt_iff₀ hstep).2 ?_)
    · exact (ten_zpow_pos b.leadingPlace).le.trans h.leadingPlace_le
    calc b.value < (10 : ℚ) ^ (b.leadingPlace + 1) := h.lt_leadingPlace
      _ ≤ (10 : ℚ) ^ (18 + (b.leadingPlace - i)) :=
        zpow_le_zpow_right₀ (by norm_num) (by omega)
      _ = (1000000000000000000 : ℕ) * 10 ^ (b.leadingPlace - i) := by
        rw [zpow_add₀ (by norm_num)]
        norm_num

/-- The shortest decimal of a double is not zero and has at most eighteen digits. -/
theorem IsDouble.isWritable_shortest (h : b.IsDouble) : b.shortest.IsWritable := by
  have hplace := h.leadingPlace_bounds
  have hfrom : 0 < (b.shortestFrom 18 b.leadingPlace).digits ∧
      (b.shortestFrom 18 b.leadingPlace).digits ≤ 1000000000000000000 ∧
      -1900 ≤ (b.shortestFrom 18 b.leadingPlace).exponent ∧
      (b.shortestFrom 18 b.leadingPlace).exponent ≤ 1900 := by
    obtain ⟨i, hi, hgrid⟩ | ⟨-, hend⟩ := b.shortestFrom_cases 18 b.leadingPlace
    · obtain ⟨hexponent, hdigits⟩ := of_nearestOnGrid?_eq_some hgrid
      -- a point of a grid has as many digits as the double has steps on it
      have hsteps := h.steps_bounds hi
      omega
    · -- without a point on any grid the significand itself is taken
      rw [hend]
      obtain ⟨hpos, hlt, hle, hge, -, -⟩ := h
      dsimp only
      omega
  obtain ⟨hpos, hle, hexponent, hexponent'⟩ := Decimal.dropZeros_bounds 18 hfrom.1
  rw [show b.shortest = (b.shortestFrom 18 b.leadingPlace).dropZeros 18 from rfl]
  exact ⟨hpos, by omega, by omega, by omega⟩

end

end Binary

end TrustBoundary
