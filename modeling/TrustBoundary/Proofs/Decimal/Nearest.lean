import Mathlib.Tactic.FieldSimp
import TrustBoundary.Proofs.Decimal.Written
import TrustBoundary.Proofs.Double.Rounding

/-!
# The shortest decimal rounds to its double

The search for the shortest decimal tests whether a point of a grid is attracted by the double
(`Binary.IsDouble.contains_iff`).  The last grid that it looks at is fine enough to have such a
point (`Binary.IsDouble.nearestOnGrid?_ne_none`), so the decimal that is found is one, and dropping
its zeros does not change its value (`Binary.IsDouble.attracts_shortest`).
-/

namespace TrustBoundary

namespace Decimal

/-- The number that a decimal stands for. -/
def value (d : Decimal) : ℚ := d.digits * 10 ^ d.exponent

theorem value_dropZeros (fuel : ℕ) (d : Decimal) : (d.dropZeros fuel).value = d.value := by
  induction fuel generalizing d with
  | zero => rfl
  | succ fuel ih =>
    rw [dropZeros]
    split
    next h =>
      rw [ih, value, value, zpow_add₀ (by norm_num), zpow_one]
      have hdigits : (d.digits : ℚ) = (d.digits / 10 : ℕ) * 10 := by
        exact_mod_cast (Nat.div_mul_cancel (Nat.dvd_of_mod_eq_zero h.2)).symm
      dsimp only
      rw [hdigits]
      ring
    next => rfl

end Decimal

namespace Binary

variable {b : Binary} {place : ℤ} {v : ℚ}

/-- The lower end of the interval that the search tests, in quarters of a step. -/
theorem IsDouble.cast_low (h : b.IsDouble) :
    ((4 * b.significand - (if b.isPowerOfTwo then 1 else 2) : ℕ) : ℚ) =
      4 * (b.significand - (if b.isPowerOfTwo then 1 / 4 else 1 / 2)) := by
  have hpos := h.significand_pos
  split
  · rw [Nat.cast_sub (by omega)]
    push_cast
    ring
  · rw [Nat.cast_sub (by omega)]
    push_cast
    ring

/-- The search tests whether the double attracts a number of quarters. -/
theorem IsDouble.contains_iff (h : b.IsDouble) (num : ℕ) {den : ℕ} (hden : 0 < den) :
    b.contains num den = true ↔ b.Attracts (num / den * 2 ^ (b.exponent - 2)) := by
  have hden' : (0 : ℚ) < den := by exact_mod_cast hden
  -- both sides are counted in steps of the double, of which the search takes quarters
  have hquarters : (num / den * 2 ^ (b.exponent - 2) : ℚ) / 2 ^ b.exponent = num / den / 4 := by
    rw [zpow_sub₀ two_ne_zero, mul_div_assoc, div_div_cancel_left' (two_zpow_pos _).ne',
      div_eq_mul_inv _ (4 : ℚ)]
    norm_num
  have hle (k l : ℕ) : k * den ≤ l ↔ (k : ℚ) ≤ l / den := by
    rw [le_div_iff₀ hden']
    exact_mod_cast Iff.rfl
  have hge (k l : ℕ) : l ≤ k * den ↔ (l / den : ℚ) ≤ k := by
    rw [div_le_iff₀ hden']
    exact_mod_cast Iff.rfl
  have hhigh : ((4 * b.significand + 2 : ℕ) : ℚ) = 4 * (b.significand + 1 / 2) := by
    push_cast
    ring
  unfold contains
  dsimp only
  by_cases heven : b.significand % 2 = 0
  · -- an even double attracts both ends of its interval
    rw [if_pos heven, Bool.and_eq_true, decide_eq_true_iff, decide_eq_true_iff, hle, hge,
      h.cast_low, hhigh]
    constructor
    · rintro ⟨hlow, hup⟩
      refine ⟨?_, ?_, fun _ => heven⟩ <;> rw [hquarters] <;> linarith
    · rintro ⟨hlow, hup, -⟩
      rw [hquarters] at hlow hup
      constructor <;> linarith
  · -- the significand of a power of two is even, so the step below is as long as the one above
    have hpower : b.isPowerOfTwo = false := by
      refine Bool.eq_false_iff.2 fun hpower => heven ?_
      rw [(h.isPowerOfTwo_iff.1 hpower).1]
    rw [if_neg heven, Bool.and_eq_true, decide_eq_true_iff, decide_eq_true_iff, ← not_le, ← not_le,
      hle, hge, h.cast_low, hhigh, hpower, if_neg Bool.false_ne_true, not_le, not_le]
    constructor
    · rintro ⟨hlow, hup⟩
      refine ⟨?_, ?_, ?_⟩ <;> rw [hquarters]
      · rw [hpower, if_neg Bool.false_ne_true]
        linarith
      · linarith
      · rintro (htie | htie) <;> linarith
    · rintro ⟨hlow, hup, htie⟩
      rw [hquarters] at hlow hup htie
      rw [hpower, if_neg Bool.false_ne_true] at hlow
      -- an odd double does not attract the ends of its interval
      have hne := fun hend => heven (htie hend)
      have hlow' := lt_of_le_of_ne hlow fun heq => hne (.inl heq.symm)
      have hup' := lt_of_le_of_ne hup fun heq => hne (.inr heq)
      constructor <;> linarith

/-- What the search tests at a point of a grid. -/
theorem IsDouble.contains_grid_iff (h : b.IsDouble) (place : ℤ) (k : ℕ) :
    b.contains (k * (Nat.pow 10 place.toNat * b.quarter.2))
      (Nat.pow 10 (-place).toNat * b.quarter.1) = true ↔ b.Attracts (k * 10 ^ place) := by
  obtain ⟨hnum, hden⟩ := b.quarter_pos
  have hnum' : (b.quarter.1 : ℚ) ≠ 0 := by exact_mod_cast hnum.ne'
  have hden' : (b.quarter.2 : ℚ) ≠ 0 := by exact_mod_cast hden.ne'
  have hpow := zpow_eq_div (b := 10) (by decide) place
  rw [Nat.cast_ofNat] at hpow
  have hten : 0 < Nat.pow 10 (-place).toNat := Nat.pow_pos (by decide)
  have hten' : ((Nat.pow 10 (-place).toNat : ℕ) : ℚ) ≠ 0 := by exact_mod_cast hten.ne'
  rw [h.contains_iff _ (Nat.mul_pos hten hnum), ← quarter_eq, hpow]
  refine iff_of_eq (congrArg _ ?_)
  push_cast
  field_simp

/-- The point of a grid that is found is attracted by the double. -/
theorem IsDouble.attracts_of_nearestOnGrid?_eq_some (h : b.IsDouble) {d : Decimal}
    (hd : b.nearestOnGrid? place = some d) : b.Attracts d.value := by
  unfold nearestOnGrid? at hd
  dsimp only at hd
  split at hd
  next hbelow =>
    cases hd
    exact (h.contains_grid_iff place _).1 (Bool.and_eq_true_iff.1 hbelow).1
  next =>
    split at hd
    next habove =>
      cases hd
      exact (h.contains_grid_iff place _).1 habove
    next => cases hd

/-- A grid on which the point below the double is attracted by it has a point for the search. -/
theorem IsDouble.nearestOnGrid?_ne_none_of_attracts (h : b.IsDouble)
    (hbelow : b.Attracts (⌊b.value / 10 ^ place⌋₊ * 10 ^ place)) :
    b.nearestOnGrid? place ≠ none := by
  unfold nearestOnGrid?
  dsimp only
  rw [steps_eq, (h.contains_grid_iff place _).2 hbelow, Bool.true_and]
  generalize b.contains ((⌊b.value / 10 ^ place⌋₊ + 1) * _) _ = aboveFits
  cases aboveFits with
  | false =>
    rw [Bool.not_false, Bool.or_true, if_pos rfl]
    exact Option.some_ne_none _
  | true =>
    rw [if_pos (rfl : true = true)]
    split <;> exact Option.some_ne_none _

/-- A double attracts what is less than a quarter of a step below it. -/
theorem attracts_of_lt (hle : v ≤ b.value) (hlt : b.value < v + 2 ^ b.exponent / 4) :
    b.Attracts v := by
  have hunit := two_zpow_pos b.exponent
  have hup : v / 2 ^ b.exponent ≤ b.significand := (div_le_iff₀ hunit).2 hle
  have hlow : (b.significand : ℚ) - 1 / 4 < v / 2 ^ b.exponent := by
    rw [lt_div_iff₀ hunit]
    unfold value at hlt
    linarith
  refine ⟨le_trans ?_ hlow.le, by linarith, ?_⟩
  · split <;> linarith
  · rintro (htie | htie) <;> linarith

/-- Seventeen places after the leading digit a grid is fine enough. -/
theorem IsDouble.nearestOnGrid?_ne_none (h : b.IsDouble) :
    b.nearestOnGrid? (b.leadingPlace - 17) ≠ none := by
  have hstep := ten_zpow_pos (b.leadingPlace - 17)
  have hvalue : 0 ≤ b.value := (ten_zpow_pos _).le.trans h.leadingPlace_le
  -- its steps are shorter than a quarter of the step of the double
  have hfine : (10 : ℚ) ^ (b.leadingPlace - 17) < 2 ^ b.exponent / 4 := by
    have hlt : b.value < 9007199254740992 * 2 ^ b.exponent := by
      refine mul_lt_mul_of_pos_right ?_ (two_zpow_pos _)
      exact_mod_cast h.significand_lt
    have hten : (10 : ℚ) ^ (b.leadingPlace - 17) * 100000000000000000 = 10 ^ b.leadingPlace := by
      rw [zpow_sub₀ (by norm_num)]
      norm_num
    have hle := h.leadingPlace_le
    linarith
  -- so the point below the double is near enough
  refine h.nearestOnGrid?_ne_none_of_attracts (attracts_of_lt ?_ ?_)
  · exact (le_div_iff₀ hstep).1 (Nat.floor_le (div_nonneg hvalue hstep.le))
  · have hfloor := (div_lt_iff₀ hstep).1 (Nat.lt_floor_add_one (b.value / _))
    linarith

/-- The shortest decimal rounds to its double. -/
theorem IsDouble.attracts_shortest (h : b.IsDouble) : b.Attracts b.shortest.value := by
  rw [show b.shortest = (b.shortestFrom 18 b.leadingPlace).dropZeros 18 from rfl,
    Decimal.value_dropZeros]
  obtain ⟨i, hi, hgrid⟩ | ⟨hnone, -⟩ := b.shortestFrom_cases 18 b.leadingPlace
  · exact h.attracts_of_nearestOnGrid?_eq_some hgrid
  · exact absurd (hnone 17 (by decide)) h.nearestOnGrid?_ne_none

end Binary

namespace Decimal

/-- The number that a reader takes out of the text of a double is its shortest decimal. -/
theorem value_floatAsRead {x : Float} (hfinite : x.isFinite = true)
    (hne : (Binary.ofFloat x).significand ≠ 0) :
    0 < (floatAsRead x).1 ∧ -2000 ≤ (floatAsRead x).2 ∧ (floatAsRead x).2 ≤ 2000 ∧
      ((floatAsRead x).1 * 10 ^ (floatAsRead x).2 : ℚ) =
        (Binary.ofFloat x).shortest.value := by
  have hwritable := (isDouble_ofFloat hfinite hne).isWritable_shortest
  rw [show floatAsRead x = (Binary.ofFloat x).shortest.asRead from if_neg hne]
  generalize (Binary.ofFloat x).shortest = d at hwritable ⊢
  obtain ⟨hpos, -, hlow, hhigh⟩ := hwritable
  unfold asRead value
  split
  next hwhole =>
    refine ⟨Nat.mul_pos hpos (Nat.pow_pos (by decide)), by dsimp only; omega,
      by dsimp only; omega, ?_⟩
    -- a whole number is written with its zeros and one more behind the point
    obtain ⟨n, hn⟩ := Int.eq_ofNat_of_zero_le hwhole.1
    dsimp only
    rw [hn, Int.toNat_natCast, Nat.pow_eq, pow_succ, zpow_natCast, zpow_neg_one]
    push_cast
    ring
  next => exact ⟨hpos, hlow, hhigh, rfl⟩

end Decimal

end TrustBoundary
