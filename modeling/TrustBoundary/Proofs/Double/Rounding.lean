import Mathlib
import TrustBoundary.Proofs.Decimal.Shortest

/-!
# Rounding to the nearest double

The model of floating-point numbers rounds by shifting: bits that fall off a mantissa are kept as
two residual bits, which say on which side of the middle a number lies (`Describes`).  If a number
lies among those that are nearer to a double than to any other, half-way points going to the even
neighbour (`Binary.Attracts`), then rounding gives that double
(`Binary.IsDouble.roundWithAccuracy_eq`).
-/

namespace TrustBoundary

open Float.Model Float.Model.UnpackedFloat

/-! ### Mantissas with residual bits -/

/-- The mantissa is the whole part of the number, and the residual bits say on which side of the
middle between two whole numbers the rest of it lies. -/
def Describes (em : ExtendedMantissa) (q : ℚ) : Prop :=
  match em.roundBit, em.stickyBit with
  | false, false => q = em.mantissa
  | false, true => em.mantissa < q ∧ q < em.mantissa + 1 / 2
  | true, false => q = em.mantissa + 1 / 2
  | true, true => em.mantissa + 1 / 2 < q ∧ q < em.mantissa + 1

section

variable {em : ExtendedMantissa} {q : ℚ} {n : ℕ}

theorem Describes.floor (h : Describes em q) : (em.mantissa : ℚ) ≤ q ∧ q < em.mantissa + 1 := by
  obtain ⟨m, round, sticky⟩ := em
  cases round <;> cases sticky <;> simp only [Describes] at h
  · exact ⟨h.ge, by linarith⟩
  · exact ⟨h.1.le, by linarith⟩
  · exact ⟨by linarith, by linarith⟩
  · exact ⟨by linarith, h.2⟩

/-- The bit that falls off becomes the round bit, and the bits behind it the sticky bit. -/
theorem Describes.shiftRightOne (h : Describes em q) : Describes em.shiftRightOne (q / 2) := by
  obtain ⟨m, round, sticky⟩ := em
  obtain ⟨k, rfl | rfl⟩ := Nat.even_or_odd' m
  · -- an even mantissa: a zero falls off
    have hdiv : 2 * k / 2 = k := by omega
    have hmod : (2 * k % 2 != 0) = false := by simp
    cases round <;> cases sticky <;>
      simp only [Describes, ExtendedMantissa.shiftRightOne, hdiv, hmod, Bool.or_false,
        Bool.or_true] at h ⊢ <;> push_cast at h
    · linarith
    all_goals constructor <;> linarith
  · -- an odd one: the half that falls off is in the round bit
    have hdiv : (2 * k + 1) / 2 = k := by omega
    have hmod : ((2 * k + 1) % 2 != 0) = true := by simp [Nat.add_mod]
    cases round <;> cases sticky <;>
      simp only [Describes, ExtendedMantissa.shiftRightOne, hdiv, hmod, Bool.or_false,
        Bool.or_true] at h ⊢ <;> push_cast at h
    · linarith
    all_goals constructor <;> linarith

theorem Describes.shiftRight (h : Describes em q) (n : ℕ) : Describes (em >>> n) (q / 2 ^ n) := by
  induction n with
  | zero =>
    rw [pow_zero, div_one]
    exact h
  | succ n ih =>
    have hstep := ih.shiftRightOne
    rw [div_div, ← pow_succ] at hstep
    exact hstep

/-- The whole number is the nearest one, and even if another one is as near. -/
structure IsNearest (q : ℚ) (n : ℕ) : Prop where
  low : n - 1 / 2 ≤ q
  high : q ≤ n + 1 / 2
  even_of_tie : q = n - 1 / 2 ∨ q = n + 1 / 2 → n % 2 = 0

theorem Describes.roundedMantissa_eq (h : Describes em q) (hn : IsNearest q n) :
    em.roundedMantissa = n := by
  obtain ⟨m, round, sticky⟩ := em
  obtain ⟨hlow, hhigh, heven⟩ := hn
  have hle (k l : ℕ) (hlt : (k : ℚ) < l + 1) : k ≤ l := Nat.lt_succ_iff.1 (by exact_mod_cast hlt)
  cases round <;> cases sticky <;> simp only [Describes] at h
  · exact Nat.le_antisymm (hle m n (by linarith)) (hle n m (by linarith))
  · exact Nat.le_antisymm (hle m n (by linarith)) (hle n m (by linarith))
  · -- half-way between `m` and `m + 1`, of which the nearest is the even one
    change m + m % 2 = n
    have hmn := hle m n (by linarith)
    have hnm := hle n (m + 1) (by push_cast; linarith)
    obtain rfl | rfl : n = m ∨ n = m + 1 := by omega
    · have := heven (.inr h)
      omega
    · have := heven (.inl (by push_cast; linarith))
      omega
  · exact Nat.le_antisymm (hle (m + 1) n (by push_cast; linarith))
      (hle n (m + 1) (by push_cast; linarith))

@[simp] theorem mantissa_ofMantissaAndAccuracy (m : ℕ) (accuracy : Accuracy) :
    (ExtendedMantissa.ofMantissaAndAccuracy m accuracy).mantissa = m := by
  obtain _ | ⟨_ | _ | _⟩ := accuracy <;> rfl

theorem describes_exact (m : ℕ) : Describes (.ofMantissaAndAccuracy m .exact) m := rfl

end

/-! ### Exponents of doubles -/

theorem targetExponent_eq (n : ℤ) : Format.binary64.targetExponent n = max (n - 53) (-1074) := rfl

/-- A number with a mantissa of full length lies between the powers of two that its exponent
says. -/
theorem bounds_of_describes {m : ℕ} {e : ℤ} {accuracy : Accuracy} {v : ℚ}
    (h : Describes (.ofMantissaAndAccuracy m accuracy) (v / 2 ^ e))
    (he : e ≤ Format.binary64.targetExponent (totalExponent m e)) :
    v < 2 ^ (Format.binary64.targetExponent (totalExponent m e) + 53) ∧
      (Format.binary64.targetExponent (totalExponent m e) = -1074 ∨
        2 ^ (Format.binary64.targetExponent (totalExponent m e) + 52) ≤ v) := by
  have hunit : (0 : ℚ) < 2 ^ e := Binary.two_zpow_pos e
  obtain ⟨hfloor, hlt⟩ := h.floor
  rw [mantissa_ofMantissaAndAccuracy] at hfloor hlt
  rw [le_div_iff₀ hunit] at hfloor
  rw [div_lt_iff₀ hunit] at hlt
  have htotal : totalExponent m e = m.log2 + 1 + e := rfl
  rw [targetExponent_eq, htotal] at he ⊢
  constructor
  · -- above: the mantissa is below the power of two behind its leading bit
    have hsucc : (m : ℚ) + 1 ≤ 2 ^ (m.log2 + 1) := by exact_mod_cast Nat.lt_log2_self
    calc v < (m + 1) * 2 ^ e := hlt
      _ ≤ 2 ^ (m.log2 + 1) * 2 ^ e := mul_le_mul_of_nonneg_right hsucc hunit.le
      _ = 2 ^ ((m.log2 : ℤ) + 1 + e) := by
        rw [zpow_add₀ two_ne_zero, ← zpow_natCast]
        norm_cast
      _ ≤ _ := zpow_le_zpow_right₀ (by norm_num) (by omega)
  · -- below: with the smallest exponent there is nothing to show
    by_cases hmin : max ((m.log2 : ℤ) + 1 + e - 53) (-1074) = -1074
    · exact .inl hmin
    · right
      have hne : m ≠ 0 := by
        rintro rfl
        -- a mantissa of zero would have a smaller exponent than it may have
        rw [show Nat.log2 0 = 0 by decide] at he hmin
        omega
      have hself : (2 : ℚ) ^ m.log2 ≤ m := by exact_mod_cast Nat.log2_self_le hne
      rw [max_eq_left (by omega), show (m.log2 : ℤ) + 1 + e - 53 + 52 = m.log2 + e by ring,
        zpow_add₀ two_ne_zero, zpow_natCast]
      exact (mul_le_mul_of_nonneg_right hself hunit.le).trans hfloor

namespace Binary

variable {b : Binary} {v : ℚ}

/-- The number is nearer to the double than to any other, or half-way and the double is the even
neighbour. -/
structure Attracts (b : Binary) (v : ℚ) : Prop where
  low : b.significand - (if b.isPowerOfTwo then 1 / 4 else 1 / 2) ≤ v / 2 ^ b.exponent
  high : v / 2 ^ b.exponent ≤ b.significand + 1 / 2
  even_of_tie : v / 2 ^ b.exponent = b.significand - 1 / 2 ∨
    v / 2 ^ b.exponent = b.significand + 1 / 2 → b.significand % 2 = 0

theorem attracts_value (b : Binary) : b.Attracts b.value := by
  have hvalue : b.value / 2 ^ b.exponent = b.significand :=
    mul_div_cancel_right₀ _ (two_zpow_pos _).ne'
  constructor <;> rw [hvalue]
  · split <;> linarith
  · linarith
  · rintro (h | h) <;> linarith

theorem Attracts.isNearest (h : b.Attracts v) : IsNearest (v / 2 ^ b.exponent) b.significand := by
  refine ⟨le_trans ?_ h.low, h.high, h.even_of_tie⟩
  split <;> linarith

/-- The significand of a double has its full length, or the double has the smallest exponent. -/
theorem IsDouble.log2_significand (h : b.IsDouble) :
    b.significand.log2 = 52 ∨ b.significand.log2 < 52 ∧ b.exponent = -1074 := by
  have hne := h.significand_pos.ne'
  have hle : b.significand.log2 < 53 := (Nat.log2_lt hne).2 h.significand_lt
  obtain hnormal | hsmallest := h.isNormal_or_smallest
  · have := (Nat.le_log2 (k := 52) hne).2 hnormal
    omega
  · omega

/-- The exponent of a double is as small as its significand allows. -/
theorem IsDouble.targetExponent_totalExponent (h : b.IsDouble) :
    Format.binary64.targetExponent (totalExponent b.significand b.exponent) = b.exponent := by
  rw [targetExponent_eq, show totalExponent b.significand b.exponent =
    b.significand.log2 + 1 + b.exponent from rfl]
  have hle := h.le_exponent
  obtain hnormal | ⟨hsmall, hexponent⟩ := h.log2_significand <;> omega

/-- A significand that is as long as it may be stays as it is. -/
theorem IsDouble.shiftToTargetExponent_eq (h : b.IsDouble) :
    shiftToTargetExponent Format.binary64 b.significand b.exponent .exact =
      (⟨b.significand, false, false⟩, b.exponent) := by
  rw [shiftToTargetExponent, h.targetExponent_totalExponent, shiftToExponent, sub_self]
  exact Prod.ext rfl (add_zero _)

/-- A significand that rounding has made one bit too long loses that bit. -/
theorem shiftToTargetExponent_carry {t : ℤ} (h : -1074 ≤ t) :
    shiftToTargetExponent Format.binary64 9007199254740992 t .exact =
      (⟨4503599627370496, false, false⟩, t + 1) := by
  have htarget : Format.binary64.targetExponent (totalExponent 9007199254740992 t) = t + 1 := by
    rw [targetExponent_eq, show totalExponent 9007199254740992 t =
      Nat.log2 9007199254740992 + 1 + t from rfl, show Nat.log2 9007199254740992 = 53 by decide]
    omega
  rw [shiftToTargetExponent, htarget, shiftToExponent, add_sub_cancel_left]
  rfl

theorem two_zpow_add (b : Binary) (k : ℤ) :
    (2 : ℚ) ^ (b.exponent + k) = 2 ^ k * 2 ^ b.exponent := by
  rw [zpow_add₀ two_ne_zero, mul_comm]

/-- A double that attracts a number below its own binade is the power of two just above it. -/
theorem IsDouble.isPowerOfTwo_of_lt (h : b.IsDouble) (hv : b.Attracts v) (hmin : -1074 < b.exponent)
    (hlt : v < 2 ^ (b.exponent + 52)) : b.significand = 4503599627370496 ∧
      (4503599627370496 - 1 / 4) * 2 ^ b.exponent ≤ v := by
  have hunit := two_zpow_pos b.exponent
  have hlow := (le_div_iff₀ hunit).1 hv.low
  rw [two_zpow_add] at hlt
  have hsignificand : b.significand = 4503599627370496 := by
    -- the significand is the smallest of full length, or the number would not be so near
    refine le_antisymm ?_ (h.isNormal_or_smallest.resolve_right hmin.ne')
    have hcast := lt_of_mul_lt_mul_right (hlow.trans_lt hlt) hunit.le
    have : (b.significand : ℚ) < 4503599627370496 + 1 := by
      refine (sub_lt_iff_lt_add.1 hcast).trans_le ?_
      split <;> norm_num
    exact Nat.lt_succ_iff.1 (by exact_mod_cast this)
  rw [if_pos (h.isPowerOfTwo_iff.2 ⟨hsignificand, hmin⟩), hsignificand] at hlow
  exact ⟨hsignificand, hlow⟩

/-- A number that takes a smaller exponent than the double that attracts it is carried over to that
double, a power of two. -/
theorem IsDouble.carries (h : b.IsDouble) (hv : b.Attracts v) {t : ℤ} (hmin : -1074 ≤ t)
    (ht : t < b.exponent) (htop : v < 2 ^ (t + 53)) :
    t + 1 = b.exponent ∧ b.significand = 4503599627370496 ∧
      IsNearest (v / 2 ^ t) 9007199254740992 := by
  have hunit := two_zpow_pos b.exponent
  obtain ⟨hsignificand, hlow⟩ := h.isPowerOfTwo_of_lt hv (by omega)
    (htop.trans_le (zpow_le_zpow_right₀ (by norm_num) (by omega)))
  have hexponent : t + 1 = b.exponent := by
    -- two binades below, the number is less than half the double
    by_contra hne
    have hhalf : v < 2 ^ (b.exponent + 51) :=
      htop.trans_le (zpow_le_zpow_right₀ (by norm_num) (by omega))
    rw [two_zpow_add] at hhalf
    have := lt_of_mul_lt_mul_right (hlow.trans_lt hhalf) hunit.le
    norm_num at this
  -- in the steps of the lower binade the double is the number behind the longest mantissa
  have hunit' := two_zpow_pos t
  rw [← hexponent, zpow_add₀ two_ne_zero, zpow_one] at hlow
  rw [zpow_add₀ two_ne_zero] at htop
  refine ⟨hexponent, hsignificand, ?_, ?_, fun _ => by decide⟩
  · rw [le_div_iff₀ hunit']
    norm_num at hlow ⊢
    linarith
  · rw [div_le_iff₀ hunit']
    norm_num at htop ⊢
    linarith

/-- No number takes a larger exponent than the double that attracts it. -/
theorem IsDouble.le_exponent_of_attracts (h : b.IsDouble) (hv : b.Attracts v) {t : ℤ}
    (hbottom : t = -1074 ∨ 2 ^ (t + 52) ≤ v) : t ≤ b.exponent := by
  by_contra hlt
  have hunit := two_zpow_pos b.exponent
  have hhigh := (div_le_iff₀ hunit).1 hv.high
  have hlow : 2 ^ (b.exponent + 53) ≤ v :=
    le_trans (zpow_le_zpow_right₀ (by norm_num) (by omega))
      (hbottom.resolve_left (by have := h.le_exponent; omega))
  rw [two_zpow_add] at hlow
  have hle := le_of_mul_le_mul_right (hlow.trans hhigh) hunit
  have hcast : (b.significand : ℚ) + 1 ≤ 9007199254740992 := by exact_mod_cast h.significand_lt
  norm_num at hle
  linarith

/-- The exponent that a number with a full mantissa takes is that of the double that attracts the
number, or the number is just below a power of two and is carried over to it. -/
theorem IsDouble.exponent_cases (h : b.IsDouble) (hv : b.Attracts v) {t : ℤ} (hmin : -1074 ≤ t)
    (htop : v < 2 ^ (t + 53)) (hbottom : t = -1074 ∨ 2 ^ (t + 52) ≤ v) :
    (t = b.exponent ∧ IsNearest (v / 2 ^ t) b.significand) ∨
      (t + 1 = b.exponent ∧ b.significand = 4503599627370496 ∧
        IsNearest (v / 2 ^ t) 9007199254740992) := by
  obtain heq | hlt := (h.le_exponent_of_attracts hv hbottom).eq_or_lt
  · exact .inl ⟨heq, heq ▸ hv.isNearest⟩
  · exact .inr (h.carries hv hmin hlt htop)

/-- Rounding gives the double that attracts the number. -/
theorem IsDouble.roundWithAccuracy_eq (h : b.IsDouble) (hv : b.Attracts v) (s : Sign) {m : ℕ}
    {e : ℤ} {accuracy : Accuracy} (hm : Describes (.ofMantissaAndAccuracy m accuracy) (v / 2 ^ e))
    (he : e ≤ Format.binary64.targetExponent (totalExponent m e)) :
    roundWithAccuracy Format.binary64 s m e accuracy =
      .finite s b.significand b.exponent h.significand_pos := by
  obtain ⟨htop, hbottom⟩ := bounds_of_describes hm he
  have hmin : -1074 ≤ Format.binary64.targetExponent (totalExponent m e) := le_max_right _ _
  have hcases := h.exponent_cases hv hmin htop hbottom
  generalize ht : Format.binary64.targetExponent (totalExponent m e) = t at *
  obtain ⟨k, hk⟩ := Int.eq_ofNat_of_zero_le (sub_nonneg.2 he)
  -- the first shift brings the mantissa to the exponent that the number takes
  have hfirst : shiftToTargetExponent Format.binary64 m e accuracy =
      (ExtendedMantissa.ofMantissaAndAccuracy m accuracy >>> k, t) := by
    rw [shiftToTargetExponent, ht, shiftToExponent, hk, Int.toNat_natCast]
    exact Prod.ext rfl (by dsimp only; omega)
  -- the shifted mantissa and its residual bits describe the number in the new steps
  have hshifted :
      Describes (ExtendedMantissa.ofMantissaAndAccuracy m accuracy >>> k) (v / 2 ^ t) := by
    have hdiv : v / 2 ^ t = v / 2 ^ e / 2 ^ k := by
      rw [div_div, ← zpow_natCast, ← zpow_add₀ two_ne_zero]
      congr 2
      omega
    rw [hdiv]
    exact hm.shiftRight k
  unfold roundWithAccuracy
  rw [hfirst]
  dsimp only
  obtain ⟨rfl, hnearest⟩ | ⟨hcarry, hsignificand, hnearest⟩ := hcases
  · simp only [hshifted.roundedMantissa_eq hnearest, h.shiftToTargetExponent_eq]
    exact dif_neg h.significand_pos.ne'
  · -- the rounded mantissa is one bit too long, and a second shift takes it off
    simp only [hshifted.roundedMantissa_eq hnearest, shiftToTargetExponent_carry hmin, hcarry,
      hsignificand]
    rfl

end Binary

end TrustBoundary
