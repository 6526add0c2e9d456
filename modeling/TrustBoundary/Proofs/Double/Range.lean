import Mathlib.Data.Int.Log
import TrustBoundary.Proofs.Double.PowersOfTen

/-!
# The range of doubles

Every number between the smallest and the largest power of two that are doubles of full length is
attracted by some double (`Binary.exists_attracts`), and so every decimal in that range is rounded
to a finite one (`Binary.exists_ofScientific_eq`).  Whole numbers of 64 bits lie in that range, with
powers of ten up to the twenty-second (`isFinite_ofScientific`).
-/

namespace TrustBoundary

open Float.Model Float.Model.UnpackedFloat

/-- Every number has a nearest whole number, half-way the even one of two neighbours. -/
theorem exists_isNearest {q : ℚ} (hq : 0 ≤ q) :
    ∃ n : ℕ, IsNearest q n ∧ ⌊q⌋₊ ≤ n ∧ n ≤ ⌊q⌋₊ + 1 := by
  have hfloor := Nat.floor_le hq
  have hlt := Nat.lt_floor_add_one q
  obtain hdown | hmiddle | hup := lt_trichotomy q (⌊q⌋₊ + 1 / 2)
  · refine ⟨⌊q⌋₊, ⟨by linarith, hdown.le, ?_⟩, le_rfl, Nat.le_succ _⟩
    rintro (h | h) <;> linarith
  · obtain heven | hodd := Nat.even_or_odd ⌊q⌋₊
    · exact ⟨⌊q⌋₊, ⟨by linarith, hmiddle.le, fun _ => Nat.even_iff.1 heven⟩, le_rfl, Nat.le_succ _⟩
    · refine ⟨⌊q⌋₊ + 1, ⟨?_, ?_, fun _ => ?_⟩, Nat.le_succ _, le_rfl⟩
      · push_cast
        linarith
      · push_cast
        linarith
      · exact Nat.even_iff.1 hodd.add_one
  · refine ⟨⌊q⌋₊ + 1, ⟨?_, ?_, ?_⟩, Nat.le_succ _, le_rfl⟩
    · push_cast
      linarith
    · push_cast
      linarith
    · push_cast
      rintro (h | h) <;> linarith

namespace Binary

/-- Every number in the range of doubles of full length is attracted by a double. -/
theorem exists_attracts {v : ℚ} (hlow : 2 ^ (-1022 : ℤ) ≤ v) (hhigh : v < 2 ^ (1023 : ℤ)) :
    ∃ b : Binary, b.IsDouble ∧ b.Attracts v := by
  have hpos : 0 < v := (two_zpow_pos _).trans_le hlow
  have hmin : -1022 ≤ Int.log 2 v := (Int.zpow_le_iff_le_log one_lt_two hpos).1 hlow
  have hmax : Int.log 2 v < 1023 := (Int.lt_zpow_iff_log_lt one_lt_two hpos).1 hhigh
  -- with this exponent the number has 53 bits before the point
  obtain ⟨e, he⟩ : ∃ e, Int.log 2 v = e + 52 := ⟨Int.log 2 v - 52, by omega⟩
  rw [he] at hmin hmax
  have hunit := two_zpow_pos e
  have hbottom : 4503599627370496 ≤ v / 2 ^ e := by
    have hle := Int.zpow_log_le_self one_lt_two hpos
    rw [he, Nat.cast_ofNat, zpow_add₀ two_ne_zero] at hle
    rw [le_div_iff₀ hunit, mul_comm]
    exact_mod_cast hle
  have htop : v / 2 ^ e < 9007199254740992 := by
    have hlt := Int.lt_zpow_succ_log_self one_lt_two v
    rw [he, add_assoc, Nat.cast_ofNat, zpow_add₀ two_ne_zero] at hlt
    rw [div_lt_iff₀ hunit, mul_comm]
    exact_mod_cast hlt
  obtain ⟨n, hn, hle, hge⟩ := exists_isNearest (le_trans (by norm_num) hbottom)
  have hfull : 4503599627370496 ≤ n := (Nat.le_floor (by exact_mod_cast hbottom)).trans hle
  -- rounding may make the mantissa one bit too long
  have hcarry : n ≤ 9007199254740992 :=
    hge.trans ((Nat.floor_lt' (by norm_num)).2 (by exact_mod_cast htop))
  obtain hlt | rfl := hcarry.lt_or_eq
  · have hb : IsDouble ⟨n, e, decide (n = 4503599627370496 ∧ -1074 < e)⟩ :=
      ⟨(by omega : 0 < n), hlt, (by omega : -1074 ≤ e), (by omega : e ≤ 971), .inl hfull,
        decide_eq_true_iff⟩
    -- the step below a power of two is half as long, but there the nearest number is not below
    refine ⟨_, hb, ?_, hn.high, hn.even_of_tie⟩
    dsimp only
    split
    next h =>
      obtain ⟨rfl, -⟩ := of_decide_eq_true h
      push_cast
      linarith
    next => exact hn.low
  · -- the number is carried over to the next power of two
    have hhalf : v / 2 ^ (e + 1) = v / 2 ^ e / 2 := by
      rw [zpow_add_one₀ two_ne_zero, div_mul_eq_div_div]
    have hlow := hn.low
    push_cast at hlow
    have hb : IsDouble ⟨4503599627370496, e + 1, true⟩ :=
      ⟨by norm_num, by norm_num, (by omega : -1074 ≤ e + 1), (by omega : e + 1 ≤ 971), .inl le_rfl,
        iff_of_true rfl ⟨rfl, (by omega : -1074 < e + 1)⟩⟩
    refine ⟨_, hb, ?_, ?_, fun _ => by norm_num⟩
    · dsimp only
      rw [hhalf, if_pos rfl]
      push_cast
      linarith
    · dsimp only
      rw [hhalf]
      push_cast
      linarith

/-- A decimal in that range is rounded to a double that attracts it. -/
theorem exists_ofScientific_eq {m : ℕ} {k : ℤ} (hk : k.natAbs ≤ 2048)
    (hlow : 2 ^ (-1022 : ℤ) ≤ (m * 10 ^ k : ℚ)) (hhigh : (m * 10 ^ k : ℚ) < 2 ^ (1023 : ℤ)) :
    ∃ (b : Binary) (h : b.IsDouble), b.Attracts (m * 10 ^ k) ∧
      Float.ofScientific m (k < 0) k.natAbs = h.toFloat .positive := by
  obtain ⟨b, hb, hv⟩ := exists_attracts hlow hhigh
  have hpos : 0 < m := by
    rw [Nat.pos_iff_ne_zero]
    rintro rfl
    rw [Nat.cast_zero, zero_mul] at hlow
    exact absurd hlow (not_le.2 (two_zpow_pos _))
  exact ⟨b, hb, hv, hb.ofScientific_eq hpos (by omega) (by omega) hv⟩

/-- Whole numbers of 64 bits and their multiples with small powers of ten are in that range. -/
theorem exists_ofScientific_eq_of_lt {m : ℕ} {k : ℤ} (hpos : 0 < m) (hlt : m < 18446744073709551616)
    (hk : k.natAbs ≤ 22) : ∃ (b : Binary) (h : b.IsDouble), b.Attracts (m * 10 ^ k) ∧
      Float.ofScientific m (k < 0) k.natAbs = h.toFloat .positive := by
  have hone : (1 : ℚ) ≤ m := by exact_mod_cast hpos
  have hm : (m : ℚ) < 18446744073709551616 := by exact_mod_cast hlt
  have hsmall : (10 : ℚ) ^ (-22 : ℤ) ≤ 10 ^ k := zpow_le_zpow_right₀ (by norm_num) (by omega)
  have hlarge : (10 : ℚ) ^ k ≤ 10 ^ (22 : ℤ) := zpow_le_zpow_right₀ (by norm_num) (by omega)
  refine exists_ofScientific_eq (by omega) ?_ ?_
  · calc (2 : ℚ) ^ (-1022 : ℤ) ≤ 2 ^ (-80 : ℤ) := zpow_le_zpow_right₀ one_le_two (by norm_num)
      _ ≤ 1 * 10 ^ (-22 : ℤ) := by norm_num
      _ ≤ m * 10 ^ k := mul_le_mul hone hsmall (by positivity) (by positivity)
  · calc (m * 10 ^ k : ℚ) ≤ 18446744073709551616 * 10 ^ (22 : ℤ) :=
          mul_le_mul hm.le hlarge (by positivity) (by positivity)
      _ < 2 ^ (160 : ℤ) := by norm_num
      _ ≤ 2 ^ (1023 : ℤ) := zpow_le_zpow_right₀ one_le_two (by norm_num)

end Binary

/-- Zero is zero with any power of ten. -/
theorem ofScientific_zero : ∀ k : Fin 23,
    Float.ofScientific 0 false k = .ofBits 0 ∧ Float.ofScientific 0 true k = .ofBits 0 := by
  decide +kernel

/-- Such a number is rounded to a finite double, whatever its sign is. -/
theorem isFinite_ofScientific (negative : Bool) {m : ℕ} {k : ℤ} (hlt : m < 18446744073709551616)
    (hk : k.natAbs ≤ 22) :
    (if negative then -Float.ofScientific m (k < 0) k.natAbs
      else Float.ofScientific m (k < 0) k.natAbs).isFinite = true := by
  obtain rfl | hpos := Nat.eq_zero_or_pos m
  · have hscientific : Float.ofScientific 0 (k < 0) k.natAbs = .ofBits 0 := by
      obtain ⟨hup, hdown⟩ := ofScientific_zero ⟨k.natAbs, by omega⟩
      cases decide (k < 0)
      · exact hup
      · exact hdown
    rw [hscientific]
    cases negative <;> decide +kernel
  · obtain ⟨b, hb, -, hvalue⟩ := Binary.exists_ofScientific_eq_of_lt hpos hlt hk
    rw [hvalue]
    cases negative
    · exact hb.isFinite_toFloat .positive
    · rw [if_pos rfl, hb.neg_toFloat]
      exact hb.isFinite_toFloat _

end TrustBoundary
