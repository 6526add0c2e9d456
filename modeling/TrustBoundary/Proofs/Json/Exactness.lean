import TrustBoundary.Proofs.Decimal.SignedNumeral
import TrustBoundary.Proofs.Json.Scaling
import TrustBoundary.Proofs.Json.Whole

/-!
# Which numerals are read exactly

A reader of JSON rounds the digits of a numeral, and then their product or quotient with a power of
ten.  If the digits fit 64 bits and one of the two steps rounds nothing (`Numeral.RoundsOnce`), the
number that is read is the double nearest to the numeral (`readNumeral_of_roundsOnce`).  That is so
for whole numbers of 64 bits, and for fifteen digits with a point anywhere among them.
-/

namespace TrustBoundary

/-- Whether the digits of a numeral fit 64 bits and are rounded only once, with the power of ten
that belongs to them. -/
structure Numeral.RoundsOnce (n : Numeral) : Prop where
  significand_lt : n.significand < 0x10000000000000000
  magnitude_le : ∀ e ∈ n.exponent, e.magnitude ≤ Json.exponentLimit
  place_eq_zero_or : n.place = 0 ∨ n.significand < 9007199254740992 ∧ n.place.natAbs ≤ 22

theorem Numeral.RoundsOnce.natAbs_place_le {n : Numeral} (h : n.RoundsOnce) :
    n.place.natAbs ≤ 22 := by
  obtain hplace | ⟨-, hplace⟩ := h.place_eq_zero_or
  · omega
  · exact hplace

namespace Json

open Numeral Float.Model

variable {rest : List Char} {m : ℕ} {k : ℤ} {n : SignedNumeral}

/-! ### Scaling -/

/-- A product with one is exact. -/
theorem toFloat_mul_powerOfTen_zero {b : Binary} (h : b.IsDouble) :
    h.toFloat .positive * powerOfTen 0 = h.toFloat .positive := by
  obtain ⟨d, hd, hfull, hvalue⟩ := exists_isDouble one_pos (by norm_num)
  have hone : powerOfTen 0 = hd.toFloat .positive := by
    rw [← hd.toFloat_toUInt64 one_pos (by norm_num) (hvalue ▸ d.attracts_value)]
    decide +kernel
  -- a double attracts itself
  have hattracts : b.Attracts (b.value * d.value) := by
    rw [hvalue, Nat.cast_one, mul_one]
    exact b.attracts_value
  rw [hone, h.toFloat_mul hd h hattracts
    (hfull.trans (Nat.le_mul_of_pos_left _ h.significand_pos))]
  rfl

/-- Without a power of ten, only the digits are rounded. -/
theorem scaled?_zero_right {b : Binary} (h : b.IsDouble) (hpos : 0 < m)
    (hlt : m < 18446744073709551616) (hv : b.Attracts m) :
    scaled? m 0 = some (h.toFloat .positive) := by
  unfold scaled?
  dsimp only
  rw [if_pos le_rfl, if_pos (by norm_num), Int.toNat_zero, h.toFloat_toUInt64 hpos hlt hv,
    toFloat_mul_powerOfTen_zero h, if_neg (Bool.eq_false_iff.1 (h.isInf_toFloat _))]

theorem scaled?_zero_left : ∀ k : Fin 23,
    scaled? 0 k = some (.ofBits 0) ∧ scaled? 0 (-(k : ℤ)) = some (.ofBits 0) := by
  decide +kernel

/-- Where one of the two steps rounds nothing, the double nearest to the decimal is read. -/
theorem scaled?_eq_ofScientific (hlt : m < 0x10000000000000000)
    (h : k = 0 ∨ m < 9007199254740992 ∧ k.natAbs ≤ 22) :
    scaled? m k = some (Float.ofScientific m (k < 0) k.natAbs) := by
  have hk : k.natAbs ≤ 22 := by
    obtain hk | ⟨-, hk⟩ := h
    · omega
    · exact hk
  obtain rfl | hpos := Nat.eq_zero_or_pos m
  · -- zero, by a table of the powers of ten
    obtain ⟨hup, hdown⟩ := scaled?_zero_left ⟨k.natAbs, by omega⟩
    obtain ⟨hzero, hzero'⟩ := ofScientific_zero ⟨k.natAbs, by omega⟩
    dsimp only at hup hdown hzero hzero'
    by_cases hneg : k < 0
    · rw [decide_eq_true hneg, hzero', ← hdown]
      congr
      omega
    · rw [decide_eq_false hneg, hzero, ← hup]
      congr
      omega
  · obtain ⟨b, hb, hv, hvalue⟩ := Binary.exists_ofScientific_eq_of_lt hpos hlt hk
    rw [hvalue]
    obtain rfl | ⟨hdigits, -⟩ := h
    · -- the digits are rounded, and the product with one is exact
      rw [zpow_zero, mul_one] at hv
      exact scaled?_zero_right hb hpos hlt hv
    · -- the digits are exact, and their product or quotient is rounded
      exact scaled?_eq_some hb hpos hdigits (by omega) (by omega) hv

/-! ### Numerals -/

theorem toFloat_of_ofInt? {z : ℤ} {x : Number} (h : Number.ofInt? z = some x) :
    x.toFloat = Float.ofInt z := by
  unfold Number.ofInt? at h
  split at h
  · rw [← Option.some.inj h, Number.toFloat]
  · cases h

/-- A number is a finite double. -/
theorem Number.isFinite_toFloat (x : Number) : x.toFloat.isFinite = true := by
  cases x with
  | float x hfinite => exact hfinite
  | whole z hz =>
    cases z with
    | ofNat m =>
      -- a whole number is rounded as a decimal without an exponent
      have hlt : (m : ℤ) < 0x10000000000000000 := hz.2
      exact isFinite_ofScientific (k := 0) false (by omega) (by decide)
    | negSucc m => exact isFinite_ofScientific (k := 0) true (m := m + 1) (by omega) (by decide)

variable (h : n.numeral.RoundsOnce)
include h

/-- The number that is read for such a numeral is the nearest double. -/
theorem scaledNumber_eq_value (rest : List Char) :
    ∃ x : Number, scaledNumber n.isNegative n.numeral.significand n.numeral.place rest =
      .ok (x, rest) ∧ x.toFloat = n.value := by
  have hfinite := n.isFinite_value h.significand_lt h.natAbs_place_le
  refine ⟨.float n.value hfinite, ?_, rfl⟩
  have hsigned : signed? n.isNegative
      (.ofScientific n.numeral.significand (n.numeral.place < 0) n.numeral.place.natAbs) =
        some (.float n.value hfinite) := by
    rw [signed?, ← n.value_eq, Number.ofFloat?, dif_pos hfinite]
  rw [scaledNumber, scaled?_eq_ofScientific h.significand_lt h.place_eq_zero_or, Option.bind_some,
    hsigned]

/-- Digits alone are read as a whole number or as a double. -/
theorem plainNumber_eq_value (hplace : n.numeral.place = 0) (rest : List Char) :
    ∃ x : Number, plainNumber n.isNegative n.numeral.significand 0 rest = .ok (x, rest) ∧
      x.toFloat = n.value := by
  have hscaled := scaledNumber_eq_value h rest
  rw [hplace] at hscaled
  have hvalue := n.value_eq
  rw [hplace] at hvalue
  unfold plainNumber
  dsimp only
  split
  next x hx =>
    obtain ⟨⟨-, hsign⟩, hx⟩ := Option.ite_none_right_eq_some.1 hx
    refine ⟨x, rfl, ?_⟩
    rw [toFloat_of_ofInt? hx, hvalue]
    cases hnegative : n.isNegative with
    | false => rfl
    | true =>
      -- the negative zero is no whole number
      obtain ⟨m, hm⟩ := Nat.exists_eq_succ_of_ne_zero (hsign hnegative)
      rw [hm]
      rfl
  next => exact hscaled

/-- The double nearest to such a numeral is read, as a whole number where it is one. -/
theorem readNumeral_of_roundsOnce (hzero : n.numeral.hasNeedlessZero = false)
    (hrest : EndsBefore rest) :
    ∃ x : Number, readNumeral n.isNegative (n.numeral.text ++ rest) = .ok (x, rest) ∧
      x.toFloat = n.value := by
  by_cases hplain : n.numeral.fraction = [] ∧ n.numeral.exponent = none
  · obtain ⟨hfraction, hexponent⟩ := hplain
    -- digits alone
    have hplace : n.numeral.place = 0 := by
      rw [place, hfraction, hexponent]
      rfl
    rw [readNumeral_whole hzero h.significand_lt hfraction hexponent hrest]
    exact plainNumber_eq_value h hplace rest
  · -- a fraction or an exponent
    rw [not_and_or] at hplain
    rw [readNumeral_text ⟨hzero, h.significand_lt, h.magnitude_le, hplain⟩ hrest]
    exact scaledNumber_eq_value h rest

end Json

end TrustBoundary
