import Mathlib
import TrustBoundary.Proofs.Decimal.Shortest

/-!
# Doubles and their bits

A finite double other than zero is packed from its sign and from the significand and the exponent
that `Binary.ofFloat` takes out of its bits (`eq_toFloat`), and unpacking gives these back
(`Binary.IsDouble.unpack_toFloat`).
-/

namespace TrustBoundary

open Float.Model Float.Model.UnpackedFloat

/-! ### Parts of the bits -/

section

variable {s : Sign} {e : BitVec 11} {m : BitVec 52}

theorem toNat_append_eq {k l : ℕ} (x : BitVec k) (y : BitVec l) :
    (x ++ y).toNat = x.toNat * 2 ^ l + y.toNat := by
  rw [BitVec.toNat_append, ← Nat.shiftLeft_add_eq_or_of_lt y.isLt, Nat.shiftLeft_eq]

theorem toNat_packComponents (s : Sign) (e : BitVec 11) (m : BitVec 52) :
    (packComponents Format.binary64 s e m).toNat =
      s.toBitVec.toNat * 9223372036854775808 + e.toNat * 4503599627370496 + m.toNat := by
  refine (toNat_append_eq (s.toBitVec ++ e) m).trans ?_
  rw [toNat_append_eq]
  omega

theorem toNat_unpackMantissa (b : BitVec 64) :
    (@unpackMantissa Format.binary64 b).toNat = b.toNat % 4503599627370496 := by
  simp [unpackMantissa]

theorem toNat_unpackExponent (b : BitVec 64) :
    (@unpackExponent Format.binary64 b).toNat = b.toNat / 4503599627370496 % 2048 := by
  simp [unpackExponent, Nat.shiftRight_eq_div_pow]

theorem toNat_unpackSign (b : BitVec 64) :
    (@unpackSign Format.binary64 b).toNat = b.toNat / 9223372036854775808 := by
  have := b.isLt
  simp [unpackSign, Nat.shiftRight_eq_div_pow]
  omega

theorem ofBitVec_toBitVec (s : Sign) : Sign.ofBitVec s.toBitVec = s := by
  cases s <;> rfl

theorem toBitVec_ofBitVec (b : BitVec 1) : (Sign.ofBitVec b).toBitVec = b := by
  obtain rfl | rfl := BitVec.eq_zero_or_eq_one b <;> rfl

theorem unpackSign_packComponents (s : Sign) (e : BitVec 11) (m : BitVec 52) :
    unpackSign (packComponents Format.binary64 s e m) = s.toBitVec := by
  refine BitVec.eq_of_toNat_eq ((toNat_unpackSign _).trans ?_)
  rw [toNat_packComponents]
  omega

/-- Bits are packed from their parts. -/
theorem packComponents_unpack (b : BitVec 64) :
    packComponents Format.binary64 (.ofBitVec (@unpackSign Format.binary64 b))
      (@unpackExponent Format.binary64 b) (@unpackMantissa Format.binary64 b) = b := by
  refine BitVec.eq_of_toNat_eq ((toNat_packComponents _ _ _).trans ?_)
  rw [toBitVec_ofBitVec, toNat_unpackSign, toNat_unpackExponent, toNat_unpackMantissa]
  omega

/-- Unpacking with an exponent that is neither all zeros nor all ones. -/
theorem unpack_packComponents_normal {significand : ℕ} {exponent : ℤ} (hpos : 0 < significand)
    (hlow : 0 < e.toNat) (hhigh : e.toNat < 2047)
    (hsignificand : significand = 4503599627370496 + m.toNat)
    (hexponent : exponent = e.toNat - 1075) :
    UnpackedFloat.unpack Format.binary64 (packComponents Format.binary64 s e m) =
      .finite s significand exponent hpos := by
  subst hsignificand hexponent
  have hones : e ≠ -1#11 := by
    rintro rfl
    exact absurd hhigh (by decide)
  have hzeros : e ≠ 0#11 := by
    rintro rfl
    exact absurd hlow (by decide)
  have hfull : (1#1 ++ m).toNat = 4503599627370496 + m.toNat := by
    rw [toNat_append_eq]
    rfl
  unfold UnpackedFloat.unpack
  simp only [unpackMantissa_packComponents, unpackExponent_packComponents,
    unpackSign_packComponents, ofBitVec_toBitVec, hones, hzeros, if_false, hfull]
  rfl

/-- Unpacking with an exponent of zeros. -/
theorem unpack_packComponents_smallest {significand : ℕ} (hpos : 0 < significand)
    (hsignificand : significand = m.toNat) :
    UnpackedFloat.unpack Format.binary64 (packComponents Format.binary64 s 0#11 m) =
      .finite s significand (-1074) hpos := by
  subst hsignificand
  have hzero : m ≠ 0#52 := by
    rintro rfl
    exact absurd hpos (by decide)
  unfold UnpackedFloat.unpack
  simp only [unpackMantissa_packComponents, unpackExponent_packComponents,
    unpackSign_packComponents, ofBitVec_toBitVec, hzero, dif_neg, not_false_iff]
  rfl

/-- What has an exponent of ones is not finite. -/
theorem isFinite_unpack_packComponents_ones :
    (UnpackedFloat.unpack Format.binary64
      (packComponents Format.binary64 s (-1#11) m)).isFinite = false := by
  unfold UnpackedFloat.unpack
  simp only [unpackMantissa_packComponents, unpackExponent_packComponents, if_true]
  split <;> rfl

end

/-! ### Finite doubles -/

namespace Binary

variable {b : Binary}

/-- The double with the magnitude of `b`. -/
def IsDouble.toFloat (h : b.IsDouble) (s : Sign) : Float :=
  .ofModel (.pack (.finite s b.significand b.exponent h.significand_pos))

/-- A double is packed into its sign, its exponent and its significand without the first bit if that
has its full length, and into its sign and its significand otherwise. -/
theorem IsDouble.pack_eq (h : b.IsDouble) (s : Sign) :
    pack Format.binary64 (.finite s b.significand b.exponent h.significand_pos) =
      packComponents Format.binary64 s
        (.ofNat 11 (if b.significand < 4503599627370496 then 0 else (b.exponent + 1075).toNat))
        (.ofNat 52 b.significand) := by
  have hne := h.significand_pos.ne'
  have hlog : b.significand.log2 < 53 := (Nat.log2_lt hne).2 h.significand_lt
  -- the significand has its full length exactly if its first bit is set
  have hfull : b.significand.log2 + 1 = Format.binary64.mantissaBits ↔
      ¬ b.significand < 4503599627370496 := by
    have := Nat.le_log2 (k := 52) hne
    change b.significand.log2 + 1 = 53 ↔ _
    omega
  have hbias : b.exponent + (Format.binary64.exponentBias : ℕ) + (52 : ℕ) = b.exponent + 1075 := by
    change b.exponent + 1023 + 52 = _
    ring
  have hle := h.le_exponent
  have hge := h.exponent_le
  unfold UnpackedFloat.pack
  dsimp only
  rw [hbias, if_neg (by omega), if_congr hfull rfl rfl]
  by_cases hshort : b.significand < 4503599627370496
  · rw [if_neg (not_not.2 hshort), if_pos hshort]
  · rw [if_pos hshort, if_neg hshort]

/-- Unpacking a double gives back what it is packed from. -/
theorem IsDouble.unpack_toFloat (h : b.IsDouble) (s : Sign) :
    (h.toFloat s).toModel.unpack =
      .finite s b.significand b.exponent h.significand_pos := by
  change UnpackedFloat.unpack Format.binary64 (pack Format.binary64 _) = _
  rw [h.pack_eq]
  have hlt := h.significand_lt
  by_cases hshort : b.significand < 4503599627370496
  · -- without the first bit the exponent is the smallest
    have hsmallest := h.isNormal_or_smallest.resolve_left (by omega)
    simp only [hsmallest, if_pos hshort]
    refine unpack_packComponents_smallest h.significand_pos ?_
    rw [BitVec.toNat_ofNat]
    omega
  · have hle := h.le_exponent
    have hge := h.exponent_le
    rw [if_neg hshort]
    refine unpack_packComponents_normal h.significand_pos ?_ ?_ ?_ ?_ <;>
      rw [BitVec.toNat_ofNat] <;> omega

theorem IsDouble.isInf_toFloat (h : b.IsDouble) (s : Sign) :
    (h.toFloat s).isInf = false := by
  change (h.toFloat s).toModel.unpack.isInf = false
  rw [h.unpack_toFloat]
  rfl

theorem IsDouble.isFinite_toFloat (h : b.IsDouble) (s : Sign) :
    (h.toFloat s).isFinite = true := by
  change (h.toFloat s).toModel.unpack.isFinite = true
  rw [h.unpack_toFloat]
  rfl

theorem IsDouble.neg_toFloat (h : b.IsDouble) (s : Sign) :
    -h.toFloat s = h.toFloat (-s) := by
  change Float.ofModel (.pack (h.toFloat s).toModel.unpack.neg) = _
  rw [h.unpack_toFloat]
  rfl

end Binary

theorem eq_of_toBits_eq {x y : Float} (h : x.toBits = y.toBits) : x = y := by
  obtain ⟨⟨bits, hx⟩⟩ := x
  obtain ⟨⟨bits', hy⟩⟩ := y
  obtain rfl : bits = bits' := h
  rfl

/-- The sign in the bits of a double. -/
def signBit (x : Float) : Sign := .ofBitVec (@unpackSign Format.binary64 x.toBits.toBitVec)

theorem signBit_eq (x : Float) :
    signBit x = if x.toBits.toNat < 9223372036854775808 then .positive else .negative := by
  have hsign := toNat_unpackSign x.toBits.toBitVec
  change _ = x.toBits.toNat / 9223372036854775808 at hsign
  unfold signBit
  obtain hbit | hbit := BitVec.eq_zero_or_eq_one
    (@unpackSign Format.binary64 x.toBits.toBitVec) <;> rw [hbit] at hsign ⊢
  · change 0 = _ at hsign
    rw [if_pos (by omega)]
    rfl
  · change 1 = _ at hsign
    rw [if_neg (by omega)]
    rfl

/-- The exponent and the fraction in the bits of a double are what its magnitude is made of. -/
theorem parts_ofFloat (x : Float) {e : BitVec 11} {m : BitVec 52}
    (he : @unpackExponent Format.binary64 x.toBits.toBitVec = e)
    (hm : @unpackMantissa Format.binary64 x.toBits.toBitVec = m) :
    e.toNat = 0 ∧ (Binary.ofFloat x).significand = m.toNat ∧
        (Binary.ofFloat x).exponent = -1074 ∨
      e.toNat ≠ 0 ∧ (Binary.ofFloat x).significand = 4503599627370496 + m.toNat ∧
        (Binary.ofFloat x).exponent = e.toNat - 1075 := by
  rw [← he, ← hm, toNat_unpackExponent, toNat_unpackMantissa]
  unfold Binary.ofFloat
  dsimp only
  split
  next hzero => exact .inl ⟨hzero, rfl, rfl⟩
  next hne => exact .inr ⟨hne, rfl, rfl⟩

/-- A double of which the magnitude is zero is one of the two zeros. -/
theorem eq_zero_of_significand_eq_zero {x : Float} (h : (Binary.ofFloat x).significand = 0) :
    x = .ofBits 0 ∨ x = .ofBits 0x8000000000000000 := by
  have hlt : x.toBits.toNat < 18446744073709551616 := x.toBits.toNat_lt
  have hbits : x.toBits.toNat = 0 ∨ x.toBits.toNat = 0x8000000000000000 := by
    unfold Binary.ofFloat at h
    dsimp only at h
    split at h <;> dsimp only at h <;> omega
  refine hbits.imp (fun hzero => eq_of_toBits_eq ?_) (fun hzero => eq_of_toBits_eq ?_) <;>
    exact UInt64.toNat_inj.1 hzero

/-- The magnitude of a finite double other than zero. -/
theorem isDouble_ofFloat {x : Float} (hfinite : x.isFinite = true)
    (hne : (Binary.ofFloat x).significand ≠ 0) : (Binary.ofFloat x).IsDouble := by
  -- an exponent of ones is that of an infinity or of no number
  have hones : @unpackExponent Format.binary64 x.toBits.toBitVec ≠ -1#11 := by
    intro hones
    have hinf : (UnpackedFloat.unpack Format.binary64 x.toBits.toBitVec).isFinite = false := by
      rw [← packComponents_unpack x.toBits.toBitVec, hones, isFinite_unpack_packComponents_ones]
    exact Bool.noConfusion (hfinite.symm.trans hinf)
  have hbiased : x.toBits.toNat / 4503599627370496 % 2048 ≠ 2047 := by
    have hne' : (@unpackExponent Format.binary64 x.toBits.toBitVec).toNat ≠ 2047 :=
      fun h => hones (BitVec.eq_of_toNat_eq h)
    rw [toNat_unpackExponent] at hne'
    exact hne'
  unfold Binary.ofFloat at hne ⊢
  dsimp only at hne ⊢
  generalize x.toBits.toNat = bits at hbiased hne ⊢
  rw [Int.ofNat_eq_natCast] at *
  split at hne
  next hsmall =>
    rw [if_pos hsmall]
    exact ⟨Nat.pos_of_ne_zero hne, by dsimp only; omega, le_rfl, by dsimp only; omega, .inr rfl,
      by simp⟩
  next hlarge =>
    rw [if_neg hlarge]
    refine ⟨?_, ?_, ?_, ?_, .inl ?_, ?_⟩ <;> dsimp only
    case refine_6 =>
      rw [Bool.and_eq_true, beq_iff_eq, decide_eq_true_iff]
      omega
    all_goals omega

/-- A finite double other than zero is packed from its parts. -/
theorem eq_toFloat {x : Float} (h : (Binary.ofFloat x).IsDouble) : x = h.toFloat (signBit x) := by
  have hbits := packComponents_unpack x.toBits.toBitVec
  generalize he : @unpackExponent Format.binary64 x.toBits.toBitVec = e at hbits
  generalize hm : @unpackMantissa Format.binary64 x.toBits.toBitVec = m at hbits
  have hparts := parts_ofFloat x he hm
  generalize Binary.ofFloat x = b at h hparts
  have hfraction : m.toNat < 4503599627370496 := m.isLt
  have hbiased : e.toNat < 2048 := e.isLt
  refine eq_of_toBits_eq (UInt64.toBitVec_inj.1 ?_)
  change x.toBits.toBitVec = UnpackedFloat.pack Format.binary64
    (.finite (signBit x) b.significand b.exponent h.significand_pos)
  rw [h.pack_eq, ← hbits]
  congr 1
  · -- the exponent
    refine BitVec.eq_of_toNat_eq ?_
    rw [BitVec.toNat_ofNat]
    change e.toNat = _ % 2048
    split <;> omega
  · -- the fraction
    refine BitVec.eq_of_toNat_eq ?_
    rw [BitVec.toNat_ofNat]
    change m.toNat = _ % 4503599627370496
    omega

end TrustBoundary
