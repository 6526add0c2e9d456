import TrustBoundary.Proofs.Json.Scalars
import TrustBoundary.Steps

/-!
# Whole numbers are read as they are printed

A whole number of 64 bits, signed or unsigned, is printed in decimal digits behind a minus sign if
it is negative (`Number.wholeText`).  All of its digits find room when they are collected, so that
it is not taken for a double, and a reader gives just that number (`readsNumeral_wholeText`); only
the zero is never written with a sign.
-/

namespace TrustBoundary.Json

open Numeral

variable {rest : List Char} {n : ℤ}

/-- The digits of a numeral without fraction and exponent are collected up to what is no digit. -/
theorem readNumeral_whole {n : Numeral} (hzero : n.hasNeedlessZero = false)
    (hfits : n.significand < 0x10000000000000000) (hfraction : n.fraction = [])
    (hexponent : n.exponent = none) (hrest : EndsBefore rest) (negative : Bool) :
    readNumeral negative (n.text ++ rest) = plainNumber negative n.significand 0 rest := by
  obtain ⟨whole, _, _, hne, hdigits, _⟩ := n
  dsimp only at hfraction hexponent
  obtain ⟨c, digits, rfl⟩ := List.exists_cons_of_ne_nil hne
  subst hfraction hexponent
  have hlone : c = '0' → digits = [] := eq_nil_of_hasNeedlessZero hzero rfl
  rw [significand, List.append_nil] at hfits ⊢
  obtain ⟨hneedless, hcollect⟩ := collect_digits hlone
    (fun d hd => hdigits d (List.mem_cons_of_mem c hd)) hrest.head?_any_isDigit hfits
  have htext : c :: digits ++ (fractionText [] ++ Option.elim none [] Exponent.text) ++ rest =
      c :: (digits ++ rest) := by simp [fractionText]
  rw [text, htext, readNumeral, if_pos (hdigits c List.mem_cons_self), if_neg hneedless, hcollect]
  dsimp only
  -- neither a fraction nor an exponent follows
  split
  next => exact absurd rfl (hrest.head_ne rfl).1
  next => exact absurd rfl (hrest.head_ne rfl).2.1
  next => exact absurd rfl (hrest.head_ne rfl).2.2
  next => rfl

/-- The decimal digits of a natural number are a numeral without fraction and exponent.  No digit
stands behind a zero in front, because only zero itself is written with one. -/
theorem exists_numeral_toDigits (m : ℕ) :
    ∃ n : Numeral, n.text = Nat.toDigits 10 m ∧ n.hasNeedlessZero = false ∧ n.significand = m ∧
      n.fraction = [] ∧ n.exponent = none := by
  refine ⟨⟨Nat.toDigits 10 m, [], none, Nat.toDigits_ne_nil, Decimal.isDigit_toDigits,
    fun _ hc => absurd hc List.not_mem_nil⟩, ?_, ?_, ?_, rfl, rfl⟩
  · simp [Numeral.text, fractionText]
  · rcases Nat.eq_zero_or_pos m with rfl | hpos
    · rfl
    · rw [hasNeedlessZero, Bool.and_eq_false_iff]
      exact .inl (beq_eq_false_iff_ne.2 (Decimal.head?_toDigits_ne hpos))
  · rw [significand, List.append_nil, Nat.ofDigitChars_ten_toDigits]

/-- The digits of a natural number of 64 bits are collected up to what is no digit. -/
theorem readNumeral_toDigits (negative : Bool) {m : ℕ} (h : m < 0x10000000000000000)
    (hrest : EndsBefore rest) :
    readNumeral negative (Nat.toDigits 10 m ++ rest) = plainNumber negative m 0 rest := by
  obtain ⟨n, htext, hzero, hvalue, hfraction, hexponent⟩ := exists_numeral_toDigits m
  have hread := readNumeral_whole hzero (hvalue.symm ▸ h) hfraction hexponent hrest negative
  rwa [hvalue, htext] at hread

/-- Digits that all found room are a whole number, if there is no sign before a zero. -/
theorem plainNumber_eq_whole (h : -0x8000000000000000 ≤ n ∧ n < 0x10000000000000000) :
    plainNumber (decide (n < 0)) n.natAbs 0 rest = .ok (.whole n h, rest) := by
  have hvalue : (if decide (n < 0) = true then -(n.natAbs : ℤ) else n.natAbs) = n := by
    simp only [decide_eq_true_eq]
    split <;> omega
  -- zero has no sign, which would make it a double
  have hsign : (0 : ℕ) = 0 ∧ (decide (n < 0) = true → n.natAbs ≠ 0) := by
    refine ⟨rfl, ?_⟩
    simp only [decide_eq_true_eq]
    omega
  unfold plainNumber
  dsimp only
  rw [hvalue, if_pos hsign, Number.ofInt?, dif_pos h]

/-- A whole number is read from its text. -/
theorem readsNumeral_wholeText (h : -0x8000000000000000 ≤ n ∧ n < 0x10000000000000000)
    (hrest : EndsBefore rest) :
    ReadsNumeral (Number.wholeText n ++ rest) (.ok (.whole n h, rest)) := by
  have hread := readNumeral_toDigits (decide (n < 0)) (m := n.natAbs) (by omega) hrest
  rw [plainNumber_eq_whole h] at hread
  unfold Number.wholeText
  split
  next hneg =>
    left
    rw [decide_eq_true hneg] at hread
    exact ⟨_, rfl, hread⟩
  next hnonneg =>
    right
    -- without a sign the text begins with a digit
    rw [decide_eq_false hnonneg] at hread
    obtain ⟨c, digits, hdigits⟩ :=
      List.exists_cons_of_ne_nil (Nat.toDigits_ne_nil (n := n.natAbs) (b := 10))
    have hdigit : c.isDigit = true :=
      Decimal.isDigit_toDigits c (hdigits ▸ List.mem_cons_self)
    rw [hdigits, List.cons_append] at hread ⊢
    exact ⟨c, digits ++ rest, rfl, hdigit, hread⟩

namespace Value

theorem reads_whole (depth : Nat) (h : -0x8000000000000000 ≤ n ∧ n < 0x10000000000000000) :
    (decoder depth).Reads (.number (.whole n h)) (.number (.whole n h)) := by
  intro rest hrest
  have hreads := readsNumeral_wholeText h hrest
  rw [chars, Number.text]
  cases depth with
  | zero => exact hreads.decoderWith_eq none
  | succ depth => exact hreads.decoderWith_eq (some (decoder depth))

theorem reads_bool (depth : Nat) (b : Bool) : (decoder depth).Reads (.bool b) (.bool b) := by
  intro rest hrest
  cases depth <;> cases b <;> rfl

end Value

/-! ### Readers of one type -/

theorem reads_naturalDecoder {m bound : ℕ} (expected : String) (hm : m < bound)
    (h : -0x8000000000000000 ≤ (m : ℤ) ∧ (m : ℤ) < 0x10000000000000000) :
    (naturalDecoder bound expected).Reads (.number (.whole m h)) m := by
  intro rest hrest
  have hread : numberDecoder expected (Number.wholeText m ++ rest) = .ok (.whole m h, rest) :=
    (readsNumeral_wholeText h hrest).numberDecoder_eq expected
  have hbound : 0 ≤ (m : ℤ) ∧ (m : ℤ) < bound := ⟨Int.natCast_nonneg m, Int.ofNat_lt.2 hm⟩
  rw [Value.chars, Number.text]
  refine bind_eq_ok_iff.2 ⟨_, hread, ?_⟩
  dsimp only
  rw [if_pos hbound]
  rfl

theorem reads_uint32Decoder (n : UInt32) : uint32Decoder.Reads (.ofUInt32 n) n := by
  have hlt := n.toNat_lt
  have hread := (reads_naturalDecoder "u32" hlt (by omega)).map Nat.toUInt32
  rwa [Nat.toUInt32_eq, UInt32.ofNat_toNat] at hread

theorem reads_sizeDecoder (n : UInt64) : sizeDecoder.Reads (.ofUInt64 n) n := by
  have hlt := n.toNat_lt
  have hread := (reads_naturalDecoder "usize" hlt (by omega)).map Nat.toUInt64
  rwa [Nat.toUInt64_eq, UInt64.ofNat_toNat] at hread

theorem reads_boolDecoder (b : Bool) : boolDecoder.Reads (.bool b) b := by
  intro rest hrest
  cases b <;> rfl

end TrustBoundary.Json
