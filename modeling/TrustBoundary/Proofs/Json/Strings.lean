import TrustBoundary.Json.Printer
import TrustBoundary.Json.Quotation

/-!
# Strings are read as they are written

A reader takes every character of a string back from what is written for it, one after the other
(`readChars_escapedChar`), and stops at the quotation mark that ends the string and at no other
(`readString_escaped`).
-/

namespace TrustBoundary.Json

/-! ### Escapes -/

theorem hexValue?_hexDigit {n : Nat} (h : n < 16) : hexValue? (hexDigit n) = some n := by
  have hall : ∀ n : Fin 16, hexValue? (hexDigit n) = some n.val := by decide
  exact hall ⟨n, h⟩

/-- The escape of a control character writes its number. -/
theorem unit?_of_lt {n : Nat} (h : n < 32) :
    unit? '0' '0' (hexDigit (n / 16)) (hexDigit (n % 16)) = some n := by
  have hhigh : hexValue? (hexDigit (n / 16)) = some (n / 16) := hexValue?_hexDigit (by omega)
  have hlow : hexValue? (hexDigit (n % 16)) = some (n % 16) :=
    hexValue?_hexDigit (Nat.mod_lt n (by decide))
  have hzero : hexValue? '0' = some 0 := rfl
  simp only [unit?, hhigh, hlow, hzero, Option.bind_eq_bind, Option.bind_some, Option.pure_def,
    Option.some.injEq]
  omega

/-- A character is written in one of three ways: as it is, as a backslash and a letter, or as a
backslash and its number. -/
theorem escapedChar_cases (c : Char) :
    (escapedChar c = [c] ∧ c ≠ '"' ∧ c ≠ '\\' ∧ ¬ c.toNat < 32) ∨
    (∃ letter, escapedChar c = ['\\', letter] ∧ unescaped? letter = some c) ∨
    (escapedChar c = ['\\', 'u', '0', '0', hexDigit (c.toNat / 16), hexDigit (c.toNat % 16)] ∧
      c.toNat < 32) := by
  unfold escapedChar
  split
  case h_8 _ hquote hslash _ _ _ _ _ =>
    -- no letter is kept for the character
    by_cases hcontrol : c.toNat < 32
    · exact .inr (.inr ⟨if_pos hcontrol, hcontrol⟩)
    · exact .inl ⟨if_neg hcontrol, hquote, hslash, hcontrol⟩
  all_goals exact .inr (.inl ⟨_, rfl, rfl⟩)

/-! ### Reading -/

section

variable {c : Char} {rest : List Char}

/-- A character that needs no escape is read as it is. -/
theorem readChars_cons (read : List Char) (hquote : c ≠ '"') (hslash : c ≠ '\\')
    (hcontrol : ¬ c.toNat < 32) :
    readChars read none (c :: rest) = readChars (c :: read) none rest := by
  rw [readChars.eq_def]
  simp only [if_neg hquote, if_neg hslash, if_neg hcontrol]

/-- A backslash and a letter are read as the character that they write. -/
theorem readChars_letter (read : List Char) {letter : Char} (h : unescaped? letter = some c) :
    readChars read none ('\\' :: letter :: rest) = readChars (c :: read) none rest := by
  -- the letter is none that numbers follow
  have hu : letter ≠ 'u' := by
    rintro rfl
    cases h
  rw [readChars.eq_def]
  dsimp only
  rw [if_neg (by decide), if_pos rfl]
  split
  case h_4 letter' _ _ _ heq =>
    obtain ⟨rfl, rfl⟩ := List.cons.inj heq
    rw [h]
  all_goals simp_all

/-- A control character is read from its number. -/
theorem readChars_unit (read : List Char) (h : c.toNat < 32) :
    readChars read none
      ('\\' :: 'u' :: '0' :: '0' :: hexDigit (c.toNat / 16) :: hexDigit (c.toNat % 16) :: rest) =
      readChars (c :: read) none rest := by
  -- a control character is no half of a pair
  have hlow : isLowSurrogate c.toNat = false := by
    simp only [isLowSurrogate, Bool.and_eq_false_iff, decide_eq_false_iff_not]
    omega
  have hhigh : isHighSurrogate c.toNat = false := by
    simp only [isHighSurrogate, Bool.and_eq_false_iff, decide_eq_false_iff_not]
    omega
  rw [readChars, if_neg (by decide), if_pos rfl, unit?_of_lt h]
  dsimp only
  rw [hlow, hhigh, if_neg Bool.false_ne_true, if_neg Bool.false_ne_true, Char.ofNat_toNat]

/-- What is written for a character is read as that character. -/
theorem readChars_escapedChar (read : List Char) :
    readChars read none (escapedChar c ++ rest) = readChars (c :: read) none rest := by
  obtain ⟨hc, hquote, hslash, hcontrol⟩ | ⟨letter, hc, hletter⟩ | ⟨hc, hlt⟩ := escapedChar_cases c
  · rw [hc]
    exact readChars_cons read hquote hslash hcontrol
  · rw [hc]
    exact readChars_letter read hletter
  · rw [hc]
    exact readChars_unit read hlt

end

theorem readChars_escaped (read content rest : List Char) :
    readChars read none (content.flatMap escapedChar ++ '"' :: rest) =
      .ok (read.reverse ++ content, rest) := by
  induction content generalizing read with
  | nil =>
    rw [List.append_nil, List.flatMap_nil, List.nil_append, readChars.eq_def]
    rfl
  | cons c content ih =>
    rw [List.flatMap_cons, List.append_assoc, readChars_escapedChar, ih, List.reverse_cons,
      List.append_assoc]
    rfl

/-- A string is read up to the quotation mark that ends it, as it was written. -/
theorem readString_escaped (s : String) (rest : List Char) :
    readString (s.toList.flatMap escapedChar ++ '"' :: rest) = .ok (s, rest) := by
  rw [readString, readChars_escaped]
  simp [bind, Except.bind, pure, Except.pure]

end TrustBoundary.Json
