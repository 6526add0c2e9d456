import TrustBoundary.Proofs.Decimal.Reading
import TrustBoundary.Proofs.Double.Range
import TrustBoundary.Risk.Extraction

/-!
# Numerals with a sign

The search for an amount splits a numeral off a text at full length, with a minus sign in front of
it if there is one.  What is split off is a numeral (`exists_of_takeNumeral?`), all of it if what
follows does not go on like one (`SignedNumeral.takeNumeral?_text`), and it is read as the double
nearest to it (`SignedNumeral.readDecimal?_text`).
-/

namespace TrustBoundary

open Numeral

variable {cs rest : List Char}

/-! ### Numerals with a sign -/

/-- A numeral with a minus sign or without a sign. -/
structure SignedNumeral where
  isNegative : Bool
  numeral : Numeral

namespace SignedNumeral

/-- The sign of a numeral. -/
def sign (n : SignedNumeral) : List Char := if n.isNegative then ['-'] else []

/-- The text of a numeral with its sign. -/
def text (n : SignedNumeral) : List Char := n.sign ++ n.numeral.text

/-- The double nearest to a numeral. -/
def value (n : SignedNumeral) : Float :=
  Decimal.nearest n.isNegative n.numeral.whole n.numeral.fraction
    (n.numeral.exponent.elim 0 Exponent.value)

theorem sign_cases (n : SignedNumeral) : n.sign = [] ∨ n.sign = ['-'] := by
  rw [sign]
  split
  · exact .inr rfl
  · exact .inl rfl

theorem isNegative_eq (n : SignedNumeral) : (n.sign == ['-']) = n.isNegative := by
  rw [sign]
  cases n.isNegative
  · rfl
  · rfl

end SignedNumeral

/-- Whether a character may stand in a numeral. -/
def isNumeralChar (c : Char) : Bool := goesOnWith c || c == '+' || c == '-'

theorem isNumeralChar_of_isDigit {c : Char} (h : c.isDigit = true) : isNumeralChar c = true := by
  simp [isNumeralChar, goesOnWith, h]

theorem isBlank_of_isNumeralChar {c : Char} (h : isNumeralChar c = true) :
    Text.isBlank c = false := by
  simp only [isNumeralChar, goesOnWith, Bool.or_eq_true, beq_iff_eq] at h
  obtain ((((hdigit | rfl) | rfl) | rfl) | rfl) | rfl := h
  · obtain ⟨hlow, hhigh⟩ : 48 ≤ c.toNat ∧ c.toNat ≤ 57 := Char.isDigit_iff_toNat.1 hdigit
    simp only [Text.isBlank, Bool.or_eq_false_iff, Bool.and_eq_false_iff, decide_eq_false_iff_not,
      beq_eq_false_iff_ne]
    omega
  all_goals decide

theorem isNumeralChar_of_mem_fractionText {c : Char} {digits : List Char}
    (h : ∀ d ∈ digits, d.isDigit = true) (hc : c ∈ fractionText digits) :
    isNumeralChar c = true := by
  cases digits with
  | nil => cases hc
  | cons d digits =>
    rw [fractionText_cons] at hc
    obtain rfl | hc := List.mem_cons.1 hc
    · rfl
    · exact isNumeralChar_of_isDigit (h c hc)

theorem isNumeralChar_of_mem_exponent {c : Char} {e : Exponent} (hc : c ∈ e.text) :
    isNumeralChar c = true := by
  rw [Exponent.text, List.mem_cons, List.mem_append] at hc
  obtain rfl | hsign | hdigit := hc
  · obtain hmark | hmark := e.mark_mem
    · rw [hmark]
      rfl
    · rw [hmark]
      rfl
  · obtain h | h | h := e.sign_mem
    · rw [h] at hsign
      cases hsign
    · obtain rfl := List.mem_singleton.1 (h ▸ hsign)
      rfl
    · obtain rfl := List.mem_singleton.1 (h ▸ hsign)
      rfl
  · exact isNumeralChar_of_isDigit (e.isDigit_digits c hdigit)

theorem SignedNumeral.isNumeralChar_of_mem_text {n : SignedNumeral} {c : Char} (hc : c ∈ n.text) :
    isNumeralChar c = true := by
  rw [text, Numeral.text, List.mem_append, List.mem_append, List.mem_append] at hc
  obtain hsign | hwhole | hfraction | hexponent := hc
  · obtain h | h := n.sign_cases
    · rw [h] at hsign
      cases hsign
    · obtain rfl := List.mem_singleton.1 (h ▸ hsign)
      rfl
  · exact isNumeralChar_of_isDigit (n.numeral.isDigit_whole c hwhole)
  · exact isNumeralChar_of_mem_fractionText n.numeral.isDigit_fraction hfraction
  · cases he : n.numeral.exponent with
    | none =>
      rw [he] at hexponent
      cases hexponent
    | some e =>
      rw [he] at hexponent
      exact isNumeralChar_of_mem_exponent hexponent

/-- A numeral begins with its sign or a digit. -/
theorem SignedNumeral.exists_text_eq_cons (n : SignedNumeral) :
    ∃ c tail, n.text = c :: tail ∧ isNumeralChar c = true := by
  obtain ⟨c, whole, hwhole⟩ := List.exists_cons_of_ne_nil n.numeral.whole_ne_nil
  have hne : n.text ≠ [] := by
    rw [text, Numeral.text, hwhole]
    simp
  obtain ⟨c, tail, htext⟩ := List.exists_cons_of_ne_nil hne
  exact ⟨c, tail, htext, isNumeralChar_of_mem_text (htext ▸ List.mem_cons_self)⟩

/-! ### Splitting numerals off -/

theorem takeDigits?_eq_some_iff {digits : List Char} :
    takeDigits? cs = some (digits, rest) ↔
      digits ≠ [] ∧ digits = cs.takeWhile Char.isDigit ∧ rest = cs.dropWhile Char.isDigit := by
  rw [takeDigits?]
  cases htake : cs.takeWhile Char.isDigit with
  | nil => simp +contextual
  | cons d ds =>
    simp only [Option.some.injEq, Prod.mk.injEq]
    constructor
    · rintro ⟨rfl, rfl⟩
      exact ⟨List.cons_ne_nil d ds, rfl, rfl⟩
    · rintro ⟨-, rfl, rfl⟩
      exact ⟨rfl, rfl⟩

theorem of_takeDigits? {digits : List Char} (h : takeDigits? cs = some (digits, rest)) :
    digits ≠ [] ∧ (∀ c ∈ digits, c.isDigit = true) ∧ cs = digits ++ rest := by
  obtain ⟨hne, rfl, rfl⟩ := takeDigits?_eq_some_iff.1 h
  exact ⟨hne, fun c hc => List.mem_takeWhile_imp hc, List.takeWhile_append_dropWhile.symm⟩

theorem exists_of_takeFraction {fraction : List Char} (h : takeFraction cs = (fraction, rest)) :
    ∃ digits, (∀ c ∈ digits, c.isDigit = true) ∧ fraction = fractionText digits ∧
      cs = fraction ++ rest := by
  -- where no fraction is split off, the text stays as it is
  have hnone : ([], cs) = (fraction, rest) → ∃ digits, (∀ c ∈ digits, c.isDigit = true) ∧
      fraction = fractionText digits ∧ cs = fraction ++ rest := by
    rintro h
    obtain ⟨rfl, rfl⟩ := Prod.mk.inj h
    exact ⟨[], by simp, rfl, rfl⟩
  rw [takeFraction.eq_def] at h
  split at h
  next tail =>
    split at h
    next digits rest' htake =>
      obtain ⟨hne, hdigits, rfl⟩ := of_takeDigits? htake
      obtain ⟨rfl, rfl⟩ := Prod.mk.inj h
      obtain ⟨d, ds, rfl⟩ := List.exists_cons_of_ne_nil hne
      exact ⟨d :: ds, hdigits, rfl, rfl⟩
    next => exact hnone h
  next => exact hnone h

theorem of_takeExponentSign {sign : List Char} (h : takeExponentSign cs = (sign, rest)) :
    (sign = [] ∨ sign = ['+'] ∨ sign = ['-']) ∧ cs = sign ++ rest := by
  rw [takeExponentSign.eq_def] at h
  split at h
  all_goals
    obtain ⟨rfl, rfl⟩ := Prod.mk.inj h
    simp

theorem exists_of_takeExponent {text : List Char} (h : takeExponent cs = (text, rest)) :
    ∃ e : Option Exponent, text = e.elim [] Exponent.text ∧ cs = text ++ rest := by
  -- where no exponent is split off, the text stays as it is
  have hnone : ([], cs) = (text, rest) →
      ∃ e : Option Exponent, text = e.elim [] Exponent.text ∧ cs = text ++ rest := by
    rintro h
    obtain ⟨rfl, rfl⟩ := Prod.mk.inj h
    exact ⟨none, rfl, rfl⟩
  cases cs with
  | nil => exact hnone h
  | cons c cs =>
    rw [takeExponent] at h
    split at h
    next hmark =>
      -- behind the mark a sign may stand, and digits have to
      obtain ⟨sign, tail, hsplit⟩ : ∃ sign tail, takeExponentSign cs = (sign, tail) := ⟨_, _, rfl⟩
      obtain ⟨hsign, rfl⟩ := of_takeExponentSign hsplit
      rw [hsplit] at h
      dsimp only at h
      split at h
      next digits rest' htake =>
        obtain ⟨hne, hdigits, rfl⟩ := of_takeDigits? htake
        obtain ⟨rfl, rfl⟩ := Prod.mk.inj h
        refine ⟨some ⟨c, sign, digits, hmark, hsign, hne, hdigits⟩, rfl, ?_⟩
        rw [List.cons_append, List.append_assoc]
      next => exact hnone h
    next => exact hnone h

theorem exists_of_takeMinus {sign : List Char} (h : takeMinus cs = (sign, rest)) :
    ∃ isNegative : Bool, sign = (if isNegative then ['-'] else []) ∧ cs = sign ++ rest := by
  rw [takeMinus.eq_def] at h
  split at h
  · obtain ⟨rfl, rfl⟩ := Prod.mk.inj h
    exact ⟨true, rfl, rfl⟩
  · obtain ⟨rfl, rfl⟩ := Prod.mk.inj h
    exact ⟨false, rfl, rfl⟩

/-- What is split off is a numeral. -/
theorem exists_of_takeNumeral? {word : List Char} (h : takeNumeral? cs = some (word, rest)) :
    ∃ n : SignedNumeral, word = n.text ∧ cs = n.text ++ rest := by
  rw [takeNumeral?] at h
  obtain ⟨sign, afterSign, hsign⟩ : ∃ sign rest, takeMinus cs = (sign, rest) := ⟨_, _, rfl⟩
  -- the sign, the digits, the fraction and the exponent, each with what is left behind it
  obtain ⟨isNegative, rfl, rfl⟩ := exists_of_takeMinus hsign
  rw [hsign] at h
  obtain ⟨⟨whole, afterWhole⟩, hwhole, hparts⟩ := Option.bind_eq_some_iff.1 h
  clear h
  obtain ⟨hne, hdigits, rfl⟩ := of_takeDigits? hwhole
  obtain ⟨fraction, afterFraction, hfraction⟩ :
      ∃ fraction rest, takeFraction afterWhole = (fraction, rest) := ⟨_, _, rfl⟩
  dsimp only at hparts
  rw [hfraction] at hparts
  obtain ⟨digits, hfractionDigits, rfl, rfl⟩ := exists_of_takeFraction hfraction
  obtain ⟨exponent, afterExponent, hexponent⟩ :
      ∃ exponent rest, takeExponent afterFraction = (exponent, rest) := ⟨_, _, rfl⟩
  dsimp only at hparts
  rw [hexponent] at hparts
  obtain ⟨e, rfl, rfl⟩ := exists_of_takeExponent hexponent
  obtain ⟨rfl, rfl⟩ := Prod.mk.inj (Option.some.inj hparts)
  refine ⟨⟨isNegative, whole, digits, e, hne, hdigits, hfractionDigits⟩, ?_, ?_⟩
  · simp [SignedNumeral.text, SignedNumeral.sign, Numeral.text]
  · simp [SignedNumeral.text, SignedNumeral.sign, Numeral.text]

/-- A numeral is split off as a whole if what follows does not go on like one. -/
theorem SignedNumeral.takeNumeral?_text (n : SignedNumeral) (hrest : EndsBefore rest) :
    takeNumeral? (n.text ++ rest) = some (n.text, rest) :=
  TrustBoundary.takeNumeral?_text hrest n.sign_cases

/-! ### Values -/

theorem trimLeft_append {before : List Char} (hbefore : ∀ c ∈ before, Text.isBlank c = true)
    (hcs : ∀ c ∈ cs.head?, Text.isBlank c = false) : Text.trimLeft (before ++ cs) = cs := by
  rw [Text.trimLeft, List.dropWhile_append_of_pos hbefore]
  cases cs with
  | nil => rfl
  | cons c cs => rw [List.dropWhile_cons, hcs c rfl, if_neg Bool.false_ne_true]

/-- Blanks are taken off both ends of a text without blanks. -/
theorem trim_append {before after : List Char} (hbefore : ∀ c ∈ before, Text.isBlank c = true)
    (hafter : ∀ c ∈ after, Text.isBlank c = true) (hne : cs ≠ [])
    (hcs : ∀ c ∈ cs, Text.isBlank c = false) : Text.trim (before ++ (cs ++ after)) = cs := by
  have hleft : Text.trimLeft (before ++ (cs ++ after)) = cs ++ after := by
    refine trimLeft_append hbefore fun c hc => hcs c ?_
    rw [List.head?_append_of_ne_nil _ hne] at hc
    exact List.mem_of_head? hc
  have hright : Text.trimLeft (cs ++ after).reverse = cs.reverse := by
    rw [List.reverse_append]
    refine trimLeft_append (fun c hc => hafter c (List.mem_reverse.1 hc)) fun c hc => hcs c ?_
    exact List.mem_reverse.1 (List.mem_of_head? hc)
  rw [Text.trim, hleft, hright, List.reverse_reverse]

/-- A numeral is read as the double nearest to it, if that is finite, and blanks may stand around
it. -/
theorem SignedNumeral.readDecimal?_append (n : SignedNumeral) {before after : List Char}
    (hbefore : ∀ c ∈ before, Text.isBlank c = true) (hafter : ∀ c ∈ after, Text.isBlank c = true) :
    readDecimal? (before ++ (n.text ++ after)) =
      if n.value.isFinite then some n.value else none := by
  -- nothing in the numeral is a blank, so just those around it are taken off
  have hsolid : ∀ c ∈ n.text, Text.isBlank c = false :=
    fun c hc => isBlank_of_isNumeralChar (isNumeralChar_of_mem_text hc)
  obtain ⟨c, tail, htext, -⟩ := n.exists_text_eq_cons
  rw [readDecimal?, trim_append hbefore hafter (htext ▸ List.cons_ne_nil c tail) hsolid, text,
    Decimal.read?_text n.numeral n.sign_cases, n.isNegative_eq]
  rfl

theorem SignedNumeral.readDecimal?_text (n : SignedNumeral) :
    readDecimal? n.text = if n.value.isFinite then some n.value else none := by
  have hread := @readDecimal?_append n [] [] (by simp) (by simp)
  rwa [List.append_nil] at hread

/-- Digits behind a number make it larger by a power of ten at most. -/
theorem ofDigitChars_lt {digits : List Char} (h : ∀ c ∈ digits, c.isDigit = true) (m : Nat) :
    Nat.ofDigitChars 10 digits m < (m + 1) * 10 ^ digits.length := by
  induction digits generalizing m with
  | nil => simp
  | cons c digits ih =>
    have hc : Json.digitValue c ≤ 9 := by
      obtain ⟨hlow, hhigh⟩ : 48 ≤ c.toNat ∧ c.toNat ≤ 57 :=
        Char.isDigit_iff_toNat.1 (h c List.mem_cons_self)
      change c.toNat - 48 ≤ 9
      omega
    calc Nat.ofDigitChars 10 (c :: digits) m
        = Nat.ofDigitChars 10 digits (10 * m + Json.digitValue c) := Json.ofDigitChars_cons
      _ < (10 * m + Json.digitValue c + 1) * 10 ^ digits.length :=
        ih (fun d hd => h d (List.mem_cons_of_mem c hd)) _
      _ ≤ ((m + 1) * 10) * 10 ^ digits.length := Nat.mul_le_mul_right _ (by omega)
      _ = (m + 1) * 10 ^ (c :: digits).length := by
        rw [List.length_cons, Nat.pow_succ, Nat.mul_assoc, Nat.mul_comm 10]

theorem SignedNumeral.value_eq (n : SignedNumeral) : n.value =
    if n.isNegative then
      -Float.ofScientific n.numeral.significand (n.numeral.place < 0) n.numeral.place.natAbs
    else Float.ofScientific n.numeral.significand (n.numeral.place < 0) n.numeral.place.natAbs :=
  Decimal.nearest_eq n.numeral n.isNegative

/-- A number of 64 bits is finite, with a small power of ten. -/
theorem SignedNumeral.isFinite_value {n : SignedNumeral}
    (hlt : n.numeral.significand < 18446744073709551616) (hplace : n.numeral.place.natAbs ≤ 22) :
    n.value.isFinite = true := by
  rw [value_eq]
  exact isFinite_ofScientific n.isNegative hlt hplace

end TrustBoundary
