import TrustBoundary.Json.Numeral
import TrustBoundary.Risk.AmountPattern

/-!
# The parts of a numeral

A numeral is a run of digits, behind which a fraction and an exponent may stand.  Two readers meet
numerals: the reader of JSON takes a whole number and a power of ten out of one
(`Json.readNumeral_text`), and the search for an amount splits it off unread
(`takeNumeral?_text`).  Both take all of it, provided that what follows does not go on like a
numeral.
-/

namespace TrustBoundary

/-- The exponent of a numeral: its mark, a sign or none, and digits. -/
structure Numeral.Exponent where
  mark : Char
  sign : List Char
  digits : List Char
  mark_mem : mark = 'e' ∨ mark = 'E'
  sign_mem : sign = [] ∨ sign = ['+'] ∨ sign = ['-']
  digits_ne_nil : digits ≠ []
  isDigit_digits : ∀ c ∈ digits, c.isDigit = true

/-- A numeral without its sign.  An empty fraction stands for none, without a point. -/
structure Numeral where
  whole : List Char
  fraction : List Char
  exponent : Option Numeral.Exponent
  whole_ne_nil : whole ≠ []
  isDigit_whole : ∀ c ∈ whole, c.isDigit = true
  isDigit_fraction : ∀ c ∈ fraction, c.isDigit = true

namespace Numeral

namespace Exponent

/-- The text of an exponent. -/
def text (e : Exponent) : List Char := e.mark :: (e.sign ++ e.digits)

/-- The number in an exponent, without its sign. -/
def magnitude (e : Exponent) : Nat := Nat.ofDigitChars 10 e.digits 0

/-- The number in an exponent. -/
def value (e : Exponent) : Int := if e.sign = ['-'] then -(e.magnitude : Int) else e.magnitude

end Exponent

/-- A fraction behind its point, or nothing. -/
def fractionText : List Char → List Char
  | [] => []
  | digits => '.' :: digits

theorem fractionText_cons (c : Char) (digits : List Char) :
    fractionText (c :: digits) = '.' :: c :: digits := rfl

/-- The text of a numeral. -/
def text (n : Numeral) : List Char :=
  n.whole ++ (fractionText n.fraction ++ n.exponent.elim [] Exponent.text)

/-- The digits as one whole number. -/
def significand (n : Numeral) : Nat := Nat.ofDigitChars 10 (n.whole ++ n.fraction) 0

/-- The power of ten by which that number is to be multiplied. -/
def place (n : Numeral) : Int := n.exponent.elim 0 Exponent.value - n.fraction.length

/-- Whether the digits begin with a zero that could be left out. -/
def hasNeedlessZero (n : Numeral) : Bool := n.whole.head? == some '0' && n.whole.length != 1

/-- Without a needless zero, nothing stands behind a zero in front. -/
theorem eq_nil_of_hasNeedlessZero {n : Numeral} (h : n.hasNeedlessZero = false) {c : Char}
    {digits : List Char} (hwhole : n.whole = c :: digits) (hc : c = '0') : digits = [] := by
  subst hc
  simpa [hasNeedlessZero, hwhole] using h

/-- What a reader of JSON asks of a numeral that is no whole number, and what it needs to take in
all of its digits. -/
structure IsReadable (n : Numeral) : Prop where
  hasNeedlessZero_eq_false : n.hasNeedlessZero = false
  significand_lt : n.significand < 0x10000000000000000
  magnitude_le : ∀ e ∈ n.exponent, e.magnitude ≤ Json.exponentLimit
  isFractional : n.fraction ≠ [] ∨ n.exponent ≠ none

/-- Whether a numeral could go on with a character. -/
def goesOnWith (c : Char) : Bool := c.isDigit || c == '.' || c == 'e' || c == 'E'

/-- What follows a numeral and does not belong to it. -/
def EndsBefore (rest : List Char) : Prop := ∀ c ∈ rest.head?, goesOnWith c = false

section

variable {rest : List Char}

theorem EndsBefore.head?_any_isDigit (h : EndsBefore rest) :
    rest.head?.any Char.isDigit = false := by
  cases rest with
  | nil => rfl
  | cons c rest =>
    have hc := h c rfl
    simp only [goesOnWith, Bool.or_eq_false_iff] at hc
    exact hc.1.1.1

theorem EndsBefore.head_ne (h : EndsBefore rest) {c : Char} {cs : List Char}
    (heq : rest = c :: cs) : c ≠ '.' ∧ c ≠ 'e' ∧ c ≠ 'E' := by
  have hc := h c (heq ▸ rfl)
  simp only [goesOnWith, Bool.or_eq_false_iff, beq_eq_false_iff_ne] at hc
  exact ⟨hc.1.1.2, hc.1.2, hc.2⟩

/-- Digits are split off a text up to what is no digit. -/
theorem takeWhile_isDigit_append {digits : List Char} (h : ∀ c ∈ digits, c.isDigit = true)
    (hend : rest.head?.any Char.isDigit = false) :
    (digits ++ rest).takeWhile Char.isDigit = digits ∧
      (digits ++ rest).dropWhile Char.isDigit = rest := by
  rw [List.takeWhile_append_of_pos h, List.dropWhile_append_of_pos h]
  cases rest with
  | nil => simp
  | cons c rest =>
    have hc : c.isDigit = false := hend
    simp [hc]

/-- A fraction, an exponent and what follows do not begin with a digit. -/
theorem EndsBefore.head?_any_tail (h : EndsBefore rest) (fraction : List Char)
    (exponent : Option Exponent) :
    (fractionText fraction ++ (exponent.elim [] Exponent.text ++ rest)).head?.any Char.isDigit =
      false := by
  cases fraction with
  | cons c fraction => rfl
  | nil =>
    cases exponent with
    | none => exact h.head?_any_isDigit
    | some e =>
      obtain hmark | hmark := e.mark_mem
      · simp [fractionText, Exponent.text, hmark]
      · simp [fractionText, Exponent.text, hmark]

end

end Numeral

/-! ### Reading JSON -/

namespace Json

open Numeral

variable {rest : List Char}

theorem ofDigitChars_cons {n : Nat} {c : Char} {digits : List Char} :
    Nat.ofDigitChars 10 (c :: digits) n = Nat.ofDigitChars 10 digits (10 * n + digitValue c) :=
  Nat.ofDigitChars_cons

/-- Digits behind a number make it no smaller. -/
theorem le_ofDigitChars {n : Nat} {digits : List Char} : n ≤ Nat.ofDigitChars 10 digits n := by
  rw [Nat.ofDigitChars_eq_ofDigitChars_zero]
  exact Nat.le_add_right_of_le (Nat.le_mul_of_pos_left _ (Nat.pow_pos (by decide)))

/-- Digits in front of a text are collected one after the other, as long as their number stays below
`bound`, and what comes of it is `result`: of the number, of how many digits were taken in, and of
the rest. -/
structure Collects {β : Type} (collect result : Nat → Nat → List Char → β) (bound : Nat) :
    Prop where
  nil : ∀ n taken, collect n taken [] = result n taken []
  stop : ∀ n taken c cs, c.isDigit = false → collect n taken (c :: cs) = result n taken (c :: cs)
  step : ∀ n taken c cs, c.isDigit = true → 10 * n + digitValue c < bound →
    collect n taken (c :: cs) = collect (10 * n + digitValue c) (taken + 1) cs

/-- Digits that stay below the bound together are all collected. -/
theorem Collects.append {β : Type} {collect result : Nat → Nat → List Char → β} {bound : Nat}
    (hcollect : Collects collect result bound) (taken : Nat) {digits : List Char} {n : Nat}
    (h : ∀ c ∈ digits, c.isDigit = true) (hend : rest.head?.any Char.isDigit = false)
    (hfits : Nat.ofDigitChars 10 digits n < bound) :
    collect n taken (digits ++ rest) =
      result (Nat.ofDigitChars 10 digits n) (taken + digits.length) rest := by
  induction digits generalizing n taken with
  | nil =>
    cases rest with
    | nil => exact hcollect.nil n taken
    | cons c rest => exact hcollect.stop n taken c rest hend
  | cons c digits ih =>
    rw [ofDigitChars_cons] at hfits ⊢
    -- the number without the digits behind `c` is no larger
    have hstep := hcollect.step n taken c (digits ++ rest) (h c List.mem_cons_self)
      (Nat.lt_of_le_of_lt le_ofDigitChars hfits)
    rw [List.cons_append, hstep, ih (taken + 1) (fun d hd => h d (List.mem_cons_of_mem c hd)) hfits,
      List.length_cons, Nat.add_assoc, Nat.add_comm 1]

/-- One more digit is collected if it fits. -/
theorem withDigit?_eq_some {n : Nat} {c : Char}
    (hfits : 10 * n + digitValue c < 0x10000000000000000) :
    withDigit? n c = some (10 * n + digitValue c) := by
  unfold withDigit?
  exact if_pos hfits

theorem collects_whole :
    Collects (fun n _ => collectWhole n) (fun n _ rest => (n, 0, rest)) 0x10000000000000000 where
  nil _ _ := rfl
  stop n _ c cs hc := by rw [collectWhole, hc, if_neg Bool.false_ne_true]
  step n _ c cs hc hfits := by rw [collectWhole, if_pos hc, withDigit?_eq_some hfits]

theorem collects_fraction :
    Collects collectFraction (fun n taken rest => (n, taken, rest)) 0x10000000000000000 where
  nil _ _ := rfl
  stop n taken c cs hc := by rw [collectFraction, hc, if_neg Bool.false_ne_true]
  step n taken c cs hc hfits := by rw [collectFraction, if_pos hc, withDigit?_eq_some hfits]

theorem collects_exponent :
    Collects (fun n _ => collectExponent n) (fun n _ rest => (some n, rest))
      (exponentLimit + 1) where
  nil _ _ := rfl
  stop n _ c cs hc := by rw [collectExponent, hc, if_neg Bool.false_ne_true]
  step n _ c cs hc hfits := by
    rw [collectExponent, if_pos hc]
    exact if_pos (Nat.le_of_lt_succ hfits)

/-- An exponent below the limit is read to its end. -/
theorem readExponent_text {e : Exponent} (hlimit : e.magnitude ≤ exponentLimit)
    (hend : rest.head?.any Char.isDigit = false) (negative : Bool) (significand : Nat)
    (exponent : Int) :
    readExponent negative significand exponent (e.sign ++ (e.digits ++ rest)) =
      scaledNumber negative significand (exponent + e.value) rest := by
  obtain ⟨mark, sign, digits, hmark, hsign, hne, hdigits⟩ := e
  obtain ⟨c, digits, rfl⟩ := List.exists_cons_of_ne_nil hne
  have hc : c.isDigit = true := hdigits c List.mem_cons_self
  have hcollect : collectExponent (digitValue c) (digits ++ rest) =
      (some (Nat.ofDigitChars 10 (c :: digits) 0), rest) := by
    -- the first digit starts the number, and the others are collected onto it
    rw [ofDigitChars_cons, Nat.mul_zero, Nat.zero_add]
    rw [Exponent.magnitude, ofDigitChars_cons, Nat.mul_zero, Nat.zero_add] at hlimit
    exact collects_exponent.append 0 (fun d hd => hdigits d (List.mem_cons_of_mem c hd)) hend
      (Nat.lt_succ_of_le hlimit)
  rcases hsign with rfl | rfl | rfl
  · -- without a sign the first digit must not be taken for one
    have hminus : c ≠ '-' := by
      rintro rfl
      cases hc
    have hplus : c ≠ '+' := by
      rintro rfl
      cases hc
    rw [List.nil_append, List.cons_append, readExponent]
    · rw [hc, if_pos rfl, hcollect]
      rfl
    · exact fun _ h => hminus (List.cons.inj h).1
    · exact fun _ h => hplus (List.cons.inj h).1
  · simp only [List.cons_append, List.nil_append, readExponent, hc, if_true, hcollect]
    rfl
  · simp only [List.cons_append, List.nil_append, readExponent, hc, if_true, hcollect]
    rfl

/-- A zero that is no needless one is not followed by a digit. -/
theorem not_needlessZero {c : Char} {digits : List Char} (hzero : c = '0' → digits = [])
    (hend : rest.head?.any Char.isDigit = false) :
    ¬ (c = '0' ∧ (digits ++ rest).head?.any Char.isDigit = true) := by
  rintro ⟨h0, hdigit⟩
  rw [hzero h0, List.nil_append, hend] at hdigit
  cases hdigit

/-- Digits before the point are collected up to what is no digit, if the first is no needless
zero. -/
theorem collect_digits {c : Char} {digits : List Char} (hzero : c = '0' → digits = [])
    (hdigits : ∀ d ∈ digits, d.isDigit = true) (hend : rest.head?.any Char.isDigit = false)
    (hfits : Nat.ofDigitChars 10 (c :: digits) 0 < 0x10000000000000000) :
    ¬ (c = '0' ∧ (digits ++ rest).head?.any Char.isDigit = true) ∧
      (if c = '0' then (0, 0, digits ++ rest) else collectWhole (digitValue c) (digits ++ rest)) =
        (Nat.ofDigitChars 10 (c :: digits) 0, 0, rest) := by
  refine ⟨not_needlessZero hzero hend, ?_⟩
  split
  next h0 =>
    -- a zero stands alone, so nothing is collected behind it
    rw [hzero h0, h0]
    rfl
  next =>
    rw [ofDigitChars_cons, Nat.mul_zero, Nat.zero_add] at hfits ⊢
    exact collects_whole.append 0 hdigits hend hfits

/-- Digits behind the point are read up to what is no digit. -/
theorem readFraction_append {digits : List Char} {significand : Nat} (hne : digits ≠ [])
    (hdigits : ∀ c ∈ digits, c.isDigit = true)
    (hfits : Nat.ofDigitChars 10 digits significand < 0x10000000000000000)
    (hend : rest.head?.any Char.isDigit = false) (negative : Bool) (exponent : Int) :
    readFraction negative significand exponent (digits ++ rest) =
      readTail negative (Nat.ofDigitChars 10 digits significand) (exponent - digits.length)
        rest := by
  have hcollect : collectFraction significand 0 (digits ++ rest) =
      (Nat.ofDigitChars 10 digits significand, 0 + digits.length, rest) :=
    collects_fraction.append 0 hdigits hend hfits
  obtain ⟨c, digits, rfl⟩ := List.exists_cons_of_ne_nil hne
  rw [List.cons_append] at hcollect ⊢
  rw [readFraction, if_pos (hdigits c List.mem_cons_self), hcollect, Nat.zero_add]

/-- An exponent behind digits is read, and what is no exponent is left. -/
theorem readTail_exponent {exponent : Option Exponent}
    (hlimit : ∀ e ∈ exponent, e.magnitude ≤ exponentLimit) (hrest : EndsBefore rest)
    (negative : Bool) (significand : Nat) (place : Int) :
    readTail negative significand place (exponent.elim [] Exponent.text ++ rest) =
      scaledNumber negative significand (place + exponent.elim 0 Exponent.value) rest := by
  cases exponent with
  | none =>
    -- what follows the digits is no mark of an exponent
    rw [Option.elim_none, Option.elim_none, List.nil_append, Int.add_zero, readTail]
    · exact fun _ h => (hrest.head_ne h).2.1 rfl
    · exact fun _ h => (hrest.head_ne h).2.2 rfl
  | some e =>
    have hread := readExponent_text (hlimit e rfl) hrest.head?_any_isDigit negative significand
      place
    rw [Option.elim_some, Option.elim_some, ← hread, Exponent.text, List.cons_append,
      List.append_assoc]
    obtain hmark | hmark := e.mark_mem
    · rw [hmark, readTail]
    · rw [hmark, readTail]

/-- Digits, a fraction and an exponent, at least one of the latter two, are read together. -/
theorem readNumeral_text {n : Numeral} (h : n.IsReadable) (hrest : EndsBefore rest)
    (negative : Bool) :
    readNumeral negative (n.text ++ rest) = scaledNumber negative n.significand n.place rest := by
  obtain ⟨hzero, hfits, hlimit, hpart⟩ := h
  obtain ⟨whole, fraction, exponent, hne, hwhole, hfraction⟩ := n
  obtain ⟨c, whole, rfl⟩ := List.exists_cons_of_ne_nil hne
  dsimp only at hlimit hpart
  have hlone : c = '0' → whole = [] := eq_nil_of_hasNeedlessZero hzero rfl
  rw [significand, Nat.ofDigitChars_append] at hfits
  -- the digits before the point
  have hcollect := collect_digits hlone (fun d hd => hwhole d (List.mem_cons_of_mem c hd))
    (hrest.head?_any_tail fraction exponent) (Nat.lt_of_le_of_lt le_ofDigitChars hfits)
  rw [text, significand, place, Nat.ofDigitChars_append, List.append_assoc, List.append_assoc,
    List.cons_append, readNumeral, if_pos (hwhole c List.mem_cons_self), if_neg hcollect.1,
    hcollect.2]
  cases fraction with
  | cons d fraction =>
    -- the digits behind it, and the exponent behind them
    have hfraction := readFraction_append (List.cons_ne_nil d fraction) hfraction hfits
      (hrest.head?_any_tail [] exponent) negative 0
    have htail := readTail_exponent hlimit hrest negative
      (Nat.ofDigitChars 10 (d :: fraction) (Nat.ofDigitChars 10 (c :: whole) 0))
      (0 - (d :: fraction).length)
    have hplace : 0 - ((d :: fraction).length : Int) + exponent.elim 0 Exponent.value =
        exponent.elim 0 Exponent.value - (d :: fraction).length := by omega
    rw [hplace] at htail
    exact hfraction.trans htail
  | nil =>
    -- without a fraction there is an exponent
    cases exponent with
    | none => exact absurd rfl (hpart.resolve_left (absurd rfl))
    | some e =>
      have hread := readExponent_text (hlimit e rfl) hrest.head?_any_isDigit negative
        (Nat.ofDigitChars 10 (c :: whole) 0) 0
      rw [fractionText, List.nil_append, Option.elim_some, Option.elim_some, Exponent.text,
        List.cons_append, List.append_assoc, Nat.ofDigitChars_nil, List.length_nil]
      rw [Int.zero_add] at hread
      obtain hmark | hmark := e.mark_mem
      · rw [hmark]
        exact hread.trans (by simp)
      · rw [hmark]
        exact hread.trans (by simp)

end Json

/-! ### Splitting off -/

section

open Numeral

variable {rest : List Char}

theorem takeDigits?_append {digits : List Char} (hne : digits ≠ [])
    (hdigits : ∀ c ∈ digits, c.isDigit = true) (hend : rest.head?.any Char.isDigit = false) :
    takeDigits? (digits ++ rest) = some (digits, rest) := by
  obtain ⟨htake, hdrop⟩ := takeWhile_isDigit_append hdigits hend
  rw [takeDigits?, htake, hdrop]
  obtain ⟨c, digits, rfl⟩ := List.exists_cons_of_ne_nil hne
  rfl

theorem takeFraction_text {fraction : List Char} (hfraction : ∀ c ∈ fraction, c.isDigit = true)
    {exponent : Option Exponent} (hrest : EndsBefore rest) :
    takeFraction (fractionText fraction ++ (exponent.elim [] Exponent.text ++ rest)) =
      (fractionText fraction, exponent.elim [] Exponent.text ++ rest) := by
  cases fraction with
  | cons d fraction =>
    have htake : takeDigits? (d :: fraction ++ (exponent.elim [] Exponent.text ++ rest)) =
        some (d :: fraction, exponent.elim [] Exponent.text ++ rest) :=
      takeDigits?_append (List.cons_ne_nil d fraction) hfraction
        (hrest.head?_any_tail [] exponent)
    rw [fractionText_cons, List.cons_append, takeFraction, htake]
  | nil =>
    rw [fractionText, List.nil_append, takeFraction]
    -- neither an exponent nor what follows the numeral begins with a point
    intro cs h
    cases exponent with
    | none => exact (hrest.head_ne h).1 rfl
    | some e =>
      obtain hmark | hmark := e.mark_mem
      · rw [Option.elim_some, Exponent.text, hmark] at h
        cases h
      · rw [Option.elim_some, Exponent.text, hmark] at h
        cases h

theorem takeExponentSign_append {sign digits : List Char}
    (hsign : sign = [] ∨ sign = ['+'] ∨ sign = ['-']) (hne : digits ≠ [])
    (hdigits : ∀ c ∈ digits, c.isDigit = true) :
    takeExponentSign (sign ++ (digits ++ rest)) = (sign, digits ++ rest) := by
  rcases hsign with rfl | rfl | rfl
  · obtain ⟨c, digits, rfl⟩ := List.exists_cons_of_ne_nil hne
    have hc : c.isDigit = true := hdigits c List.mem_cons_self
    rw [List.nil_append, List.cons_append, takeExponentSign]
    · rintro cs h
      obtain ⟨rfl, -⟩ := List.cons.inj h
      cases hc
    · rintro cs h
      obtain ⟨rfl, -⟩ := List.cons.inj h
      cases hc
  · rfl
  · rfl

theorem takeExponent_text {exponent : Option Exponent} (hrest : EndsBefore rest) :
    takeExponent (exponent.elim [] Exponent.text ++ rest) =
      (exponent.elim [] Exponent.text, rest) := by
  cases exponent with
  | none =>
    cases rest with
    | nil => rfl
    | cons c rest =>
      have hmark : ¬ (c = 'e' ∨ c = 'E') := fun h =>
        h.elim (hrest.head_ne rfl).2.1 (hrest.head_ne rfl).2.2
      rw [Option.elim_none, List.nil_append, takeExponent, if_neg hmark]
  | some e =>
    rw [Option.elim_some, Exponent.text, List.cons_append, List.append_assoc, takeExponent,
      if_pos e.mark_mem,
      takeExponentSign_append e.sign_mem e.digits_ne_nil e.isDigit_digits]
    dsimp only
    rw [takeDigits?_append e.digits_ne_nil e.isDigit_digits hrest.head?_any_isDigit]

/-- A numeral is split off as a whole, with its sign. -/
theorem takeNumeral?_text {n : Numeral} (hrest : EndsBefore rest) {sign : List Char}
    (hsign : sign = [] ∨ sign = ['-']) :
    takeNumeral? (sign ++ n.text ++ rest) = some (sign ++ n.text, rest) := by
  have hminus : takeMinus (sign ++ n.text ++ rest) = (sign, n.text ++ rest) := by
    -- without a sign the numeral begins with a digit
    rcases hsign with rfl | rfl
    · obtain ⟨c, whole, hwhole⟩ := List.exists_cons_of_ne_nil n.whole_ne_nil
      have hc : c.isDigit = true := n.isDigit_whole c (hwhole ▸ List.mem_cons_self)
      rw [List.nil_append, text, hwhole, List.cons_append, List.cons_append, takeMinus]
      rintro cs h
      obtain ⟨rfl, -⟩ := List.cons.inj h
      cases hc
    · rfl
  rw [takeNumeral?, hminus, text, List.append_assoc, List.append_assoc]
  dsimp only
  -- its parts come off one after the other
  rw [takeDigits?_append n.whole_ne_nil n.isDigit_whole (hrest.head?_any_tail _ _)]
  dsimp only [Option.bind_eq_bind, Option.bind_some]
  rw [takeFraction_text n.isDigit_fraction hrest]
  dsimp only
  rw [takeExponent_text hrest]
  simp

end

end TrustBoundary
