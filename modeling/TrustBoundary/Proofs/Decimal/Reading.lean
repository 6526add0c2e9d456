import TrustBoundary.Decimal.Reading
import TrustBoundary.Proofs.Decimal.Nearest
import TrustBoundary.Proofs.Double.PowersOfTen

/-!
# Reading decimal numbers

A numeral is read to its end, with or without a sign, as the double nearest to it (`read?_text`).
In the text of a finite double stands the shortest decimal that rounds to it, so that the double is
read back (`read?_ofFloat`).
-/

namespace TrustBoundary.Decimal

open Numeral

/-! ### Numerals -/

section

variable {sign digits : List Char}

/-- A sign is split off digits. -/
theorem takeSign_append (hsign : sign = [] ∨ sign = ['+'] ∨ sign = ['-']) {rest : List Char}
    (hdigit : rest.head?.any Char.isDigit = true) :
    takeSign (sign ++ rest) = (sign == ['-'], rest) := by
  rcases hsign with rfl | rfl | rfl
  · cases rest with
    | nil => cases hdigit
    | cons c rest =>
      have hc : c.isDigit = true := hdigit
      rw [List.nil_append, takeSign]
      · rfl
      · rintro cs h
        obtain ⟨rfl, -⟩ := List.cons.inj h
        cases hc
      · rintro cs h
        obtain ⟨rfl, -⟩ := List.cons.inj h
        cases hc
  · rfl
  · rfl

/-- Digits, at least one of them, begin with a digit. -/
theorem head?_any_isDigit_append (hne : digits ≠ []) (hdigits : ∀ c ∈ digits, c.isDigit = true)
    (rest : List Char) : (digits ++ rest).head?.any Char.isDigit = true := by
  obtain ⟨c, digits, rfl⟩ := List.exists_cons_of_ne_nil hne
  exact hdigits c List.mem_cons_self

theorem readExponent?_text (e : Exponent) : readExponent? (e.sign ++ e.digits) = some e.value := by
  have hdigit := head?_any_isDigit_append e.digits_ne_nil e.isDigit_digits []
  rw [List.append_nil] at hdigit
  have hempty : e.digits.isEmpty = false := by simp [e.digits_ne_nil]
  have hall : e.digits.all Char.isDigit = true := List.all_eq_true.2 e.isDigit_digits
  rw [readExponent?, takeSign_append e.sign_mem hdigit]
  dsimp only
  rw [hempty, hall, if_neg (by decide), Exponent.value]
  simp only [beq_iff_eq]
  rfl

theorem readTail?_text (exponent : Option Exponent) :
    readTail? (exponent.elim [] Exponent.text) = some (exponent.elim 0 Exponent.value) := by
  cases exponent with
  | none => rfl
  | some e =>
    rw [Option.elim_some, Option.elim_some, Exponent.text, readTail?, if_pos e.mark_mem,
      readExponent?_text]

/-- No exponent begins with a point. -/
theorem exponent_text_ne (exponent : Option Exponent) (rest : List Char) :
    exponent.elim [] Exponent.text ≠ '.' :: rest := by
  cases exponent with
  | none => exact (List.cons_ne_nil _ _).symm
  | some e =>
    intro h
    obtain hmark | hmark := e.mark_mem <;> rw [Option.elim_some, Exponent.text, hmark] at h <;>
      cases h

/-- The double nearest to a numeral. -/
theorem nearest_eq (n : Numeral) (negative : Bool) :
    nearest negative n.whole n.fraction (n.exponent.elim 0 Exponent.value) =
      if negative then -Float.ofScientific n.significand (n.place < 0) n.place.natAbs
      else Float.ofScientific n.significand (n.place < 0) n.place.natAbs :=
  rfl

/-- A numeral is read to its end. -/
theorem read?_text (n : Numeral) (hsign : sign = [] ∨ sign = ['-']) :
    read? (sign ++ n.text) =
      let x := nearest (sign == ['-']) n.whole n.fraction (n.exponent.elim 0 Exponent.value)
      if x.isFinite then some x else none := by
  obtain ⟨whole, fraction, exponent, hne, hwhole, hfraction⟩ := n
  have hend : EndsBefore [] := fun c hc => by cases hc
  have htail (fraction : List Char) := hend.head?_any_tail fraction exponent
  simp only [List.append_nil] at htail
  obtain ⟨htake, hdrop⟩ := takeWhile_isDigit_append hwhole (htail fraction)
  have hempty : whole.isEmpty = false := by simp [hne]
  -- the sign and the digits before the point come off
  rw [read?, Numeral.text, takeSign_append (hsign.imp_right .inr)
    (head?_any_isDigit_append hne hwhole _)]
  dsimp only
  rw [htake, hdrop, hempty, Bool.false_and, if_neg Bool.false_ne_true]
  have hread := readTail?_text exponent
  split
  next rest heq =>
    -- a point is there exactly if there is a fraction
    cases fraction with
    | nil => exact absurd heq (exponent_text_ne exponent rest)
    | cons d fraction =>
      obtain rfl : rest = d :: fraction ++ exponent.elim [] Exponent.text :=
        (List.cons.inj heq).2.symm
      have hend' : (exponent.elim [] Exponent.text).head?.any Char.isDigit = false := htail []
      obtain ⟨htake', hdrop'⟩ := takeWhile_isDigit_append hfraction hend'
      dsimp only
      rw [htake', hdrop', hread]
      rfl
  next hpoint =>
    cases fraction with
    | nil =>
      dsimp only [fractionText, List.nil_append]
      rw [hread]
      rfl
    | cons d fraction => exact absurd rfl (hpoint _)

/-- No decimal number goes on behind its digits with a character that is in no numeral. -/
theorem read?_append_eq_none {whole : List Char} (hsign : sign = [] ∨ sign = ['-'])
    (hne : whole ≠ []) (hwhole : ∀ c ∈ whole, c.isDigit = true) {c : Char}
    (hc : goesOnWith c = false) (tail : List Char) :
    read? (sign ++ (whole ++ c :: tail)) = none := by
  have hends : EndsBefore (c :: tail) := fun d hd => Option.mem_some.1 hd ▸ hc
  obtain ⟨htake, hdrop⟩ := takeWhile_isDigit_append hwhole hends.head?_any_isDigit
  obtain ⟨hpoint, he, hE⟩ := hends.head_ne rfl
  have hempty : whole.isEmpty = false := by simp [hne]
  rw [read?, takeSign_append (hsign.imp_right .inr) (head?_any_isDigit_append hne hwhole _)]
  dsimp only
  rw [htake, hdrop, hempty, Bool.false_and, if_neg Bool.false_ne_true]
  -- the character is neither a point nor the mark of an exponent
  split
  next rest heq => exact absurd (List.cons.inj heq).1 hpoint
  next =>
    rw [readTail?, if_neg (not_or.2 ⟨he, hE⟩)]
    rfl

end

/-! ### Doubles -/

/-- A finite double other than zero is its magnitude with its sign. -/
theorem signed_toFloat {x : Float} (h : (Binary.ofFloat x).IsDouble) :
    (if signOf x != [] then -h.toFloat .positive else h.toFloat .positive) = x := by
  rw [h.neg_toFloat]
  conv_rhs => rw [eq_toFloat h, signBit_eq]
  unfold signOf
  split
  · rfl
  · rfl

/-- A finite double is read back from its text. -/
theorem read?_ofFloat {x : Float} (hfinite : x.isFinite = true) : read? (ofFloat x) = some x := by
  by_cases hzero : (Binary.ofFloat x).significand = 0
  · obtain rfl | rfl := eq_zero_of_significand_eq_zero hzero <;> decide +kernel
  · have h := isDouble_ofFloat hfinite hzero
    obtain ⟨hpos, hlow, hhigh, hvalue⟩ := value_floatAsRead hfinite hzero
    -- the numeral in the text stands for the shortest decimal, which rounds to the double
    obtain ⟨n, htext, -, hparts⟩ := exists_numeral hfinite
    have hsignificand : n.significand = (floatAsRead x).1 := congrArg Prod.fst hparts
    have hplace : n.place = (floatAsRead x).2 := congrArg Prod.snd hparts
    have hmagnitude := h.ofScientific_eq hpos (by omega) (by omega) (hvalue ▸ h.attracts_shortest)
    have hsign : (signOf x == ['-']) = (signOf x != []) := by
      obtain hsign | hsign := signOf_cases x <;> rw [hsign] <;> rfl
    have hnearest : nearest (signOf x == ['-']) n.whole n.fraction
        (n.exponent.elim 0 Exponent.value) = x := by
      rw [nearest_eq, hsignificand, hplace, hmagnitude, hsign, signed_toFloat h]
    rw [htext, read?_text n (signOf_cases x), hnearest]
    exact if_pos hfinite

end TrustBoundary.Decimal
