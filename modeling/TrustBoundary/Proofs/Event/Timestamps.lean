import TrustBoundary.Event.TimestampReader
import TrustBoundary.Proofs.Decimal.Written
import TrustBoundary.Steps

/-!
# Timestamps are read as they are written

Every number of a timestamp is written with zeros in front up to its width, and read back at that
width, so the reader finds each part where the next one ends (`Timestamp.read_text`).
-/

namespace TrustBoundary.Timestamp

open Decimal

variable {width n : Nat} {digits rest : List Char}

/-! ### Padded numbers -/

theorem isDigit_padded (width n : Nat) : ∀ c ∈ padded width n, c.isDigit = true :=
  isDigit_append isDigit_replicate isDigit_toDigits

theorem padded_ne_nil (width n : Nat) : padded width n ≠ [] :=
  List.append_ne_nil_of_right_ne_nil _ Nat.toDigits_ne_nil

/-- Zeros in front do not change a number. -/
theorem digitsValue_padded : digitsValue (padded width n) = n := by
  have hvalue : digitsValue (padded width n) = Nat.ofDigitChars 10 (padded width n) 0 := by
    rw [digitsValue, Nat.ofDigitChars_eq_foldl]
  rw [hvalue, padded, Nat.ofDigitChars_append, Nat.ofDigitChars_replicate_zero, Nat.mul_zero,
    Nat.ofDigitChars_ten_toDigits]

theorem length_padded (hwidth : 0 < width) (h : n < 10 ^ width) :
    (padded width n).length = width := by
  have hle := (Nat.length_toDigits_le_iff (b := 10) (by decide) hwidth).2 h
  rw [padded, List.length_append, List.length_replicate]
  omega

/-! ### Parts -/

theorem isBlank_of_isDigit {c : Char} (h : c.isDigit = true) : Text.isBlank c = false := by
  obtain ⟨hle, hge⟩ : 48 ≤ c.toNat ∧ c.toNat ≤ 57 := Char.isDigit_iff_toNat.1 h
  simp only [Text.isBlank, Bool.or_eq_false_iff, Bool.and_eq_false_iff, decide_eq_false_iff_not,
    beq_eq_false_iff_ne]
  omega

/-- No blank is in front of a digit. -/
theorem trimLeft_digits (hne : digits ≠ []) (hdigits : ∀ c ∈ digits, c.isDigit = true) :
    Text.trimLeft (digits ++ rest) = digits ++ rest := by
  obtain ⟨c, digits, rfl⟩ := List.exists_cons_of_ne_nil hne
  have hblank := isBlank_of_isDigit (hdigits c List.mem_cons_self)
  rw [List.cons_append, Text.trimLeft, List.dropWhile_cons, hblank]
  rfl

/-- Where digits stand, a number is read: as many of them as its width allows. -/
theorem readNumber_append (bound : Option Nat) (hne : digits ≠ [])
    (hdigits : ∀ c ∈ digits, c.isDigit = true) {taken : List Char}
    (htaken : bound.elim ((digits ++ rest).takeWhile Char.isDigit)
      ((digits ++ rest).takeWhile Char.isDigit).take = taken) :
    readNumber bound (digits ++ rest) =
      .ok (digitsValue taken, (digits ++ rest).drop taken.length) := by
  obtain ⟨c, tail, htail⟩ := List.exists_cons_of_ne_nil hne
  have hhead : digits ++ rest = c :: (tail ++ rest) := by rw [htail, List.cons_append]
  rw [readNumber.eq_def]
  -- the text is not empty, and begins with a digit
  split
  next heq => exact absurd (hhead.symm.trans heq) (List.cons_ne_nil _ _)
  next d _ heq =>
    obtain rfl : c = d := (List.cons.inj (hhead.symm.trans heq)).1
    rw [if_pos (hdigits c (htail ▸ List.mem_cons_self))]
    dsimp only
    rw [htaken]

/-- A number of a known width is read at that width, even if digits follow. -/
theorem readNumber_padded (hwidth : 0 < width) (h : n < 10 ^ width) :
    readNumber (some width) (padded width n ++ rest) = .ok (n, rest) := by
  have hlength := length_padded hwidth h
  have htaken : ((padded width n ++ rest).takeWhile Char.isDigit).take width = padded width n := by
    rw [List.takeWhile_append_of_pos (isDigit_padded width n), List.take_left' hlength]
  rw [readNumber_append (some width) (padded_ne_nil _ _) (isDigit_padded _ _) htaken,
    digitsValue_padded, List.drop_left]

/-- A number of any width is read up to what is no digit. -/
theorem readNumber_none (hend : rest.head?.any Char.isDigit = false) :
    readNumber none (padded width n ++ rest) = .ok (n, rest) := by
  obtain ⟨htake, -⟩ := Numeral.takeWhile_isDigit_append (isDigit_padded width n)
    hend
  rw [readNumber_append none (padded_ne_nil _ _) (isDigit_padded _ _) htake, digitsValue_padded,
    List.drop_left]

/-- A part of two digits is read if it lies between its bounds. -/
theorem readPart_padded {least most : Nat} (hleast : least ≤ n) (hmost : n ≤ most)
    (h : most < 100) : readPart least most (padded 2 n ++ rest) = .ok (n, rest) := by
  rw [readPart, trimLeft_digits (padded_ne_nil _ _) (isDigit_padded _ _),
    readNumber_padded (by decide) (by omega)]
  exact if_pos ⟨hleast, hmost⟩

/-- A year is read up to the mark behind it. -/
theorem readYear_yearText {year : Int} (h : firstYear ≤ year ∧ year ≤ lastYear)
    (rest : List Char) :
    readYear (yearText year ++ '-' :: rest) = .ok (year, '-' :: rest) := by
  -- every year fits 32 bits
  have hbounds (y : Int) (hy : y = year) :
      (if -0x80000000 ≤ y ∧ y < 0x80000000 then pure (y, '-' :: rest)
        else .error .outOfRange : Except Error _) = .ok (year, '-' :: rest) := by
    rw [firstYear, lastYear] at h
    rw [hy, if_pos (by omega)]
    rfl
  have hsigned : readNumber none (padded 4 year.natAbs ++ '-' :: rest) =
      .ok (year.natAbs, '-' :: rest) := readNumber_none rfl
  rw [readYear, yearText]
  by_cases hfour : 0 ≤ year ∧ year ≤ 9999
  · -- four digits without a sign, and a digit is no sign
    have hread : readNumber (some 4) (padded 4 year.natAbs ++ '-' :: rest) =
        .ok (year.natAbs, '-' :: rest) := readNumber_padded (by decide) (by omega)
    obtain ⟨c, digits, hdigits⟩ :=
      List.exists_cons_of_ne_nil (padded_ne_nil 4 year.natAbs)
    have hc : c.isDigit = true := isDigit_padded _ _ c (hdigits ▸ List.mem_cons_self)
    rw [if_pos hfour, trimLeft_digits (padded_ne_nil _ _) (isDigit_padded _ _)]
    split
    next heq =>
      rw [hdigits, List.cons_append] at heq
      obtain rfl := (List.cons.inj heq).1
      cases hc
    next heq =>
      rw [hdigits, List.cons_append] at heq
      obtain rfl := (List.cons.inj heq).1
      cases hc
    next =>
      refine bind_eq_ok_iff.2 ⟨_, hread, ?_⟩
      dsimp only
      rw [pure_bind]
      exact hbounds _ (by omega)
  · rw [if_neg hfour]
    -- any number of digits behind a sign
    by_cases hsign : year < 0
    · rw [if_pos hsign]
      refine bind_eq_ok_iff.2 ⟨_, hsigned, ?_⟩
      dsimp only
      rw [pure_bind]
      exact hbounds _ (by omega)
    · rw [if_neg hsign]
      refine bind_eq_ok_iff.2 ⟨_, hsigned, ?_⟩
      dsimp only
      rw [pure_bind]
      exact hbounds _ (by omega)

/-- A fraction of `width` digits counts in units of its last digit. -/
theorem readNano_padded (hwidth : 0 < width) (hle : width ≤ 9) (h : n < 10 ^ width) :
    readNano ('.' :: padded width n ++ 'Z' :: rest) =
      .ok (n * Nat.pow 10 (9 - width), 'Z' :: rest) := by
  have hlength := length_padded hwidth h
  have hend : ('Z' :: rest).head?.any Char.isDigit = false := rfl
  obtain ⟨htake, hdrop⟩ := Numeral.takeWhile_isDigit_append (isDigit_padded width n) hend
  -- no digit is left over
  have htaken : ((padded width n ++ 'Z' :: rest).takeWhile Char.isDigit).take 9 =
      padded width n := by
    rw [htake, List.take_of_length_le (by omega)]
  have hnumber := readNumber_append (some 9) (padded_ne_nil _ _) (isDigit_padded _ _) htaken
  rw [List.cons_append, readNano, hnumber]
  change Except.ok (digitsValue (((padded width n ++ 'Z' :: rest).takeWhile Char.isDigit).take 9) *
    Nat.pow 10 (9 - (((padded width n ++ 'Z' :: rest).takeWhile Char.isDigit).take 9).length),
    (padded width n ++ 'Z' :: rest).dropWhile Char.isDigit) = _
  rw [htaken, hdrop, digitsValue_padded, hlength]

theorem readNano_fractionText {nano : Nat} (h : nano < 1000000000) :
    readNano (fractionText nano ++ 'Z' :: rest) = .ok (nano, 'Z' :: rest) := by
  rw [fractionText]
  split
  next hzero =>
    rw [hzero]
    rfl
  next =>
    split
    next hmilli =>
      -- whole milliseconds
      rw [readNano_padded (by decide) (by decide) (by omega)]
      change Except.ok (nano / 1000000 * 1000000, 'Z' :: rest) = _
      rw [Nat.div_mul_cancel (Nat.dvd_of_mod_eq_zero hmilli)]
    next =>
      split
      next hmicro =>
        -- whole microseconds
        rw [readNano_padded (by decide) (by decide) (by omega)]
        change Except.ok (nano / 1000 * 1000, 'Z' :: rest) = _
        rw [Nat.div_mul_cancel (Nat.dvd_of_mod_eq_zero hmicro)]
      next =>
        rw [readNano_padded (by decide) (by decide) (by omega)]
        change Except.ok (nano * 1, 'Z' :: rest) = _
        rw [Nat.mul_one]

/-! ### Timestamps -/

theorem of?_eq_some (d : Date) : Date.of? d.year d.month d.day = some d := by
  rw [Date.of?, dif_pos d.year_mem, dif_pos d.month_mem, dif_pos d.day_mem]

/-- The local time of UTC itself is the time in UTC. -/
theorem ofLocal_utc (t : Timestamp) :
    ofLocal t.date t.hour t.minute t.second t.nano 0 = .ok t := by
  obtain ⟨date, hour, minute, second, nano, hhour, hminute, hsecond, hnano⟩ := t
  -- no minute is carried over to another day
  have htotal : ((hour : Int) * 60 + minute - 0) % (24 * 60) = hour * 60 + minute := by omega
  have hday : (if (hour : Int) * 60 + minute - 0 < 0 then date.previous?
      else if 24 * 60 ≤ (hour : Int) * 60 + minute - 0 then date.next? else some date) =
      some date := by
    rw [if_neg (by omega), if_neg (by omega)]
  simp only [ofLocal, hday, dif_pos hsecond, dif_pos hnano, htotal]
  congr
  · omega
  · omega

/-- A timestamp is read as it is written. -/
theorem read_text (t : Timestamp) : read t.text = .ok t := by
  have hmonth := t.date.month_mem
  have hday := t.date.day_mem
  have hdays : daysInMonth t.date.year t.date.month ≤ 31 := by
    unfold daysInMonth
    split
    · split <;> decide
    · split <;> decide
  have hhour := t.hour_lt
  have hminute := t.minute_lt
  have hsecond := t.second_le
  rw [read, text, String.toList_ofList]
  -- date and time part by part, each with the mark behind it
  simp only [List.append_assoc, List.cons_append]
  refine bind_eq_ok_iff.2 ⟨_, readYear_yearText t.date.year_mem _, ?_⟩
  refine bind_eq_ok_iff.2 ⟨_, rfl, bind_eq_ok_iff.2
    ⟨_, readPart_padded hmonth.1 hmonth.2 (by decide), ?_⟩⟩
  refine bind_eq_ok_iff.2 ⟨_, rfl, bind_eq_ok_iff.2
    ⟨_, readPart_padded hday.1 (hday.2.trans hdays) (by decide), ?_⟩⟩
  refine bind_eq_ok_iff.2 ⟨_, rfl, bind_eq_ok_iff.2
    ⟨_, readPart_padded (Nat.zero_le _) (Nat.le_of_lt_succ hhour) (by decide), ?_⟩⟩
  refine bind_eq_ok_iff.2 ⟨_, rfl, bind_eq_ok_iff.2
    ⟨_, readPart_padded (Nat.zero_le _) (Nat.le_of_lt_succ hminute) (by decide), ?_⟩⟩
  refine bind_eq_ok_iff.2 ⟨_, rfl, bind_eq_ok_iff.2
    ⟨_, readPart_padded (Nat.zero_le _) hsecond (by decide), ?_⟩⟩
  refine bind_eq_ok_iff.2 ⟨_, readNano_fractionText t.nano_lt, ?_⟩
  refine bind_eq_ok_iff.2 ⟨_, rfl, ?_⟩
  dsimp only
  -- the day is in the calendar, because it comes from a date
  rw [of?_eq_some]
  exact ofLocal_utc t

end TrustBoundary.Timestamp
