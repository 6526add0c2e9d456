import Mathlib.Tactic.Ring
import TrustBoundary.Decimal.Layout
import TrustBoundary.Proofs.Decimal.Numeral
import TrustBoundary.Proofs.Double.Packing

/-!
# What stands in the text of a double

The text of a double is a numeral, behind a minus sign if the double is negative
(`Decimal.exists_numeral`).  The digits before and behind the point are those of the shortest
decimal, with zeros around them where the number is written in full; so a reader that takes them as
one whole number with a power of ten gets that decimal back, or ten times its whole number of units
where the text ends in `.0` (`Decimal.asRead`).
-/

namespace TrustBoundary

theorem Numeral.fractionText_of_ne_nil {digits : List Char} (h : digits ≠ []) :
    fractionText digits = '.' :: digits := by
  obtain ⟨c, digits, rfl⟩ := List.exists_cons_of_ne_nil h
  rfl

namespace Decimal

/-! ### Digits of a number -/

/-- A positive number is not written with a zero in front. -/
theorem head?_toDigits_ne {n : ℕ} (h : 0 < n) : (Nat.toDigits 10 n).head? ≠ some '0' := by
  induction n using Nat.strongRecOn with
  | ind n ih =>
    rw [Nat.toDigits_eq_if (by decide)]
    split
    next hlt =>
      have hall : ∀ k : Fin 10, 0 < k.val → Nat.digitChar k.val ≠ '0' := by decide
      simpa using hall ⟨n, hlt⟩ h
    next hge =>
      -- the first digit is that of a tenth of the number
      have hhead := ih (n / 10) (by omega) (by omega)
      obtain ⟨c, digits, hdigits⟩ :=
        List.exists_cons_of_ne_nil (Nat.toDigits_ne_nil (n := n / 10) (b := 10))
      rw [hdigits] at hhead ⊢
      exact hhead

theorem isDigit_toDigits {n : ℕ} : ∀ c ∈ Nat.toDigits 10 n, c.isDigit = true :=
  fun _ hc => Nat.isDigit_of_mem_toDigits (by decide) (by decide) hc

theorem isDigit_replicate {k : ℕ} : ∀ c ∈ List.replicate k '0', c.isDigit = true :=
  fun _ hc => (List.eq_of_mem_replicate hc).symm ▸ rfl

theorem isDigit_zero : ∀ c ∈ ['0'], c.isDigit = true := isDigit_replicate (k := 1)

/-- Both parts of a list of digits are digits. -/
theorem isDigit_append {digits more : List Char} (h : ∀ c ∈ digits, c.isDigit = true)
    (hmore : ∀ c ∈ more, c.isDigit = true) : ∀ c ∈ digits ++ more, c.isDigit = true :=
  fun c hc => (List.mem_append.1 hc).elim (h c) (hmore c)

/-! ### Layouts -/

/-- The whole number and the power of ten that a reader takes out of the text of a decimal. -/
def asRead (d : Decimal) : ℕ × ℤ :=
  if 0 ≤ d.exponent ∧ d.exponent + (Nat.toDigits 10 d.digits).length ≤ 16 then
    (d.digits * Nat.pow 10 (d.exponent.toNat + 1), -1)
  else (d.digits, d.exponent)

section

variable {d : Decimal}

/-- The number of places before the point, if the decimal is written in full. -/
def places (d : Decimal) : ℤ := d.exponent + (Nat.toDigits 10 d.digits).length

/-- A decimal below one is written as zeros behind a point and its digits. -/
theorem IsWritable.exists_numeral_small (h : d.IsWritable) (hplaces : d.places ≤ 0) :
    ∃ n : Numeral, plain (Nat.toDigits 10 d.digits) d.places = n.text ∧ n.IsReadable ∧
      (n.significand, n.place) = d.asRead := by
  obtain ⟨-, hle, -, -⟩ := h
  have hlength : 0 < (Nat.toDigits 10 d.digits).length := Nat.length_toDigits_pos
  have hread : d.asRead = (d.digits, d.exponent) :=
    if_neg fun hwhole => by unfold places at hplaces; omega
  have hne : List.replicate (-d.places).toNat '0' ++ Nat.toDigits 10 d.digits ≠ [] :=
    List.append_ne_nil_of_right_ne_nil _ Nat.toDigits_ne_nil
  -- zeros in front of the digits do not change their number
  have hsignificand : Nat.ofDigitChars 10
      (['0'] ++ (List.replicate (-d.places).toNat '0' ++ Nat.toDigits 10 d.digits)) 0 =
      d.digits := by
    rw [Nat.ofDigitChars_append, Nat.ofDigitChars_append]
    change Nat.ofDigitChars 10 _ (Nat.ofDigitChars 10 _ 0) = _
    rw [Nat.ofDigitChars_replicate_zero, Nat.mul_zero, Nat.ofDigitChars_ten_toDigits]
  refine ⟨⟨['0'], List.replicate (-d.places).toNat '0' ++ Nat.toDigits 10 d.digits, none,
    List.cons_ne_nil _ _, isDigit_zero, isDigit_append isDigit_replicate isDigit_toDigits⟩,
    ?_, ?_, ?_⟩
  · -- the text
    rw [plain, if_pos hplaces, Numeral.text, Numeral.fractionText_of_ne_nil hne]
    simp
  · -- readable: a single zero in front of the point, and a number of 64 bits
    refine ⟨rfl, ?_, fun e he => absurd he (Option.not_mem_none e), .inl hne⟩
    rw [Numeral.significand, hsignificand]
    omega
  · -- the place of the last digit
    rw [hread, Numeral.significand, hsignificand, Numeral.place, Option.elim_none,
      List.length_append, List.length_replicate, Prod.mk.injEq]
    exact ⟨rfl, by unfold places at *; omega⟩

/-- A whole number is written with zeros behind its digits up to the point. -/
theorem IsWritable.exists_numeral_whole (h : d.IsWritable) (hexponent : 0 ≤ d.exponent)
    (hplaces : d.places ≤ 16) :
    ∃ n : Numeral, plain (Nat.toDigits 10 d.digits) d.places = n.text ∧ n.IsReadable ∧
      (n.significand, n.place) = d.asRead := by
  obtain ⟨hpos, -, -, -⟩ := h
  have hlength : 0 < (Nat.toDigits 10 d.digits).length := Nat.length_toDigits_pos
  have hread : d.asRead = (d.digits * Nat.pow 10 (d.exponent.toNat + 1), -1) :=
    if_pos ⟨hexponent, hplaces⟩
  -- every zero behind the digits makes their number ten times as large
  have hsignificand : Nat.ofDigitChars 10
      ((Nat.toDigits 10 d.digits ++ List.replicate d.exponent.toNat '0') ++ ['0']) 0 =
      d.digits * 10 ^ (d.exponent.toNat + 1) := by
    rw [Nat.ofDigitChars_append, Nat.ofDigitChars_append, Nat.ofDigitChars_ten_toDigits,
      Nat.ofDigitChars_replicate_zero, Nat.ofDigitChars_cons, Nat.ofDigitChars_nil]
    change 10 * _ + 0 = _
    ring
  have hne : Nat.toDigits 10 d.digits ++ List.replicate d.exponent.toNat '0' ≠ [] :=
    List.append_ne_nil_of_left_ne_nil Nat.toDigits_ne_nil _
  refine ⟨⟨_, ['0'], none, hne, isDigit_append isDigit_toDigits isDigit_replicate, isDigit_zero⟩,
    ?_, ?_, ?_⟩
  · have hzeros : d.places.toNat - (Nat.toDigits 10 d.digits).length = d.exponent.toNat := by
      unfold places
      omega
    rw [plain, if_neg (by unfold places; omega), if_pos (by unfold places; omega), hzeros,
      Numeral.text, Numeral.fractionText_cons, Option.elim_none, List.append_nil]
  · refine ⟨?_, ?_, fun e he => absurd he (Option.not_mem_none e), .inl (List.cons_ne_nil _ _)⟩
    · obtain ⟨c, digits, hdigits⟩ :=
        List.exists_cons_of_ne_nil (Nat.toDigits_ne_nil (n := d.digits) (b := 10))
      have hhead := head?_toDigits_ne hpos
      rw [hdigits, List.head?_cons, ne_eq, Option.some.injEq] at hhead
      simp [Numeral.hasNeedlessZero, hdigits, hhead]
    · rw [Numeral.significand, hsignificand]
      -- at most sixteen digits stand before the point and one behind it
      calc d.digits * 10 ^ (d.exponent.toNat + 1)
          < 10 ^ (Nat.toDigits 10 d.digits).length * 10 ^ (d.exponent.toNat + 1) :=
            Nat.mul_lt_mul_of_pos_right (lt_pow_length_toDigits _) (by positivity)
        _ = 10 ^ ((Nat.toDigits 10 d.digits).length + (d.exponent.toNat + 1)) :=
            (Nat.pow_add _ _ _).symm
        _ ≤ 10 ^ 17 := Nat.pow_le_pow_right (by decide) (by unfold places at hplaces; omega)
        _ < 0x10000000000000000 := by decide
  · rw [hread, Numeral.significand, hsignificand, Numeral.place]
    rfl

/-- Otherwise the point stands among the digits. -/
theorem IsWritable.exists_numeral_mixed (h : d.IsWritable) (hplaces : 0 < d.places)
    (hexponent : d.exponent < 0) :
    ∃ n : Numeral, plain (Nat.toDigits 10 d.digits) d.places = n.text ∧ n.IsReadable ∧
      (n.significand, n.place) = d.asRead := by
  obtain ⟨hpos, hle, -, -⟩ := h
  have hread : d.asRead = (d.digits, d.exponent) := if_neg fun hwhole => by omega
  -- the point leaves digits on both of its sides
  have hlength : d.places.toNat < (Nat.toDigits 10 d.digits).length := by
    unfold places at *
    omega
  have hwhole : (Nat.toDigits 10 d.digits).take d.places.toNat ≠ [] := by
    refine List.ne_nil_of_length_pos ?_
    rw [List.length_take]
    omega
  have hfraction : (Nat.toDigits 10 d.digits).drop d.places.toNat ≠ [] := by
    refine List.ne_nil_of_length_pos ?_
    rw [List.length_drop]
    omega
  refine ⟨⟨(Nat.toDigits 10 d.digits).take d.places.toNat,
    (Nat.toDigits 10 d.digits).drop d.places.toNat, none, hwhole,
    fun c hc => isDigit_toDigits c (List.mem_of_mem_take hc),
    fun c hc => isDigit_toDigits c (List.mem_of_mem_drop hc)⟩, ?_, ?_, ?_⟩
  · rw [plain, if_neg (by omega), if_neg (by omega), Numeral.text,
      Numeral.fractionText_of_ne_nil hfraction, Option.elim_none, List.append_nil]
  · refine ⟨?_, ?_, fun e he => absurd he (Option.not_mem_none e), .inl hfraction⟩
    · have hhead := head?_toDigits_ne hpos
      rw [Numeral.hasNeedlessZero, List.head?_take, if_neg (by omega)]
      simp [hhead]
    · -- both sides together are the digits
      rw [Numeral.significand, List.take_append_drop, Nat.ofDigitChars_ten_toDigits]
      omega
  · rw [hread, Numeral.significand, List.take_append_drop, Nat.ofDigitChars_ten_toDigits,
      Numeral.place, Option.elim_none, List.length_drop, Prod.mk.injEq]
    exact ⟨rfl, by unfold places at *; omega⟩

/-- The exponent behind the first digit and its fraction. -/
def exponentOf (leading : ℤ) : Numeral.Exponent where
  mark := 'e'
  sign := [if leading < 0 then '-' else '+']
  digits := Nat.toDigits 10 leading.natAbs
  mark_mem := .inl rfl
  sign_mem := by split <;> decide
  digits_ne_nil := Nat.toDigits_ne_nil
  isDigit_digits := isDigit_toDigits

@[simp] theorem value_exponentOf (leading : ℤ) : (exponentOf leading).value = leading := by
  rw [Numeral.Exponent.value, Numeral.Exponent.magnitude]
  simp only [exponentOf, Nat.ofDigitChars_ten_toDigits]
  by_cases hsign : leading < 0
  · rw [if_pos hsign, if_pos rfl]
    omega
  · rw [if_neg hsign, if_neg (by decide)]
    omega

/-- A very small or large decimal is written with one digit before the point and an exponent. -/
theorem IsWritable.exists_numeral_scientific (h : d.IsWritable)
    (hleading : d.places - 1 < -5 ∨ 15 < d.places - 1) :
    ∃ n : Numeral, scientific (Nat.toDigits 10 d.digits) (d.places - 1) = n.text ∧
      n.IsReadable ∧ (n.significand, n.place) = d.asRead := by
  obtain ⟨hpos, hle, hlow, hhigh⟩ := h
  have hlength : 0 < (Nat.toDigits 10 d.digits).length := Nat.length_toDigits_pos
  have hlength' : (Nat.toDigits 10 d.digits).length ≤ 19 :=
    (Nat.length_toDigits_le_iff (by decide) (by decide)).2 (by omega)
  have hread : d.asRead = (d.digits, d.exponent) :=
    if_neg fun hwhole => by unfold places at hleading; omega
  have hwhole : (Nat.toDigits 10 d.digits).take 1 ≠ [] := by
    refine List.ne_nil_of_length_pos ?_
    rw [List.length_take]
    omega
  refine ⟨⟨_, (Nat.toDigits 10 d.digits).drop 1, some (exponentOf (d.places - 1)), hwhole,
    fun c hc => isDigit_toDigits c (List.mem_of_mem_take hc),
    fun c hc => isDigit_toDigits c (List.mem_of_mem_drop hc)⟩, ?_, ?_, ?_⟩
  · rw [scientific, Numeral.text]
    dsimp only [Option.elim_some, exponentOf, Numeral.Exponent.text, List.cons_append,
      List.nil_append]
    -- the point is written only in front of a fraction
    by_cases hone : (Nat.toDigits 10 d.digits).length ≤ 1
    · rw [if_pos hone, List.drop_eq_nil_of_le hone]
      simp [Numeral.fractionText]
    · have hfraction : (Nat.toDigits 10 d.digits).drop 1 ≠ [] := by
        refine List.ne_nil_of_length_pos ?_
        rw [List.length_drop]
        omega
      rw [if_neg hone, Numeral.fractionText_of_ne_nil hfraction, List.append_assoc]
  · refine ⟨?_, ?_, ?_, .inr (Option.some_ne_none _)⟩
    · -- one digit before the point is never a needless zero
      rw [Numeral.hasNeedlessZero, List.length_take, Nat.min_eq_left hlength]
      exact Bool.and_false _
    · rw [Numeral.significand, List.take_append_drop, Nat.ofDigitChars_ten_toDigits]
      omega
    · -- the exponent is small, because the digits and their power of ten are
      rintro e he
      obtain rfl := Option.mem_some.1 he
      rw [Numeral.Exponent.magnitude, exponentOf, Nat.ofDigitChars_ten_toDigits, Json.exponentLimit]
      unfold places
      omega
  · rw [hread, Numeral.significand, List.take_append_drop, Nat.ofDigitChars_ten_toDigits,
      Numeral.place, Option.elim_some, value_exponentOf, List.length_drop, Prod.mk.injEq]
    exact ⟨rfl, by unfold places; omega⟩

theorem write_standard (d : Decimal) :
    write .standard d = if -4 ≤ d.places ∧ d.places ≤ 16 then
      plain (Nat.toDigits 10 d.digits) d.places
    else scientific (Nat.toDigits 10 d.digits) (d.places - 1) := by
  have hplaces : d.exponent + (Nat.toDigits 10 d.digits).length - 1 + 1 = d.places :=
    Int.sub_add_cancel _ _
  rw [write, hplaces]
  refine if_congr ?_ rfl rfl
  change -5 ≤ _ ∧ _ ≤ (15 : ℤ) ↔ _
  omega

/-- A decimal is written as a numeral. -/
theorem IsWritable.exists_numeral (h : d.IsWritable) :
    ∃ n : Numeral, write .standard d = n.text ∧ n.IsReadable ∧
      (n.significand, n.place) = d.asRead := by
  rw [write_standard]
  by_cases hfull : -4 ≤ d.places ∧ d.places ≤ 16
  · rw [if_pos hfull]
    by_cases hsmall : d.places ≤ 0
    · exact h.exists_numeral_small hsmall
    · by_cases hexponent : d.exponent < 0
      · exact h.exists_numeral_mixed (by omega) hexponent
      · exact h.exists_numeral_whole (by omega) hfull.2
  · rw [if_neg hfull]
    exact h.exists_numeral_scientific (by omega)

end

/-! ### Doubles -/

/-- The sign in front of the text of a double. -/
def signOf (x : Float) : List Char := if x.toBits.toNat < 0x8000000000000000 then [] else ['-']

theorem signOf_cases (x : Float) : signOf x = [] ∨ signOf x = ['-'] := by
  unfold signOf
  split
  · exact .inl rfl
  · exact .inr rfl

/-- The whole number and the power of ten that a reader takes out of the text of a double. -/
def floatAsRead (x : Float) : ℕ × ℤ :=
  let magnitude := Binary.ofFloat x
  if magnitude.significand = 0 then (0, -1) else magnitude.shortest.asRead

/-- A finite double is written as a numeral behind its sign. -/
theorem exists_numeral {x : Float} (hfinite : x.isFinite = true) :
    ∃ n : Numeral, ofFloat x = signOf x ++ n.text ∧ n.IsReadable ∧
      (n.significand, n.place) = floatAsRead x := by
  unfold ofFloat floatAsRead
  dsimp only
  split
  next hzero =>
    refine ⟨⟨['0'], ['0'], none, List.cons_ne_nil _ _, isDigit_zero, isDigit_zero⟩, rfl, ?_, rfl⟩
    exact ⟨rfl, by decide, fun e he => absurd he (Option.not_mem_none e),
      .inl (List.cons_ne_nil _ _)⟩
  next hne =>
    obtain ⟨n, htext, hreadable, hparts⟩ :=
      (isDouble_ofFloat hfinite hne).isWritable_shortest.exists_numeral
    exact ⟨n, by rw [htext, signOf], hreadable, hparts⟩

end Decimal

end TrustBoundary
