import TrustBoundary.Json.Skipping
import TrustBoundary.Proofs.Json.Members
import TrustBoundary.Proofs.Json.Whole
import TrustBoundary.Record.Scalar

/-!
# Scalars are stepped over as they are printed

Who does not ask for a value steps over it (`skipValue`), and does so to the end of what is printed
for a scalar (`reads_stepOver`).  No number is built on the way, so this holds of every double, also
of one whose text is read as another number or as none.  The names of an object are read in this way
without the values, in the order in which they stand in the text (`memberNames_text`).
-/

namespace TrustBoundary.Json

open Numeral

variable {c : Char} {cs rest : List Char}

/-! ### Strings -/

/-- What is written for a character is stepped over together. -/
theorem skipString_escapedChar (c : Char) (rest : List Char) :
    skipString (escapedChar c ++ rest) = skipString rest := by
  obtain ⟨hc, hquote, hslash, hcontrol⟩ | ⟨letter, hc, hletter⟩ | ⟨hc, hlt⟩ := escapedChar_cases c
  · rw [hc, List.singleton_append, skipString.eq_def]
    simp only [if_neg hquote, if_neg hslash, if_neg hcontrol]
  · -- the letter is none that numbers follow
    have hu : letter ≠ 'u' := by
      rintro rfl
      cases hletter
    rw [hc, List.cons_append, List.singleton_append, skipString.eq_def]
    dsimp only
    rw [if_neg (by decide), if_pos rfl]
    split
    case h_4 letter' _ _ _ heq =>
      obtain ⟨rfl, rfl⟩ := List.cons.inj heq
      rw [hletter]
    all_goals simp_all
  · rw [hc]
    simp only [List.cons_append, List.nil_append]
    rw [skipString, if_neg (by decide), if_pos rfl, unit?_of_lt hlt]

/-- A string is stepped over up to the quotation mark that ends it. -/
theorem skipString_escaped (content rest : List Char) :
    skipString (content.flatMap escapedChar ++ '"' :: rest) = .ok rest := by
  induction content with
  | nil =>
    rw [List.flatMap_nil, List.nil_append, skipString.eq_def]
    rfl
  | cons c content ih => rw [List.flatMap_cons, List.append_assoc, skipString_escapedChar, ih]

/-! ### Numbers -/

theorem skipExponent_text (e : Exponent) (hend : rest.head?.any Char.isDigit = false) :
    skipExponent (e.sign ++ (e.digits ++ rest)) = .ok rest := by
  obtain ⟨mark, sign, digits, -, hsign, hne, hdigits⟩ := e
  obtain ⟨c, digits, rfl⟩ := List.exists_cons_of_ne_nil hne
  have hc : c.isDigit = true := hdigits c List.mem_cons_self
  have hdrop : (digits ++ rest).dropWhile Char.isDigit = rest :=
    (takeWhile_isDigit_append (fun d hd => hdigits d (List.mem_cons_of_mem c hd)) hend).2
  rcases hsign with rfl | rfl | rfl
  · -- without a sign the first digit must not be taken for one
    have hminus : c ≠ '-' := by
      rintro rfl
      cases hc
    have hplus : c ≠ '+' := by
      rintro rfl
      cases hc
    rw [List.nil_append, List.cons_append, skipExponent]
    · rw [hc, if_pos rfl, hdrop]
    · exact fun _ h => hminus (List.cons.inj h).1
    · exact fun _ h => hplus (List.cons.inj h).1
  · simp only [List.cons_append, List.nil_append, skipExponent, hc, if_true, hdrop]
  · simp only [List.cons_append, List.nil_append, skipExponent, hc, if_true, hdrop]

/-- An exponent behind digits is stepped over, and what is no exponent is left. -/
theorem skipTail_exponent (exponent : Option Exponent) (hrest : EndsBefore rest) :
    skipTail (exponent.elim [] Exponent.text ++ rest) = .ok rest := by
  cases exponent with
  | none =>
    rw [Option.elim_none, List.nil_append, skipTail]
    · exact fun _ h => (hrest.head_ne h).2.1 rfl
    · exact fun _ h => (hrest.head_ne h).2.2 rfl
  | some e =>
    have hskip := skipExponent_text e hrest.head?_any_isDigit
    rw [Option.elim_some, Exponent.text, List.cons_append, List.append_assoc]
    obtain hmark | hmark := e.mark_mem
    · rw [hmark, skipTail, hskip]
    · rw [hmark, skipTail, hskip]

/-- Digits before the point are stepped over up to what is no digit; behind a zero there are
none. -/
theorem skip_digits {digits : List Char} (hzero : c = '0' → digits = [])
    (hdigits : ∀ d ∈ digits, d.isDigit = true) (hend : rest.head?.any Char.isDigit = false) :
    (if c = '0' then digits ++ rest else (digits ++ rest).dropWhile Char.isDigit) = rest := by
  split
  next h0 => rw [hzero h0, List.nil_append]
  next => exact (takeWhile_isDigit_append hdigits hend).2

/-- A numeral without a needless zero is stepped over as a whole. -/
theorem skipNumeral_text {n : Numeral} (hzero : n.hasNeedlessZero = false)
    (hrest : EndsBefore rest) : skipNumeral (n.text ++ rest) = .ok rest := by
  obtain ⟨whole, fraction, exponent, hne, hwhole, hfraction⟩ := n
  obtain ⟨c, whole, rfl⟩ := List.exists_cons_of_ne_nil hne
  have hlone : c = '0' → whole = [] := eq_nil_of_hasNeedlessZero hzero rfl
  have hend := hrest.head?_any_tail fraction exponent
  have hneedless := not_needlessZero hlone hend
  -- the digits before the point
  -- the fraction, up to the exponent
  have hdrop := skip_digits hlone (fun d hd => hwhole d (List.mem_cons_of_mem c hd)) hend
  have htail := skipTail_exponent exponent hrest
  rw [text, List.append_assoc, List.append_assoc, List.cons_append, skipNumeral,
    if_pos (hwhole c List.mem_cons_self), if_neg hneedless, hdrop]
  cases fraction with
  | cons d fraction =>
    have hd : d.isDigit = true := hfraction d List.mem_cons_self
    have hend' : (exponent.elim [] Exponent.text ++ rest).head?.any Char.isDigit = false :=
      hrest.head?_any_tail [] exponent
    have hrun : (d :: (fraction ++ (exponent.elim [] Exponent.text ++ rest))).dropWhile
        Char.isDigit = exponent.elim [] Exponent.text ++ rest :=
      (takeWhile_isDigit_append hfraction hend').2
    rw [fractionText_cons, List.cons_append, List.cons_append]
    refine (if_pos hd).trans ?_
    rw [hrun, htail]
  | nil =>
    rw [fractionText, List.nil_append]
    split
    next heq =>
      -- no point follows the digits
      cases exponent with
      | none => exact absurd rfl (hrest.head_ne heq).1
      | some e =>
        obtain ⟨hmark, -⟩ := List.cons.inj heq
        obtain he | he := e.mark_mem
        · exact absurd (he.symm.trans hmark) (by decide)
        · exact absurd (he.symm.trans hmark) (by decide)
    next => exact htail

/-! ### Values -/

theorem skipValue_quote (cs : List Char) : skipValue ('"' :: cs) = skipString cs := by
  change (skipString cs >>= fun rest => .ok rest) = skipString cs
  cases skipString cs <;> rfl

theorem skipValue_minus (cs : List Char) : skipValue ('-' :: cs) = skipNumeral cs := by
  change (skipNumeral cs >>= fun rest => .ok rest) = skipNumeral cs
  cases skipNumeral cs <;> rfl

theorem skipValue_digit (hc : c.isDigit = true) (cs : List Char) :
    skipValue (c :: cs) = skipNumeral (c :: cs) := by
  obtain ⟨hgap, hn, ht, hf, hminus⟩ := isDigit_ne hc
  rw [skipValue, skipThrough, skipGap_cons hgap]
  dsimp only
  rw [if_neg hn, if_neg ht, if_neg hf, if_neg hminus, if_pos hc]
  cases skipNumeral (c :: cs) <;> rfl

/-- A numeral is stepped over behind a minus sign or none. -/
theorem skipValue_numeral {n : Numeral} (hzero : n.hasNeedlessZero = false) {sign : List Char}
    (hsign : sign = [] ∨ sign = ['-']) (hrest : EndsBefore rest) :
    skipValue (sign ++ n.text ++ rest) = .ok rest := by
  rw [← skipNumeral_text hzero hrest]
  rcases hsign with rfl | rfl
  · obtain ⟨c, whole, hwhole⟩ := List.exists_cons_of_ne_nil n.whole_ne_nil
    rw [List.nil_append, text, hwhole, List.cons_append, List.cons_append]
    exact skipValue_digit (n.isDigit_whole c (hwhole ▸ List.mem_cons_self)) _
  · exact skipValue_minus _

theorem skipValue_wholeText (n : ℤ) (hrest : EndsBefore rest) :
    skipValue (Number.wholeText n ++ rest) = .ok rest := by
  obtain ⟨digits, htext, hzero, -⟩ := exists_numeral_toDigits n.natAbs
  unfold Number.wholeText
  rw [← htext]
  split
  next => exact skipValue_numeral hzero (.inr rfl) hrest
  next => exact skipValue_numeral hzero (.inl rfl) hrest

theorem skipValue_ofFloat {x : Float} (hfinite : x.isFinite = true) (hrest : EndsBefore rest) :
    skipValue (Decimal.ofFloat x ++ rest) = .ok rest := by
  obtain ⟨n, htext, hreadable, -⟩ := Decimal.exists_numeral hfinite
  rw [htext]
  exact skipValue_numeral hreadable.hasNeedlessZero_eq_false (Decimal.signOf_cases x) hrest

theorem skipValue_number (n : Number) (hrest : EndsBefore rest) :
    skipValue (n.text ++ rest) = .ok rest := by
  cases n with
  | whole n _ => exact skipValue_wholeText n hrest
  | float x hfinite => exact skipValue_ofFloat hfinite hrest

/-- Reads a value by stepping over it. -/
def stepOver : Decoder Unit := fun cs => (skipValue cs).map fun rest => ((), rest)

/-- What is printed for a scalar is stepped over. -/
theorem reads_stepOver (v : Scalar) : stepOver.Reads v.toValue () := by
  intro rest hrest
  have hskip : skipValue (v.toValue.chars ++ rest) = .ok rest := by
    cases v with
    | null => rfl
    | bool b => cases b <;> rfl
    | number n => exact skipValue_number n hrest
    | text s =>
      rw [Scalar.toValue, Value.chars, stringText, List.cons_append, List.append_assoc,
        skipValue_quote]
      exact skipString_escaped s.toList rest
  rw [stepOver, hskip]
  rfl

/-! ### Names -/

/-- The names of the object in a text, in the order in which its members stand there. -/
def memberNames (text : String) : Except Error (List String) :=
  (Decoder.map (List.map Prod.fst) (membersDecoder stepOver)).run text

/-- In what is printed for scalars under names these names are found, in their order. -/
theorem memberNames_text (fs : Fields Scalar) :
    memberNames (Value.ofFields (fs.map fun _ v => v.toValue)).text = .ok fs.names := by
  have hreads : (membersDecoder stepOver).Reads (Value.ofFields (fs.map fun _ v => v.toValue))
      (fs.toList.map fun e => (e.1, ())) := by
    apply reads_membersDecoder
    rw [Fields.toList_map, List.forall₂_map_left_iff, List.forall₂_map_right_iff,
      List.forall₂_same]
    exact fun e _ => ⟨rfl, reads_stepOver e.2⟩
  rw [memberNames, Decoder.run_map, hreads.run, Fields.names]
  exact congrArg Except.ok List.map_map

end TrustBoundary.Json
