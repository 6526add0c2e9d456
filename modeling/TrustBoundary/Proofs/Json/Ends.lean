import Mathlib.Tactic.SplitIfs
import TrustBoundary.Proofs.Decimal.SignedNumeral
import TrustBoundary.Proofs.Json.Contents
import TrustBoundary.Proofs.Json.Members
import TrustBoundary.Proofs.Json.Scalars

/-!
# What readers leave of a text

A reader leaves an end of the text that it is given (`Decoder.LeavesEnd`).  A number is taken off
characters of numerals and no others (`numeralBefore_of_readNumeral`), a string ends at a quotation
mark, and lists and objects follow at any depth (`Value.leavesEnd_decoder`).  So every member that
is read from an object stands somewhere in the text: its name behind a quotation mark, a colon, its
value, and then what continues or ends the object (`exists_memberAt`).
-/

namespace TrustBoundary.Json

open Numeral

variable {α β σ : Type} {cs rest : List Char}

/-! ### Numbers -/

/-- Whether a text has the end `rest`, and only characters of numerals stand in front of that. -/
def NumeralBefore (rest cs : List Char) : Prop :=
  ∃ word, (∀ c ∈ word, isNumeralChar c = true) ∧ cs = word ++ rest

namespace NumeralBefore

theorem refl (cs : List Char) : NumeralBefore cs cs := ⟨[], by simp, rfl⟩

theorem cons {c : Char} (hc : isNumeralChar c = true) (h : NumeralBefore rest cs) :
    NumeralBefore rest (c :: cs) := by
  obtain ⟨word, hword, rfl⟩ := h
  exact ⟨c :: word, List.forall_mem_cons.2 ⟨hc, hword⟩, rfl⟩

theorem cons_digit {c : Char} (hc : c.isDigit = true) (h : NumeralBefore rest cs) :
    NumeralBefore rest (c :: cs) :=
  h.cons (isNumeralChar_of_isDigit hc)

theorem trans {tail : List Char} (h : NumeralBefore tail rest) (h' : NumeralBefore rest cs) :
    NumeralBefore tail cs := by
  obtain ⟨word, hword, rfl⟩ := h
  obtain ⟨word', hword', rfl⟩ := h'
  exact ⟨word' ++ word, List.forall_mem_append.2 ⟨hword', hword⟩, by rw [List.append_assoc]⟩

theorem dropWhile_isDigit (cs : List Char) : NumeralBefore (cs.dropWhile Char.isDigit) cs :=
  ⟨cs.takeWhile Char.isDigit, fun _ hc => isNumeralChar_of_isDigit (List.mem_takeWhile_imp hc),
    List.takeWhile_append_dropWhile.symm⟩

end NumeralBefore

theorem numeralBefore_collectWhole (n : Nat) (cs : List Char) :
    NumeralBefore (collectWhole n cs).2.2 cs := by
  fun_induction collectWhole n cs with
  | case1 => exact .refl []
  | case2 n c rest hc m hm ih => exact ih.cons_digit hc
  | case3 n c rest hc hm => exact .dropWhile_isDigit (c :: rest)
  | case4 n c rest hc => exact .refl (c :: rest)

theorem numeralBefore_collectFraction (n taken : Nat) (cs : List Char) :
    NumeralBefore (collectFraction n taken cs).2.2 cs := by
  fun_induction collectFraction n taken cs with
  | case1 => exact .refl []
  | case2 n taken c rest hc m hm ih => exact ih.cons_digit hc
  | case3 n taken c rest hc hm => exact .dropWhile_isDigit (c :: rest)
  | case4 n taken c rest hc => exact .refl (c :: rest)

theorem numeralBefore_collectExponent (n : Nat) (cs : List Char) :
    NumeralBefore (collectExponent n cs).2 cs := by
  fun_induction collectExponent n cs with
  | case1 => exact .refl []
  | case2 n c rest hc m hm ih => exact ih.cons_digit hc
  | case3 n c rest hc m hm => exact (NumeralBefore.refl rest).cons_digit hc
  | case4 n c rest hc => exact .refl (c :: rest)

variable {negative : Bool} {significand dropped : Nat} {exponent : Int} {n : Number}

theorem eq_of_scaledNumber (h : scaledNumber negative significand exponent cs = .ok (n, rest)) :
    rest = cs := by
  rw [scaledNumber] at h
  split at h
  · exact (Prod.mk.inj (Except.ok.inj h)).2.symm
  · cases h

theorem eq_of_plainNumber (h : plainNumber negative significand dropped cs = .ok (n, rest)) :
    rest = cs := by
  rw [plainNumber] at h
  split at h
  · exact (Prod.mk.inj (Except.ok.inj h)).2.symm
  · exact eq_of_scaledNumber h

theorem numeralBefore_of_readExponent
    (h : readExponent negative significand exponent cs = .ok (n, rest)) :
    NumeralBefore rest cs := by
  unfold readExponent at h
  dsimp only at h
  split at h
  · cases h
  next c digits hsign =>
    -- a sign is a character of numerals, too
    have hdigits : NumeralBefore (c :: digits) cs := by
      split at hsign
      next => exact hsign ▸ (NumeralBefore.refl _).cons rfl
      next => exact hsign ▸ (NumeralBefore.refl _).cons rfl
      next => exact hsign ▸ .refl _
    refine .trans ?_ hdigits
    split at h
    next hc =>
      -- the digits fit, or those that do not are passed over
      have hcollect := numeralBefore_collectExponent (digitValue c) digits
      split at h
      next e tail heq =>
        rw [heq] at hcollect
        obtain rfl := eq_of_scaledNumber h
        exact hcollect.cons_digit hc
      next tail heq =>
        rw [heq] at hcollect
        split_ifs at h
        · cases h
        · obtain rfl := eq_of_scaledNumber h
          exact ((NumeralBefore.dropWhile_isDigit tail).trans hcollect).cons_digit hc
    next => cases h

theorem numeralBefore_of_readTail
    (h : readTail negative significand exponent cs = .ok (n, rest)) : NumeralBefore rest cs := by
  rw [readTail.eq_def] at h
  split at h
  next => exact (numeralBefore_of_readExponent h).cons rfl
  next => exact (numeralBefore_of_readExponent h).cons rfl
  next =>
    obtain rfl := eq_of_scaledNumber h
    exact .refl _

theorem numeralBefore_of_readFraction
    (h : readFraction negative significand exponent cs = .ok (n, rest)) :
    NumeralBefore rest cs := by
  rw [readFraction.eq_def] at h
  split at h
  · cases h
  next c tail =>
    split at h
    · exact (numeralBefore_of_readTail h).trans (numeralBefore_collectFraction _ _ _)
    · cases h

/-- A number is read off characters of numerals. -/
theorem numeralBefore_of_readNumeral (h : readNumeral negative cs = .ok (n, rest)) :
    NumeralBefore rest cs := by
  rw [readNumeral.eq_def] at h
  split at h
  · cases h
  next c tail =>
    split at h
    next hc =>
      split at h
      · cases h
      dsimp only at h
      -- behind the first digit, a zero or not, come the other digits before the point
      have htail : NumeralBefore (if c = '0' then (0, 0, tail)
          else collectWhole (digitValue c) tail).2.2 tail := by
        split
        · exact .refl tail
        · exact numeralBefore_collectWhole _ _
      refine NumeralBefore.cons_digit hc (.trans ?_ htail)
      split at h
      next heq => exact heq ▸ (numeralBefore_of_readFraction h).cons rfl
      next heq => exact heq ▸ (numeralBefore_of_readExponent h).cons rfl
      next heq => exact heq ▸ (numeralBefore_of_readExponent h).cons rfl
      next =>
        obtain rfl := eq_of_plainNumber h
        exact .refl _
    next => cases h

/-- What is left ends a numeral at the latest where something else begins. -/
theorem NumeralBefore.exists_of_append {word : List Char} {c : Char}
    (hword : ∀ d ∈ word, isNumeralChar d = true) (hc : isNumeralChar c = false) {tail : List Char}
    (h : NumeralBefore rest (word ++ c :: tail)) :
    ∃ left, (∀ d ∈ left, isNumeralChar d = true) ∧ rest = left ++ c :: tail := by
  obtain ⟨taken, htaken, heq⟩ := h
  obtain ⟨left, rfl, hrest⟩ | ⟨beyond, rfl, hbeyond⟩ := List.append_eq_append_iff.1 heq
  · cases left with
    | nil => exact ⟨[], by simp, hrest.symm⟩
    | cons d left =>
      -- the reader would have taken what is no part of a numeral
      obtain ⟨rfl, -⟩ := List.cons.inj hrest
      rw [htaken c (List.mem_append_right _ List.mem_cons_self)] at hc
      cases hc
  · exact ⟨beyond, fun d hd => hword d (List.mem_append_right _ hd), hbeyond⟩

theorem ne_of_isNumeralChar {c d : Char} (hc : isNumeralChar c = true)
    (hd : isNumeralChar d = false) : c ≠ d := by
  rintro rfl
  rw [hc] at hd
  cases hd

theorem skipGap_of_isNumeralChar {c : Char} (hc : isNumeralChar c = true) (rest : List Char) :
    skipGap (c :: rest) = c :: rest := by
  refine skipGap_cons ?_ rest
  simp only [isGap, Bool.or_eq_false_iff, beq_eq_false_iff_ne]
  exact ⟨⟨⟨ne_of_isNumeralChar hc rfl, ne_of_isNumeralChar hc rfl⟩, ne_of_isNumeralChar hc rfl⟩,
    ne_of_isNumeralChar hc rfl⟩

/-- An object does not go on with a character of numerals. -/
theorem nextMember_of_isNumeralChar {c : Char} (hc : isNumeralChar c = true) (rest : List Char) :
    nextMember false (c :: rest) = stopAt .expectedObjectCommaOrEnd (c :: rest) := by
  rw [nextMember, skipGap_of_isNumeralChar hc]
  split
  next heq => cases heq
  next heq => exact absurd (List.cons.inj heq).1 (ne_of_isNumeralChar hc rfl)
  next heq =>
    obtain ⟨rfl, rfl⟩ := List.cons.inj heq
    rw [if_neg Bool.false_ne_true, if_neg (ne_of_isNumeralChar hc rfl)]

/-- No name begins with a character of numerals. -/
theorem nextMember_comma {c : Char} (hc : isNumeralChar c = true) (rest : List Char) :
    nextMember false (',' :: c :: rest) = stopAt .nameNotString (c :: rest) := by
  rw [nextMember, skipGap_cons (by rfl)]
  split
  next heq => cases heq
  next heq => exact absurd (List.cons.inj heq).1 (by decide)
  next heq =>
    obtain ⟨rfl, rfl⟩ := List.cons.inj heq
    rw [if_neg Bool.false_ne_true, if_pos rfl, skipGap_of_isNumeralChar hc]
    split
    next heq => cases heq
    next heq => exact absurd (List.cons.inj heq).1 (ne_of_isNumeralChar hc rfl)
    next heq => exact absurd (List.cons.inj heq).1 (ne_of_isNumeralChar hc rfl)
    next => rfl

/-- An object goes on only where a numeral has ended. -/
theorem eq_nil_of_nextMember {left : List Char} (hleft : ∀ d ∈ left, isNumeralChar d = true)
    {next : Next} (h : nextMember false (left ++ rest) = .ok next) : left = [] := by
  cases left with
  | nil => rfl
  | cons d left =>
    rw [List.cons_append, nextMember_of_isNumeralChar (hleft d List.mem_cons_self)] at h
    cases h

/-- A numeral is read as a number from behind its sign. -/
theorem Value.decoderWith_text (inner : Option (Decoder Value)) (n : SignedNumeral)
    (rest : List Char) : decoderWith inner (n.text ++ rest) =
      Decoder.map .number (readNumeral n.isNegative) (n.numeral.text ++ rest) := by
  obtain ⟨isNegative, n⟩ := n
  have hreads : ReadsNumeral (SignedNumeral.text ⟨isNegative, n⟩ ++ rest)
      (readNumeral isNegative (n.text ++ rest)) := by
    cases isNegative with
    | true => exact .inl ⟨n.text ++ rest, rfl, rfl⟩
    | false =>
      -- without a sign the reader is told the kind of the value by a digit
      obtain ⟨c, whole, hwhole⟩ := List.exists_cons_of_ne_nil n.whole_ne_nil
      have htext : n.text = c :: (whole ++ (fractionText n.fraction ++
          n.exponent.elim [] Exponent.text)) := by
        rw [Numeral.text, hwhole]
        rfl
      exact .inr ⟨c, _, congrArg (· ++ rest) htext,
        n.isDigit_whole c (hwhole ▸ List.mem_cons_self), by rw [htext]; rfl⟩
  exact hreads.decoderWith_eq inner

/-! ### What a reader leaves -/

/-- Whether a reader always leaves an end of the text. -/
def Decoder.LeavesEnd (d : Decoder α) : Prop := ∀ ⦃cs a rest⦄, d cs = .ok (a, rest) → rest <:+ cs

theorem skipGap_suffix (cs : List Char) : skipGap cs <:+ cs := List.dropWhile_suffix isGap

theorem suffix_of_skipGap_eq {c : Char} (h : skipGap cs = c :: rest) : rest <:+ cs :=
  (List.suffix_cons c rest).trans (h ▸ skipGap_suffix cs)

theorem suffix_of_literal {word : List Char} (h : literal word cs = .ok rest) : rest <:+ cs := by
  induction word generalizing cs with
  | nil =>
    obtain rfl := Except.ok.inj h
    exact List.suffix_rfl
  | cons w word ih =>
    cases cs with
    | nil => cases h
    | cons c cs =>
      rw [literal] at h
      split at h
      · exact (ih h).trans (List.suffix_cons c cs)
      · cases h

theorem leavesEnd_literal (word : List Char) (a : α) :
    Decoder.LeavesEnd fun cs => (literal word cs).map fun rest => (a, rest) := by
  intro cs b rest h
  dsimp only at h
  cases hword : literal word cs with
  | error fault =>
    rw [hword] at h
    cases h
  | ok tail =>
    rw [hword] at h
    obtain ⟨-, rfl⟩ := Prod.mk.inj (Except.ok.inj h)
    exact suffix_of_literal hword

theorem skipGap_of_colon (h : colon cs = .ok rest) : skipGap cs = ':' :: rest := by
  rw [colon] at h
  split at h
  · cases h
  next heq =>
    obtain rfl := Except.ok.inj h
    exact heq
  next => cases h

theorem leavesEnd_readString : Decoder.LeavesEnd readString := by
  intro cs s rest h
  obtain ⟨content, -, rfl, -⟩ := exists_of_readString h
  exact (List.suffix_cons '"' rest).trans (List.suffix_append content _)

theorem leavesEnd_readNumeral (negative : Bool) : Decoder.LeavesEnd (readNumeral negative) := by
  intro cs n rest h
  obtain ⟨word, -, rfl⟩ := numeralBefore_of_readNumeral h
  exact List.suffix_append word rest

theorem Decoder.LeavesEnd.map {d : Decoder α} (h : d.LeavesEnd) (f : α → β) :
    (d.map f).LeavesEnd := by
  intro cs b rest hread
  obtain ⟨a, ha, -⟩ := map_eq_ok_iff.1 hread
  exact h ha

/-! ### Lists and objects -/

/-- A list goes on, or the text behind it, with an end of the text. -/
theorem suffix_of_nextItem {first : Bool} :
    (nextItem first cs = .ok (.closed rest) → rest <:+ cs) ∧
      (nextItem first cs = .ok (.more rest) → rest <:+ cs) := by
  rw [nextItem]
  split
  · constructor <;> rintro ⟨⟩
  next heq =>
    constructor <;> rintro ⟨⟩
    exact suffix_of_skipGap_eq heq
  next c tail _ heq =>
    have htail := suffix_of_skipGap_eq heq
    -- the first item, one behind a comma, or neither
    split_ifs
    · constructor <;> rintro ⟨⟩
      exact heq ▸ skipGap_suffix cs
    · split
      · constructor <;> rintro ⟨⟩
      · constructor <;> rintro ⟨⟩
      · constructor <;> rintro ⟨⟩
        exact (skipGap_suffix tail).trans htail
    · constructor <;> rintro ⟨⟩

/-- An object goes on with the opening quotation mark of a name. -/
theorem suffix_of_nextMember {first : Bool} :
    (nextMember first cs = .ok (.closed rest) → rest <:+ cs) ∧
      (nextMember first cs = .ok (.more rest) → '"' :: rest <:+ cs) := by
  rw [nextMember]
  split
  · constructor <;> rintro ⟨⟩
  next heq =>
    constructor <;> rintro ⟨⟩
    exact suffix_of_skipGap_eq heq
  next c tail _ heq =>
    have htail := suffix_of_skipGap_eq heq
    -- the first member, one behind a comma, or neither
    split_ifs
    next hc =>
      constructor <;> rintro ⟨⟩
      exact hc ▸ heq ▸ skipGap_suffix cs
    · constructor <;> rintro ⟨⟩
    · split
      · constructor <;> rintro ⟨⟩
      next heq' =>
        constructor <;> rintro ⟨⟩
        exact (heq' ▸ skipGap_suffix tail).trans htail
      · constructor <;> rintro ⟨⟩
      · constructor <;> rintro ⟨⟩
    · constructor <;> rintro ⟨⟩

theorem leavesEnd_foldItems {step : σ → Decoder σ} (h : ∀ s, (step s).LeavesEnd) (fuel : Nat)
    (first : Bool) (s : σ) : (foldItems step fuel first s).LeavesEnd := by
  induction fuel generalizing first s with
  | zero =>
    intro cs t rest hread
    cases hread
  | succ fuel ih =>
    intro cs t rest hread
    rw [foldItems] at hread
    split at hread
    · cases hread
    next hnext =>
      obtain ⟨-, rfl⟩ := Prod.mk.inj (Except.ok.inj hread)
      exact suffix_of_nextItem.1 hnext
    next tail hnext =>
      split at hread
      · cases hread
      next hstep => exact (ih _ _ hread).trans ((h s hstep).trans (suffix_of_nextItem.2 hnext))

theorem leavesEnd_foldMembers {step : σ → String → Decoder σ}
    (h : ∀ s name, (step s name).LeavesEnd) (fuel : Nat) (first : Bool) (s : σ) :
    (foldMembers step fuel first s).LeavesEnd := by
  induction fuel generalizing first s with
  | zero =>
    intro cs t rest hread
    cases hread
  | succ fuel ih =>
    intro cs t rest hread
    rw [foldMembers] at hread
    split at hread
    · cases hread
    next hnext =>
      obtain ⟨-, rfl⟩ := Prod.mk.inj (Except.ok.inj hread)
      exact suffix_of_nextMember.1 hnext
    next tail hnext =>
      split at hread
      · cases hread
      next hname =>
        split at hread
        · cases hread
        next hstep =>
          exact (ih _ _ hread).trans ((h s _ hstep).trans ((leavesEnd_readString hname).trans
            ((List.suffix_cons _ tail).trans (suffix_of_nextMember.2 hnext))))

theorem leavesEnd_memberStep {inner : Decoder α} (h : inner.LeavesEnd) (keep : σ → String → α → σ)
    (s : σ) (name : String) : (memberStep inner keep s name).LeavesEnd := by
  intro cs t rest hread
  obtain ⟨afterColon, hcolon, hread⟩ := bind_eq_ok_iff.1 hread
  obtain ⟨⟨v, tail⟩, hvalue, hread⟩ := bind_eq_ok_iff.1 hread
  obtain ⟨-, rfl⟩ := Prod.mk.inj (Except.ok.inj hread)
  exact (h hvalue).trans (suffix_of_skipGap_eq (skipGap_of_colon hcolon))

namespace Value

theorem leavesEnd_decoderWith {inner : Option (Decoder Value)} (h : ∀ d ∈ inner, d.LeavesEnd) :
    (decoderWith inner).LeavesEnd := by
  intro cs v rest hread
  rw [decoderWith] at hread
  split at hread
  · cases hread
  next c tail heq =>
    have hcs : c :: tail <:+ cs := heq ▸ skipGap_suffix cs
    have htail : tail <:+ cs := suffix_of_skipGap_eq heq
    -- one branch for each kind of value; a sign is read, the first digit is left to the reader
    split_ifs at hread
    · exact (leavesEnd_literal _ _ hread).trans htail
    · exact (leavesEnd_literal _ _ hread).trans htail
    · exact (leavesEnd_literal _ _ hread).trans htail
    · exact ((leavesEnd_readNumeral true).map _ hread).trans htail
    · exact ((leavesEnd_readNumeral false).map _ hread).trans hcs
    · exact (leavesEnd_readString.map _ hread).trans htail
    · split at hread
      · cases hread
      next d =>
        have hstep (items : List Value) := (h d rfl).map fun v => v :: items
        exact (Decoder.LeavesEnd.map (leavesEnd_foldItems hstep _ true []) _ hread).trans htail
    · split at hread
      · cases hread
      next d =>
        have hstep (fs : Fields Value) (name : String) :=
          leavesEnd_memberStep (h d rfl) Fields.insert fs name
        exact (Decoder.LeavesEnd.map
          (leavesEnd_foldMembers hstep _ true Fields.empty) _ hread).trans htail
    · cases hread

theorem leavesEnd_decoder (depth : Nat) : (decoder depth).LeavesEnd := by
  induction depth with
  | zero => exact leavesEnd_decoderWith (by simp)
  | succ depth ih => exact leavesEnd_decoderWith (by simpa using ih)

end Value

/-! ### Where members stand -/

/-- Whether behind an opening quotation mark stands a member with this name and value, and then goes
the object on. -/
def MemberAt (inner : Decoder α) (name : String) (v : α) (cs : List Char) : Prop :=
  ∃ afterName afterColon rest next, readString cs = .ok (name, afterName) ∧
    colon afterName = .ok afterColon ∧ inner afterColon = .ok (v, rest) ∧
    nextMember false rest = .ok next

theorem exists_next_of_foldMembers {step : σ → String → Decoder σ} {fuel : Nat} {first : Bool}
    {s t : σ} (h : foldMembers step fuel first s cs = .ok (t, rest)) :
    ∃ next, nextMember first cs = .ok next := by
  cases fuel with
  | zero => cases h
  | succ fuel =>
    rw [foldMembers] at h
    split at h
    · cases h
    next hnext => exact ⟨_, hnext⟩
    next hnext => exact ⟨_, hnext⟩

/-- Every member that is read stands somewhere in the text. -/
theorem exists_memberAt_of_foldMembers {inner : Decoder α} (hinner : inner.LeavesEnd) {fuel : Nat}
    {first : Bool} {ms ms' : List (String × α)} {name : String} {v : α}
    (h : foldMembers (memberStep inner consMember) fuel first ms cs = .ok (ms', rest))
    (hmem : (name, v) ∈ ms') :
    (name, v) ∈ ms ∨ ∃ after, '"' :: after <:+ cs ∧ MemberAt inner name v after := by
  induction fuel generalizing first ms cs with
  | zero => cases h
  | succ fuel ih =>
    rw [foldMembers] at h
    split at h
    · cases h
    next =>
      obtain ⟨rfl, -⟩ := Prod.mk.inj (Except.ok.inj h)
      exact .inl hmem
    next after hnext =>
      split at h
      · cases h
      next first afterName hname =>
        split at h
        · cases h
        next ms₁ rest₁ hstep =>
          have hafter := suffix_of_nextMember.2 hnext
          obtain ⟨afterColon, hcolon, hvalue⟩ := bind_eq_ok_iff.1 hstep
          obtain ⟨⟨w, tail⟩, hw, hkeep⟩ := bind_eq_ok_iff.1 hvalue
          obtain ⟨rfl, rfl⟩ := Prod.mk.inj (Except.ok.inj hkeep)
          -- it was kept before this step, is the member of this step, or stands behind it
          obtain hmem | ⟨behind, hbehind, hat⟩ := ih h
          · obtain heq | hmem := List.mem_cons.1 hmem
            · obtain ⟨rfl, rfl⟩ := Prod.mk.inj heq
              obtain ⟨next, hnext⟩ := exists_next_of_foldMembers h
              exact .inr ⟨after, hafter, afterName, afterColon, _, next, hname, hcolon, hw, hnext⟩
            · exact .inl hmem
          · have htail := leavesEnd_memberStep hinner consMember ms first hstep
            exact .inr ⟨behind, hbehind.trans (htail.trans ((leavesEnd_readString hname).trans
              ((List.suffix_cons _ after).trans hafter))), hat⟩

theorem exists_memberAt {text : String} {ms : List (String × Value)} {name : String} {v : Value}
    (h : members text = .ok ms) (hmem : (name, v) ∈ ms) :
    ∃ front after, text.toList = front ++ '"' :: after ∧
      MemberAt (Value.decoder (Value.maxDepth - 1)) name v after := by
  obtain ⟨left, hread, -⟩ := Decoder.run_eq_ok_iff.1 h
  rw [membersDecoder] at hread
  split at hread
  next tail hbrace =>
    obtain ⟨ms₁, hfold, rfl⟩ := Decoder.map_eq_ok_iff.1 hread
    obtain hnil | ⟨after, hafter, hat⟩ := exists_memberAt_of_foldMembers
      (Value.leavesEnd_decoder _) hfold (List.mem_reverse.1 hmem)
    · cases hnil
    · obtain ⟨front, hfront⟩ := hafter.trans (suffix_of_skipGap_eq hbrace)
      exact ⟨front, after, hfront.symm, hat⟩
  next => cases hread

end TrustBoundary.Json
