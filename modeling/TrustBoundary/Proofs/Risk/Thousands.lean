import TrustBoundary.Proofs.Json.Ends
import TrustBoundary.Proofs.Risk.Amounts
import TrustBoundary.Proofs.Risk.Scanning

/-!
# Amounts with separated thousands

An amount may be written with commas between groups of three digits (`GroupedNumber`), which is not
how numbers are written in JSON.  No record that is read holds such an amount
(`GroupedAmount.recordAmount?_eq_none`), so the text is searched.  In quotation marks the number is
no amount, and the text is refused.  Bare, its first digits end at a comma, and they are taken for
the amount (`extract_grouped`).
-/

namespace TrustBoundary

open Json Numeral

/-! ### Grouped digits -/

/-- A number of which the digits before the point are separated by commas into groups of three. -/
structure GroupedNumber where
  isNegative : Bool
  /-- The digits before the first comma. -/
  first : List Char
  /-- The groups behind the commas. -/
  groups : List (List Char)
  /-- The digits behind the point, if there is one. -/
  fraction : List Char
  first_ne_nil : first ≠ []
  length_first : first.length ≤ 3
  isDigit_first : ∀ c ∈ first, c.isDigit = true
  groups_ne_nil : groups ≠ []
  of_mem_groups : ∀ group ∈ groups, group.length = 3 ∧ ∀ c ∈ group, c.isDigit = true
  isDigit_fraction : ∀ c ∈ fraction, c.isDigit = true

namespace GroupedNumber

variable (n : GroupedNumber)

/-- The number that is written before the first comma. -/
def leading : SignedNumeral where
  isNegative := n.isNegative
  numeral :=
    { whole := n.first, fraction := [], exponent := none, whole_ne_nil := n.first_ne_nil
      isDigit_whole := n.isDigit_first, isDigit_fraction := by simp }

/-- The number as it is written. -/
def text : List Char :=
  n.leading.text ++ (n.groups.flatMap (',' :: ·) ++ fractionText n.fraction)

/-- Behind the digits that come first stand a comma and another digit. -/
theorem exists_text_eq :
    ∃ c tail, c.isDigit = true ∧ n.text = n.leading.text ++ ',' :: c :: tail := by
  obtain ⟨group, groups, hgroups⟩ := List.exists_cons_of_ne_nil n.groups_ne_nil
  obtain ⟨hlength, hdigits⟩ := n.of_mem_groups group (hgroups ▸ List.mem_cons_self)
  obtain ⟨c, group, rfl⟩ := List.exists_cons_of_length_eq_add_one hlength
  exact ⟨c, group ++ (groups.flatMap (',' :: ·) ++ fractionText n.fraction),
    hdigits c List.mem_cons_self, by simp [text, hgroups]⟩

theorem isNumeralChar_of_mem_text {c : Char} (h : c ∈ n.text) :
    isNumeralChar c = true ∨ c = ',' := by
  -- in the digits that come first, in a group behind its comma, or in the fraction
  obtain hleading | hmore := List.mem_append.1 h
  · exact .inl (SignedNumeral.isNumeralChar_of_mem_text hleading)
  obtain hgroups | hfraction := List.mem_append.1 hmore
  · obtain ⟨group, hgroup, hc⟩ := List.mem_flatMap.1 hgroups
    obtain rfl | hdigit := List.mem_cons.1 hc
    · exact .inr rfl
    · exact .inl (isNumeralChar_of_isDigit ((n.of_mem_groups group hgroup).2 c hdigit))
  · exact .inl (isNumeralChar_of_mem_fractionText n.isDigit_fraction hfraction)

theorem quote_notMem_text : '"' ∉ n.text := by
  intro h
  obtain hchar | hcomma := n.isNumeralChar_of_mem_text h
  · cases hchar
  · cases hcomma

/-- A number with a comma in it is no decimal number. -/
theorem readDecimal?_text : readDecimal? n.text = none := by
  have hsolid : ∀ c ∈ n.text, Text.isBlank c = false := by
    intro c hc
    obtain hchar | rfl := n.isNumeralChar_of_mem_text hc
    · exact isBlank_of_isNumeralChar hchar
    · rfl
  obtain ⟨c, tail, -, htext⟩ := n.exists_text_eq
  have hne : n.text ≠ [] := by simp [htext]
  have htrim := @trim_append n.text [] [] (by simp) (by simp) hne hsolid
  rw [List.append_nil, List.nil_append] at htrim
  have hleading : n.text = n.leading.sign ++ (n.first ++ ',' :: c :: tail) := by
    rw [htext]
    simp [SignedNumeral.text, Numeral.text, leading, fractionText]
  rw [readDecimal?, htrim, hleading]
  -- a sign, digits, and then a comma, with which no numeral goes on
  exact Decimal.read?_append_eq_none n.leading.sign_cases n.first_ne_nil n.isDigit_first rfl _

/-- The digits before the first comma are a finite number. -/
theorem isFinite_leading : n.leading.value.isFinite = true := by
  have hplace : n.leading.numeral.place = 0 := rfl
  refine SignedNumeral.isFinite_value ?_ (hplace ▸ by decide)
  have hlt := ofDigitChars_lt n.isDigit_first 0
  calc n.leading.numeral.significand = Nat.ofDigitChars 10 n.first 0 := by
        rw [Numeral.significand, leading, List.append_nil]
    _ < (0 + 1) * 10 ^ n.first.length := hlt
    _ ≤ (0 + 1) * 10 ^ 3 := Nat.mul_le_mul_left _ (Nat.pow_le_pow_right (by decide) n.length_first)
    _ < 18446744073709551616 := by decide

end GroupedNumber

/-! ### Blanks in JSON -/

section

variable {cs blanks rest tail : List Char} {c d : Char}

theorem isGap_eq_false (hc : isAsciiBlank c = false) : isGap c = false := by
  rw [Bool.eq_false_iff]
  intro hgap
  simp only [isGap, Bool.or_eq_true, beq_iff_eq] at hgap
  obtain ((rfl | rfl) | rfl) | rfl := hgap <;> cases hc

/-- A reader of JSON passes over the blanks that JSON knows, and stops at any other. -/
theorem skipGap_blanks (h : ∀ c ∈ blanks, isAsciiBlank c = true) (hc : isAsciiBlank c = false)
    (rest : List Char) : skipGap (blanks ++ c :: rest) = c :: rest ∨
      ∃ d tail, skipGap (blanks ++ c :: rest) = d :: tail ∧ isAsciiBlank d = true := by
  induction blanks with
  | nil => exact .inl (skipGap_cons (isGap_eq_false hc) rest)
  | cons b blanks ih =>
    obtain ⟨hb, hblanks⟩ := List.forall_mem_cons.1 h
    by_cases hgap : isGap b = true
    · rw [List.cons_append, skipGap, List.dropWhile_cons, if_pos hgap]
      exact ih hblanks
    · exact .inr ⟨b, _, skipGap_cons (Bool.eq_false_iff.2 hgap) _, hb⟩

/-- The colon is found behind blanks. -/
theorem eq_of_colon (h : ∀ c ∈ blanks, isAsciiBlank c = true)
    (hcolon : colon (blanks ++ ':' :: cs) = .ok rest) : rest = cs := by
  have hskip := skipGap_of_colon hcolon
  have hc : isAsciiBlank ':' = false := rfl
  obtain hgap | ⟨d, tail, hgap, hd⟩ := skipGap_blanks h hc cs
  · rw [hgap] at hskip
    exact (List.cons.inj hskip).2.symm
  · rw [hgap] at hskip
    obtain ⟨rfl, -⟩ := List.cons.inj hskip
    cases hd

/-- No value begins with a blank. -/
theorem decoderWith_blank (inner : Option (Decoder Value)) (hskip : skipGap cs = d :: tail)
    (hd : isAsciiBlank d = true) :
    Value.decoderWith inner cs = stopAt .expectedValue (d :: tail) := by
  have hle := toNat_le_of_isAsciiBlank hd
  have hne (x : Char) (hx : 32 < x.toNat) : d ≠ x := by
    rintro rfl
    omega
  have hdigit : d.isDigit = false := by
    rw [Bool.eq_false_iff, Ne, Char.isDigit_iff_toNat]
    exact fun h => absurd (h.1.trans hle) (by decide)
  rw [Value.decoderWith, hskip]
  dsimp only
  rw [if_neg (hne _ (by decide)), if_neg (hne _ (by decide)), if_neg (hne _ (by decide)),
    if_neg (hne _ (by decide)), hdigit, if_neg Bool.false_ne_true, if_neg (hne _ (by decide)),
    if_neg (hne _ (by decide)), if_neg (hne _ (by decide))]

/-- A value is read behind blanks like without them. -/
theorem decoderWith_of_blanks {inner : Option (Decoder Value)} {v : Value}
    (h : ∀ c ∈ blanks, isAsciiBlank c = true) (hc : isAsciiBlank c = false)
    (hread : Value.decoderWith inner (blanks ++ c :: cs) = .ok (v, rest)) :
    Value.decoderWith inner (c :: cs) = .ok (v, rest) := by
  -- a blank that JSON does not know would be no value
  obtain hskip | ⟨d, tail, hskip, hd⟩ := skipGap_blanks h hc cs
  · rw [Value.decoderWith, hskip] at hread
    rw [Value.decoderWith, skipGap_cons (isGap_eq_false hc)]
    exact hread
  · rw [decoderWith_blank inner hskip hd] at hread
    cases hread

end

/-! ### Texts -/

/-- A word in quotation marks or bare, and what follows it. -/
def inQuotes (isQuoted : Bool) (word rest : List Char) : List Char :=
  if isQuoted then '"' :: (word ++ '"' :: rest) else word ++ rest

/-- How the amount is written in a text: once, and with grouped digits, in quotation marks or bare.
-/
structure GroupedAmount (text : List Char) where
  isQuoted : Bool
  /-- The text in front of the name. -/
  front : List Char
  /-- The blanks in front of the colon. -/
  before : List Char
  /-- The blanks behind the colon. -/
  after : List Char
  number : GroupedNumber
  rest : List Char
  isBlank_before : ∀ c ∈ before, isAsciiBlank c = true
  isBlank_after : ∀ c ∈ after, isAsciiBlank c = true
  closes : isQuoted = false → ClosesAmount false rest
  eq : text =
    front ++ (amountKey ++ (before ++ ':' :: (after ++ inQuotes isQuoted number.text rest)))
  once : ∀ front' rest', text = front' ++ (amountKey ++ rest') → front' = front
  slash_notMem : '\\' ∉ text

namespace GroupedAmount

variable {text : List Char} (a : GroupedAmount text)

/-- The number as it is written, and what follows it. -/
def written : List Char := inQuotes a.isQuoted a.number.text a.rest

theorem exists_written_eq : ∃ c tail, a.written = c :: tail ∧ isAsciiBlank c = false := by
  rw [written, inQuotes]
  split
  · exact ⟨'"', _, rfl, rfl⟩
  · obtain ⟨d, more, -, htext⟩ := a.number.exists_text_eq
    obtain ⟨c, tail, hleading, hc⟩ := a.number.leading.exists_text_eq_cons
    exact ⟨c, _, by rw [htext, hleading]; rfl, (isAsciiBlank_of_isNumeralChar hc).1⟩

/-- Wherever the name of the amount stands, the number follows it. -/
theorem eq_of_key {front rest : List Char} (h : text = front ++ (amountKey ++ rest)) :
    front = a.front ∧ rest = a.before ++ ':' :: (a.after ++ a.written) := by
  obtain rfl := a.once front rest h
  have heq := h.symm.trans a.eq
  exact ⟨rfl, List.append_cancel_left (List.append_cancel_left heq)⟩

/-- The value of a member with the name of the amount is what is written as a JSON value, and the
object goes on behind it. -/
theorem exists_of_memberAt {front after : List Char} {v : Value} {depth : Nat}
    (htext : text = front ++ '"' :: after)
    (h : MemberAt (Value.decoder (depth + 1)) "amount" v after) : ∃ rest next,
      Value.decoder (depth + 1) a.written = .ok (v, rest) ∧ nextMember false rest = .ok next := by
  obtain ⟨afterName, afterColon, rest, next, hname, hcolon, hvalue, hnext⟩ := h
  have hslash : '\\' ∉ after := fun hmem => a.slash_notMem (htext ▸ by simp [hmem])
  obtain ⟨-, hafter⟩ := eq_of_readString hslash hname
  rw [hafter] at htext
  obtain ⟨-, rfl⟩ := a.eq_of_key htext
  obtain rfl := eq_of_colon a.isBlank_before hcolon
  obtain ⟨c, tail, hwritten, hc⟩ := a.exists_written_eq
  rw [hwritten] at hvalue ⊢
  exact ⟨rest, next, decoderWith_of_blanks a.isBlank_after hc hvalue, hnext⟩

/-- In quotation marks, the number is read as a text. -/
theorem eq_text_of_decoder (h : a.isQuoted = true) {v : Value} {depth : Nat} {rest : List Char}
    (hread : Value.decoder (depth + 1) a.written = .ok (v, rest)) :
    v = .string (String.ofList a.number.text) := by
  have hwritten : a.written = '"' :: (a.number.text ++ '"' :: a.rest) := by
    rw [written, inQuotes, if_pos h]
  rw [hwritten] at hread
  change Decoder.map Value.string readString _ = _ at hread
  obtain ⟨s, hs, rfl⟩ := Decoder.map_eq_ok_iff.1 hread
  -- without a backslash the string ends at the next quotation mark
  have hslash : '\\' ∉ a.number.text ++ '"' :: a.rest := by
    intro hmem
    refine a.slash_notMem ?_
    rw [a.eq]
    change _ ∈ a.front ++ (amountKey ++ (a.before ++ ':' :: (a.after ++ a.written)))
    rw [hwritten]
    simp only [List.mem_append, List.mem_cons] at hmem ⊢
    tauto
  obtain ⟨hquote, heq⟩ := eq_of_readString hslash hs
  obtain ⟨hs, -⟩ := append_quote_inj a.number.quote_notMem_text hquote heq
  rw [hs, String.ofList_toList]

/-- Bare, the number ends at a comma with a digit behind it, and so no object goes on. -/
theorem not_nextMember (h : a.isQuoted = false) {v : Value} {depth : Nat} {rest : List Char}
    (hread : Value.decoder (depth + 1) a.written = .ok (v, rest)) {next : Next} :
    nextMember false rest ≠ .ok next := by
  intro hnext
  obtain ⟨c, tail, hc, htext⟩ := a.number.exists_text_eq
  have hwritten : a.written = a.number.leading.text ++ ',' :: c :: (tail ++ a.rest) := by
    rw [written, inQuotes, h, if_neg Bool.false_ne_true, htext]
    simp
  rw [hwritten] at hread
  replace hread := (Value.decoderWith_text _ _ _).symm.trans hread
  obtain ⟨m, hm, -⟩ := Decoder.map_eq_ok_iff.1 hread
  -- what the reader leaves begins inside the number or at its first comma
  obtain ⟨left, hleft, rfl⟩ := (numeralBefore_of_readNumeral hm).exists_of_append
    (fun d hd => SignedNumeral.isNumeralChar_of_mem_text (List.mem_append_right _ hd)) rfl
  obtain rfl := eq_nil_of_nextMember hleft hnext
  rw [List.nil_append, nextMember_comma (isNumeralChar_of_isDigit hc)] at hnext
  cases hnext

/-- No record that is read from the text holds an amount. -/
theorem recordAmount?_eq_none {text : String} (a : GroupedAmount text.toList) :
    recordAmount? text = none := by
  rw [Option.eq_none_iff_forall_ne_some]
  intro x hx
  obtain ⟨ms, hms, hamount⟩ := recordAmount?_eq_some_iff.1 hx
  obtain ⟨v, hlast, hv⟩ := Option.bind_eq_some_iff.1 hamount
  obtain ⟨front, after, htext, hat⟩ :=
    exists_memberAt hms (List.mem_reverse.1 (Fields.mem_of_lookup hlast))
  obtain ⟨rest, next, hvalue, hnext⟩ := a.exists_of_memberAt htext hat
  -- in quotation marks it is a text that is no number, and bare the object breaks off behind it
  cases hquoted : a.isQuoted with
  | true =>
    obtain rfl := a.eq_text_of_decoder hquoted hvalue
    change readDecimal? (String.ofList a.number.text).toList = some x at hv
    rw [String.toList_ofList, a.number.readDecimal?_text] at hv
    cases hv
  | false => exact a.not_nextMember hquoted hvalue hnext

/-! ### Searching the text -/

/-- No amount is found anywhere else. -/
theorem amountAt?_eq_none {p : Nat} (h : p ≠ a.front.length) : amountAt? (text.drop p) = none := by
  rw [Option.eq_none_iff_forall_ne_some]
  intro word hword
  rw [amountAt?_eq] at hword
  obtain ⟨rest, hkey, -⟩ := Option.bind_eq_some_iff.1 hword
  replace hkey := behind?_eq_some_iff.1 hkey
  have htext : text = text.take p ++ (amountKey ++ rest) := by
    rw [← hkey, List.take_append_drop]
  have hp : p ≤ text.length := by
    by_contra hlt
    rw [List.drop_eq_nil_of_le (by omega)] at hkey
    cases hkey
  rw [← a.once _ _ htext, List.length_take, Nat.min_eq_left hp] at h
  exact h rfl

/-- At the name of the amount, an amount is found if the number stands there bare, and then the
digits before its first comma are taken for all of it. -/
theorem amountAt?_front : amountAt? (text.drop a.front.length) =
    if a.isQuoted then none else some a.number.leading.text := by
  obtain ⟨c, tail, hwritten, hc⟩ := a.exists_written_eq
  have hdrop : text.drop a.front.length =
      amountKey ++ (a.before ++ ':' :: (a.after ++ a.written)) :=
    (congrArg (List.drop a.front.length) a.eq).trans List.drop_left
  rw [hdrop, hwritten, amountAt?_key a.isBlank_before a.isBlank_after hc, ← hwritten, written,
    inQuotes]
  obtain ⟨d, more, -, htext⟩ := a.number.exists_text_eq
  obtain ⟨e, digits, hleading, he⟩ := a.number.leading.exists_text_eq_cons
  obtain ⟨hblank, hquote⟩ := isAsciiBlank_of_isNumeralChar he
  cases a.isQuoted with
  -- the numeral ends at the comma, where a quotation mark would have to stand
  | true =>
    have htake := a.number.leading.takeNumeral?_text
      (endsBefore_cons (c := ',') rfl (d :: (more ++ '"' :: a.rest)))
    have hword : a.number.text ++ '"' :: a.rest =
        e :: (digits ++ ',' :: d :: (more ++ '"' :: a.rest)) := by
      rw [htext, hleading]
      simp
    rw [hleading, List.cons_append] at htake
    rw [if_pos rfl, if_pos rfl, hword, writtenNumeral?, List.dropWhile_cons, hblank,
      if_neg Bool.false_ne_true, htake]
    rfl
  | false =>
    rw [if_neg Bool.false_ne_true, if_neg Bool.false_ne_true, htext, hleading]
    refine (writtenNumeral?_bare hquote).2
      ⟨a.number.leading, ',' :: d :: (more ++ a.rest), .delimiter (by simp) _, ?_, hleading⟩
    rw [hleading]
    simp

theorem scanAmount_eq : scanAmount text =
    if a.isQuoted then .error (.streamParse .noAmount) else .ok a.number.leading.value := by
  have hfront := a.amountAt?_front
  rw [scanAmount]
  cases hquoted : a.isQuoted with
  | true =>
    have hnone : scanAmount? text = none := by
      refine scanAmount?_eq_none_iff.2 fun p => ?_
      by_cases hp : p = a.front.length
      · rw [hp, hfront, if_pos hquoted]
      · exact a.amountAt?_eq_none hp
    rw [hnone]
    rfl
  | false =>
    rw [hquoted, if_neg Bool.false_ne_true] at hfront
    have hsome : scanAmount? text = some a.number.leading.text :=
      scanAmount?_eq_some_iff.2
        ⟨a.front.length, hfront, fun q hq => a.amountAt?_eq_none (Nat.ne_of_lt hq)⟩
    rw [hsome]
    dsimp only
    rw [a.number.leading.readDecimal?_text, if_pos a.number.isFinite_leading]
    rfl

theorem extract_eq {text : String} (a : GroupedAmount text.toList) : extract text =
    if a.isQuoted then .error (.streamParse .noAmount)
    else .ok ⟨a.number.leading.value, (Record.read text).toOption.bind Record.eventId?,
      (Record.read text).toOption⟩ := by
  have hrecord := a.recordAmount?_eq_none
  rw [recordAmount?] at hrecord
  rw [extract, hrecord]
  dsimp only
  rw [a.scanAmount_eq]
  cases a.isQuoted <;> rfl

end GroupedAmount

/-- A text in which the amount stands with grouped digits in quotation marks is refused, and a
record with that text is dropped.  Bare, the digits before the first comma are taken for the amount.
-/
theorem extract_grouped {text : String} (a : GroupedAmount text.toList) :
    (a.isQuoted = true → extract text = .error (.streamParse .noAmount) ∧
      ∀ (s : Scorer) (r : StreamRecord), r.value = some text → s.score r = .dropped) ∧
    (a.isQuoted = false → ∃ e, extract text = .ok e ∧ e.amount = a.number.leading.value ∧
      ∀ (s : Scorer) (r : StreamRecord), r.value = some text → s.score r ≠ .dropped) := by
  have hextract := a.extract_eq
  constructor
  · intro hquoted
    rw [hquoted, if_pos rfl] at hextract
    exact ⟨hextract, fun s r hr => (s.score_eq_dropped_iff hr).2 ⟨_, hextract⟩⟩
  · intro hbare
    rw [hbare, if_neg Bool.false_ne_true] at hextract
    refine ⟨_, hextract, rfl, fun s r hr hdropped => ?_⟩
    obtain ⟨e, he⟩ := (s.score_eq_dropped_iff hr).1 hdropped
    rw [hextract] at he
    cases he

/-! ### Fifteen thousand -/

/-- The number `15,000.00`. -/
def fifteenThousand : GroupedNumber where
  isNegative := false
  first := ['1', '5']
  groups := [['0', '0', '0']]
  fraction := ['0', '0']
  first_ne_nil := by simp
  length_first := by simp
  isDigit_first := by simp
  groups_ne_nil := by simp
  of_mem_groups := by simp
  isDigit_fraction := by simp

/-- An object with fifteen thousand as its amount. -/
def fifteenThousandText (isQuoted : Bool) : String :=
  if isQuoted then "\x7b\"amount\":\"15,000.00\"\x7d" else "\x7b\"amount\":15,000.00\x7d"

/-- The amount stands where its name is found. -/
theorem once_of_forall {text front : List Char} (hfront : text.take front.length = front)
    (h : ∀ p < text.length, (behind? amountKey (text.drop p)).isSome = true → p = front.length) :
    ∀ front' rest', text = front' ++ (amountKey ++ rest') → front' = front := by
  rintro front' rest' htext
  have hdrop : text.drop front'.length = amountKey ++ rest' :=
    (congrArg (List.drop front'.length) htext).trans List.drop_left
  have hlength : front'.length = front.length := by
    refine h _ ?_ ?_
    · rw [htext, List.length_append, List.length_append]
      exact Nat.lt_add_of_pos_right (Nat.add_pos_left (by decide) _)
    · rw [hdrop, behind?_eq_some_iff.2 rfl]
      rfl
  -- a front is told by its length
  have htake : text.take front'.length = front' :=
    (congrArg (List.take front'.length) htext).trans List.take_left
  rw [← htake, hlength, hfront]

/-- Its amount. -/
def fifteenThousandAmount (isQuoted : Bool) :
    GroupedAmount (fifteenThousandText isQuoted).toList where
  isQuoted := isQuoted
  front := ['\x7b']
  before := []
  after := []
  number := fifteenThousand
  rest := ['\x7d']
  isBlank_before := by simp
  isBlank_after := by simp
  closes := fun _ => .delimiter (by simp) []
  eq := by cases isQuoted <;> decide
  once := once_of_forall (by cases isQuoted <;> decide) (by cases isQuoted <;> decide)
  slash_notMem := by cases isQuoted <;> decide

theorem extract_grouped_fifteenThousand :
    extract (fifteenThousandText true) = .error (.streamParse .noAmount) ∧
      ∃ e, extract (fifteenThousandText false) = .ok e ∧ e.amount = 15 := by
  have hvalue : fifteenThousand.leading.value = 15 := by decide +kernel
  obtain ⟨e, he, hamount, -⟩ := (extract_grouped (fifteenThousandAmount false)).2 rfl
  exact ⟨((extract_grouped (fifteenThousandAmount true)).1 rfl).1, e, he, hamount.trans hvalue⟩

/-- Not every amount with grouped digits is refused. -/
theorem not_forall_extract_grouped : ¬ ∀ (text : String), GroupedAmount text.toList →
    ∃ fault, extract text = .error (.streamParse fault) := by
  intro h
  obtain ⟨fault, hfault⟩ := h _ (fifteenThousandAmount false)
  rw [(fifteenThousandAmount false).extract_eq] at hfault
  cases hfault

end TrustBoundary
