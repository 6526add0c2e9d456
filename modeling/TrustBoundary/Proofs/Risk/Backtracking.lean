import TrustBoundary.Proofs.Risk.AmountGrammar
import TrustBoundary.Text.Pattern

/-!
# The search for an amount as a pattern

`amountPattern` says in one pattern how an amount is written.  A pattern leaves choices: a run of
digits may end early, and a fraction or an exponent may be left out.  So a match might be bought
with a shorter numeral.  It is not: every way in which the pattern matches is that of an amount
(`exists_amount_of_mem_ways`), every amount is matched (`exists_mem_ways_amountPattern`), and a text
begins with an amount in one way only.  Hence the search for an amount gives what the first match of
the pattern keeps (`search_amountPattern`).
-/

namespace TrustBoundary

open Numeral Text

namespace Text.Pattern

variable {a b : Pattern} {S T : List Char → Prop} {p : Char → Bool} {cs : List Char} {w : Way}

/-! ### What a pattern spells -/

/-- Whether a pattern matches just the words that satisfy a condition, wherever they stand, and
keeps none of them. -/
def Spells (a : Pattern) (S : List Char → Prop) : Prop :=
  ∀ cs w, w ∈ a.ways cs ↔ ∃ word rest, S word ∧ cs = word ++ rest ∧ w = ⟨word, [], rest⟩

theorem Spells.congr (h : a.Spells S) (hST : ∀ word, S word ↔ T word) : a.Spells T := by
  obtain rfl : S = T := funext fun word => propext (hST word)
  exact h

theorem spells_empty : empty.Spells (· = []) := by
  intro cs w
  rw [mem_ways_empty]
  constructor
  · rintro rfl
    exact ⟨[], cs, rfl, rfl, rfl⟩
  · rintro ⟨_, rest, rfl, rfl, rfl⟩
    rfl

theorem spells_char (p : Char → Bool) :
    (char p).Spells fun word => ∃ c, p c = true ∧ word = [c] := by
  intro cs w
  rw [mem_ways_char]
  constructor
  · rintro ⟨c, rest, hc, rfl, rfl⟩
    exact ⟨[c], rest, ⟨c, hc, rfl⟩, rfl, rfl⟩
  · rintro ⟨_, rest, ⟨c, hc, rfl⟩, rfl, rfl⟩
    exact ⟨c, rest, hc, rfl, rfl⟩

theorem spells_run (p : Char → Bool) : (run p).Spells fun word => ∀ c ∈ word, p c = true :=
  fun _ _ => mem_ways_run

/-- Whether a pattern matches just the words that satisfy a condition, wherever they stand, and
keeps `kept` of them. -/
def SpellsKeeping (a : Pattern) (S : List Char → Prop)
    (kept : List Char → List (Nat × List Char)) : Prop :=
  ∀ cs w, w ∈ a.ways cs ↔ ∃ word rest, S word ∧ cs = word ++ rest ∧ w = ⟨word, kept word, rest⟩

theorem Spells.group (h : a.Spells S) (number : Nat) :
    (group number a).SpellsKeeping S fun word => [(number, word)] := by
  intro cs w
  rw [mem_ways_group]
  constructor
  · rintro ⟨u, hu, rfl⟩
    obtain ⟨word, rest, hword, rfl, rfl⟩ := (h _ _).1 hu
    exact ⟨word, rest, hword, rfl, rfl⟩
  · rintro ⟨word, rest, hword, rfl, rfl⟩
    exact ⟨_, (h _ _).2 ⟨word, rest, hword, rfl, rfl⟩, rfl⟩

theorem SpellsKeeping.mem_ways_both {kept : List Char → List (Nat × List Char)}
    (h : a.SpellsKeeping S kept) : w ∈ (both a b).ways cs ↔
      ∃ word rest, S word ∧ cs = word ++ rest ∧
        ∃ v ∈ b.ways rest, w = .append ⟨word, kept word, rest⟩ v := by
  rw [Pattern.mem_ways_both]
  constructor
  · rintro ⟨u, hu, v, hv, rfl⟩
    obtain ⟨word, rest, hword, rfl, rfl⟩ := (h _ _).1 hu
    exact ⟨word, rest, hword, rfl, v, hv, rfl⟩
  · rintro ⟨word, rest, hword, rfl, v, hv, rfl⟩
    exact ⟨_, (h _ _).2 ⟨word, rest, hword, rfl, rfl⟩, v, hv, rfl⟩

theorem Spells.mem_ways_both (h : a.Spells S) : w ∈ (both a b).ways cs ↔
    ∃ word rest, S word ∧ cs = word ++ rest ∧
      ∃ v ∈ b.ways rest, w = .append ⟨word, [], rest⟩ v :=
  SpellsKeeping.mem_ways_both h

theorem Spells.both (ha : a.Spells S) (hb : b.Spells T) :
    (both a b).Spells fun word => ∃ x y, S x ∧ T y ∧ word = x ++ y := by
  intro cs w
  rw [ha.mem_ways_both]
  constructor
  · rintro ⟨x, _, hx, rfl, v, hv, rfl⟩
    obtain ⟨y, rest, hy, rfl, rfl⟩ := (hb _ _).1 hv
    exact ⟨x ++ y, rest, ⟨x, y, hx, hy, rfl⟩, (List.append_assoc x y rest).symm, rfl⟩
  · rintro ⟨_, rest, ⟨x, y, hx, hy, rfl⟩, rfl, rfl⟩
    exact ⟨x, y ++ rest, hx, List.append_assoc x y rest, ⟨y, [], rest⟩,
      (hb _ _).2 ⟨y, rest, hy, rfl, rfl⟩, rfl⟩

theorem Spells.optional (h : a.Spells S) :
    (optional a).Spells fun word => S word ∨ word = [] := by
  intro cs w
  rw [Pattern.optional, mem_ways_either, h, spells_empty]
  constructor
  · rintro (⟨word, rest, hword, hcs, rfl⟩ | ⟨word, rest, hword, hcs, rfl⟩)
    · exact ⟨word, rest, .inl hword, hcs, rfl⟩
    · exact ⟨word, rest, .inr hword, hcs, rfl⟩
  · rintro ⟨word, rest, hword | hword, hcs, rfl⟩
    · exact .inl ⟨word, rest, hword, hcs, rfl⟩
    · exact .inr ⟨word, rest, hword, hcs, rfl⟩

theorem spells_only (c : Char) : (only c).Spells (· = [c]) := by
  refine (spells_char _).congr fun word => ?_
  simp

theorem spells_word (cs : List Char) : (word cs).Spells (· = cs) := by
  induction cs with
  | nil => exact spells_empty
  | cons c cs ih =>
    refine ((spells_only c).both ih).congr fun word => ?_
    simp

end Text.Pattern

open Text.Pattern

/-! ### Numerals -/

/-- A run of digits, at least one. -/
def digitsPattern : Pattern := both (char Char.isDigit) (run Char.isDigit)

/-- A point with digits behind it. -/
def fractionPattern : Pattern := both (only '.') digitsPattern

/-- The mark of an exponent, a sign or none, and digits. -/
def exponentPattern : Pattern :=
  both (char fun c => c == 'e' || c == 'E')
    (both (optional (char fun c => c == '+' || c == '-')) digitsPattern)

/-- A minus sign or none, digits, and a fraction and an exponent if there are any. -/
def numeralPattern : Pattern :=
  both (optional (only '-'))
    (both digitsPattern (both (optional fractionPattern) (optional exponentPattern)))

theorem spells_digitsPattern :
    digitsPattern.Spells fun word => word ≠ [] ∧ ∀ c ∈ word, c.isDigit = true := by
  refine ((spells_char _).both (spells_run _)).congr fun word => ?_
  constructor
  · rintro ⟨_, y, ⟨c, hc, rfl⟩, hy, rfl⟩
    exact ⟨List.cons_ne_nil c y, List.forall_mem_cons.2 ⟨hc, hy⟩⟩
  · rintro ⟨hne, hdigits⟩
    obtain ⟨c, y, rfl⟩ := List.exists_cons_of_ne_nil hne
    obtain ⟨hc, hy⟩ := List.forall_mem_cons.1 hdigits
    exact ⟨[c], y, ⟨c, hc, rfl⟩, hy, rfl⟩

theorem spells_fraction : (optional fractionPattern).Spells fun word =>
    ∃ digits, (∀ c ∈ digits, c.isDigit = true) ∧ word = fractionText digits := by
  refine (((spells_only '.').both spells_digitsPattern).optional).congr fun word => ?_
  constructor
  · -- a numeral without a fraction is one whose fraction has no digits
    rintro (⟨_, digits, rfl, ⟨hne, hdigits⟩, rfl⟩ | rfl)
    · obtain ⟨d, ds, rfl⟩ := List.exists_cons_of_ne_nil hne
      exact ⟨d :: ds, hdigits, rfl⟩
    · exact ⟨[], by simp, rfl⟩
  · rintro ⟨_ | ⟨d, ds⟩, hdigits, rfl⟩
    · exact .inr rfl
    · exact .inl ⟨['.'], d :: ds, rfl, ⟨List.cons_ne_nil d ds, hdigits⟩, rfl⟩

theorem spells_exponent : (optional exponentPattern).Spells fun word =>
    ∃ e : Option Exponent, word = e.elim [] Exponent.text := by
  have hsign : (optional (char fun c => c == '+' || c == '-')).Spells
      fun word => word = [] ∨ word = ['+'] ∨ word = ['-'] := by
    refine ((spells_char _).optional).congr fun word => ?_
    simp only [Bool.or_eq_true, beq_iff_eq]
    constructor
    · rintro (⟨c, rfl | rfl, rfl⟩ | rfl) <;> simp
    · rintro (rfl | rfl | rfl) <;> simp
  refine (((spells_char _).both (hsign.both spells_digitsPattern)).optional).congr fun word => ?_
  simp only [Bool.or_eq_true, beq_iff_eq]
  constructor
  · rintro (⟨_, _, ⟨mark, hmark, rfl⟩, ⟨sign, digits, hsign, ⟨hne, hdigits⟩, rfl⟩, rfl⟩ | rfl)
    · exact ⟨some ⟨mark, sign, digits, hmark, hsign, hne, hdigits⟩, rfl⟩
    · exact ⟨none, rfl⟩
  · rintro ⟨_ | e, rfl⟩
    · exact .inr rfl
    · exact .inl ⟨[e.mark], e.sign ++ e.digits, ⟨e.mark, e.mark_mem, rfl⟩,
        ⟨e.sign, e.digits, e.sign_mem, ⟨e.digits_ne_nil, e.isDigit_digits⟩, rfl⟩, rfl⟩

theorem spells_numeralPattern :
    numeralPattern.Spells fun word => ∃ n : SignedNumeral, word = n.text := by
  refine (((spells_only '-').optional).both
    (spells_digitsPattern.both (spells_fraction.both spells_exponent))).congr fun word => ?_
  constructor
  · rintro ⟨sign, _, hsign, ⟨whole, _, ⟨hne, hwhole⟩, ⟨_, _, ⟨fraction, hfraction, rfl⟩,
      ⟨e, rfl⟩, rfl⟩, rfl⟩, rfl⟩
    obtain rfl | rfl := hsign
    · exact ⟨⟨true, whole, fraction, e, hne, hwhole, hfraction⟩, rfl⟩
    · exact ⟨⟨false, whole, fraction, e, hne, hwhole, hfraction⟩, rfl⟩
  · rintro ⟨n, rfl⟩
    exact ⟨n.sign, _, n.sign_cases.symm, ⟨_, _, ⟨n.numeral.whole_ne_nil, n.numeral.isDigit_whole⟩,
      ⟨_, _, ⟨n.numeral.fraction, n.numeral.isDigit_fraction, rfl⟩, ⟨n.numeral.exponent, rfl⟩, rfl⟩,
      rfl⟩, rfl⟩

/-! ### Amounts -/

/-- A numeral between quotation marks, with blanks around it. -/
def quotedPattern : Pattern :=
  both (only '"') (both (run isAsciiBlank) (both (group 1 numeralPattern)
    (both (run isAsciiBlank) (only '"'))))

/-- A numeral that ends at a blank, a comma, a closing bracket or the end of the text. -/
def barePattern : Pattern :=
  both (group 2 numeralPattern)
    (either (char fun c => isAsciiBlank c || c == ',' || c == '\x7d' || c == ']') atEnd)

/-- The name of the amount, a colon, and the numeral in quotation marks or bare. -/
def amountPattern : Pattern :=
  both (word amountKey) (both (run isAsciiBlank) (both (only ':') (both (run isAsciiBlank)
    (either quotedPattern barePattern))))

/-- The numeral that a match keeps: that in quotation marks, or else the bare one. -/
def Text.Way.numeral? (w : Way) : Option (List Char) :=
  (w.groups.lookup 1).or (w.groups.lookup 2)

variable {cs : List Char} {w : Way}

theorem mem_ways_quotedPattern : w ∈ quotedPattern.ways cs ↔
    ∃ inside n inside' rest, (∀ c ∈ inside, isAsciiBlank c = true) ∧
      (∀ c ∈ inside', isAsciiBlank c = true) ∧
      cs = '"' :: (inside ++ (SignedNumeral.text n ++ (inside' ++ '"' :: rest))) ∧
      w = ⟨'"' :: (inside ++ (n.text ++ (inside' ++ ['"']))), [(1, n.text)], rest⟩ := by
  have hclosing := (spells_run isAsciiBlank).both (spells_only '"')
  rw [quotedPattern, (spells_only '"').mem_ways_both]
  constructor
  · rintro ⟨_, _, rfl, rfl, u, hu, rfl⟩
    obtain ⟨inside, _, hinside, rfl, v, hv, rfl⟩ := (spells_run isAsciiBlank).mem_ways_both.1 hu
    obtain ⟨_, _, ⟨n, rfl⟩, rfl, x, hx, rfl⟩ := (spells_numeralPattern.group 1).mem_ways_both.1 hv
    obtain ⟨_, rest, ⟨inside', _, hinside', rfl, rfl⟩, rfl, rfl⟩ := (hclosing _ _).1 hx
    exact ⟨inside, n, inside', rest, hinside, hinside', by simp, by simp [Way.append]⟩
  · rintro ⟨inside, n, inside', rest, hinside, hinside', rfl, rfl⟩
    refine ⟨_, _, rfl, rfl, _, (spells_run isAsciiBlank).mem_ways_both.2
      ⟨inside, _, hinside, rfl, _, (spells_numeralPattern.group 1).mem_ways_both.2
        ⟨_, _, ⟨n, rfl⟩, rfl, ⟨inside' ++ ['"'], [], rest⟩, (hclosing _ _).2
          ⟨_, rest, ⟨inside', _, hinside', rfl, rfl⟩, ?_, rfl⟩, rfl⟩, rfl⟩, ?_⟩
    · simp
    · simp [Way.append]

theorem mem_ways_barePattern : w ∈ barePattern.ways cs ↔
    ∃ n rest, ClosesAmount false rest ∧ cs = SignedNumeral.text n ++ rest ∧
      w = ⟨n.text ++ rest.take 1, [(2, n.text)], rest.drop 1⟩ := by
  rw [barePattern, (spells_numeralPattern.group 2).mem_ways_both]
  simp only [mem_ways_either, mem_ways_char, mem_ways_atEnd, Bool.or_eq_true, beq_iff_eq, or_assoc]
  constructor
  · rintro ⟨_, _, ⟨n, rfl⟩, rfl, _, ⟨c, rest, hc, rfl, rfl⟩ | ⟨rfl, rfl⟩, rfl⟩
    · exact ⟨n, c :: rest, .delimiter hc rest, rfl, rfl⟩
    · exact ⟨n, [], .atEnd, rfl, rfl⟩
  · rintro ⟨n, rest, hrest, rfl, rfl⟩
    refine ⟨n.text, rest, ⟨n, rfl⟩, rfl, ⟨rest.take 1, [], rest.drop 1⟩, ?_, rfl⟩
    -- the delimiter belongs to the match, but not to the numeral
    cases hrest with
    | @delimiter c hc rest => exact .inl ⟨c, rest, hc, rfl, rfl⟩
    | atEnd => exact .inr ⟨rfl, rfl⟩

/-- What the pattern matches in front of the numeral, and then the numeral with what closes it. -/
theorem mem_ways_amountPattern : w ∈ amountPattern.ways cs ↔
    ∃ before after rest, (∀ c ∈ before, isAsciiBlank c = true) ∧
      (∀ c ∈ after, isAsciiBlank c = true) ∧ cs = amountKey ++ (before ++ ':' :: (after ++ rest)) ∧
      ∃ v, (v ∈ quotedPattern.ways rest ∨ v ∈ barePattern.ways rest) ∧
        w = .append ⟨amountKey ++ (before ++ ':' :: after), [], rest⟩ v := by
  rw [amountPattern]
  constructor
  · intro hw
    obtain ⟨_, _, rfl, rfl, x, hx, rfl⟩ := (spells_word amountKey).mem_ways_both.1 hw
    obtain ⟨before, _, hbefore, rfl, y, hy, rfl⟩ := (spells_run isAsciiBlank).mem_ways_both.1 hx
    obtain ⟨_, _, rfl, rfl, z, hz, rfl⟩ := (spells_only ':').mem_ways_both.1 hy
    obtain ⟨after, rest, hafter, rfl, v, hv, rfl⟩ := (spells_run isAsciiBlank).mem_ways_both.1 hz
    exact ⟨before, after, rest, hbefore, hafter, rfl, v, mem_ways_either.1 hv,
      by simp [Way.append]⟩
  · rintro ⟨before, after, rest, hbefore, hafter, rfl, v, hv, rfl⟩
    have hvalue := (spells_run isAsciiBlank).mem_ways_both.2
      ⟨after, rest, hafter, rfl, v, mem_ways_either.2 hv, rfl⟩
    have hcolon := (spells_only ':').mem_ways_both.2 ⟨[':'], _, rfl, rfl, _, hvalue, rfl⟩
    have hblanks := (spells_run isAsciiBlank).mem_ways_both.2
      ⟨before, _, hbefore, rfl, _, hcolon, rfl⟩
    convert (spells_word amountKey).mem_ways_both.2
      ⟨amountKey, _, rfl, rfl, _, hblanks, rfl⟩ using 1
    · simp
    · simp [Way.append]

/-- Every way in which the pattern matches is that of an amount. -/
theorem exists_amount_of_mem_ways (h : w ∈ amountPattern.ways cs) :
    ∃ a : Amount cs, w.numeral? = some a.number.text := by
  obtain ⟨before, after, rest, hbefore, hafter, rfl, v, hv, rfl⟩ := mem_ways_amountPattern.1 h
  obtain hquoted | hbare := hv
  · obtain ⟨inside, n, inside', rest', hinside, hinside', rfl, rfl⟩ :=
      mem_ways_quotedPattern.1 hquoted
    exact ⟨⟨true, _, n, _, .quoted hbefore hafter hinside, .quoted hinside' rest', by simp⟩, rfl⟩
  · obtain ⟨n, rest', hcloses, rfl, rfl⟩ := mem_ways_barePattern.1 hbare
    exact ⟨⟨false, _, n, rest', .bare hbefore hafter, hcloses, by simp⟩, rfl⟩

/-- Every amount is matched. -/
theorem exists_mem_ways_amountPattern (a : Amount cs) : ∃ w, w ∈ amountPattern.ways cs := by
  obtain ⟨isQuoted, opening, n, rest, hopens, hcloses, rfl⟩ := a
  cases hopens with
  | @bare before after hbefore hafter =>
    have hbare := mem_ways_barePattern.2 ⟨n, rest, hcloses, rfl, rfl⟩
    exact ⟨_, mem_ways_amountPattern.2
      ⟨before, after, n.text ++ rest, hbefore, hafter, by simp, _, .inr hbare, rfl⟩⟩
  | @quoted before after inside hbefore hafter hinside =>
    cases hcloses with
    | @quoted inside' hinside' rest =>
      have hquoted := mem_ways_quotedPattern.2
        ⟨inside, n, inside', rest, hinside, hinside', rfl, rfl⟩
      exact ⟨_, mem_ways_amountPattern.2
        ⟨before, after, _, hbefore, hafter, by simp, _, .inl hquoted, rfl⟩⟩

/-! ### The search -/

/-- The preferred way keeps the numeral that is taken off at full length. -/
theorem bind_head?_ways_amountPattern (cs : List Char) :
    (amountPattern.ways cs).head?.bind Way.numeral? = amountAt? cs := by
  cases hways : amountPattern.ways cs with
  | nil =>
    -- an amount would be matched
    cases hat : amountAt? cs with
    | none => rfl
    | some word =>
      obtain ⟨a, -⟩ := amountAt?_eq_some_iff.1 hat
      obtain ⟨w, hw⟩ := exists_mem_ways_amountPattern a
      rw [hways] at hw
      cases hw
  | cons w ws =>
    obtain ⟨a, ha⟩ := exists_amount_of_mem_ways (hways ▸ List.mem_cons_self)
    exact ha.trans (amountAt?_eq_some_iff.2 ⟨a, rfl⟩).symm

/-- The search for an amount gives what the first match of the pattern keeps. -/
theorem search_amountPattern (text : List Char) :
    (amountPattern.search text).bind Way.numeral? = scanAmount? text := by
  induction text with
  | nil => exact bind_head?_ways_amountPattern []
  | cons c cs ih =>
    have hhead := bind_head?_ways_amountPattern (c :: cs)
    rw [Pattern.search, scanAmount?, ← hhead]
    cases hways : (amountPattern.ways (c :: cs)).head? with
    | none => exact ih
    -- the first place with a match has an amount, so the search ends there too
    | some w =>
      obtain ⟨a, ha⟩ := exists_amount_of_mem_ways (List.mem_of_head? hways)
      rw [Option.bind_some, ha]

/-- What stands behind the numeral of an amount is no letter, no digit and no point. -/
theorem Amount.head_rest (a : Amount cs) :
    ∀ c ∈ a.rest.head?, c.isAlphanum = false ∧ c ≠ '.' := by
  intro c hc
  constructor
  · obtain hblank | rfl | rfl | rfl | rfl := a.closes.head_cases c hc
    · exact (of_isAsciiBlank hblank).2
    all_goals rfl
  · rintro rfl
    cases a.closes.isNumeralChar_head _ hc

/-- The search takes the first amount of a text.  An amount is written in one way only, its numeral
cannot be longer, and nothing behind it goes on like a number. -/
theorem scanAmount_leftmost_maximal (text : List Char) :
    (∀ p (a b : Amount (text.drop p)),
      a.opening = b.opening ∧ a.number.text = b.number.text ∧ a.rest = b.rest) ∧
    (∀ p (a : Amount (text.drop p)),
      (∀ n rest, a.number.text ++ a.rest = SignedNumeral.text n ++ rest →
        n.text.length ≤ a.number.text.length) ∧
      ∀ c ∈ a.rest.head?, c.isAlphanum = false ∧ c ≠ '.') ∧
    (scanAmount text = .error (.streamParse .noAmount) ↔ ∀ p, IsEmpty (Amount (text.drop p))) ∧
    (∀ p (a : Amount (text.drop p)), (∀ q < p, IsEmpty (Amount (text.drop q))) →
      scanAmount text =
        if a.number.value.isFinite then .ok a.number.value
        else .error (.streamParse (.notFinite (String.ofList a.number.text)))) ∧
    (amountPattern.search text).bind Way.numeral? = scanAmount? text := by
  refine ⟨fun p a b => a.unique b, fun p a => ⟨fun n rest => a.length_le, a.head_rest⟩, ?_, ?_,
    search_amountPattern text⟩
  · simp only [isEmpty_amount_iff]
    rw [← scanAmount?_eq_none_iff, scanAmount]
    cases scanAmount? text with
    | none => exact iff_of_true rfl rfl
    | some word =>
      refine iff_of_false ?_ (Option.some_ne_none word)
      dsimp only
      cases readDecimal? word <;> rintro ⟨⟩
  · intro p a hfirst
    have hscan : scanAmount? text = some a.number.text :=
      scanAmount?_eq_some_iff.2 ⟨p, amountAt?_eq_some_iff.2 ⟨a, rfl⟩,
        fun q hq => isEmpty_amount_iff.1 (hfirst q hq)⟩
    rw [scanAmount, hscan]
    dsimp only
    rw [a.number.readDecimal?_text]
    by_cases hfinite : a.number.value.isFinite = true
    · rw [if_pos hfinite, if_pos hfinite]
    · rw [if_neg hfinite, if_neg hfinite]

/-- A text in which the name of the amount stands twice, the first time in front of what is no
numeral. -/
def twiceNamed : List Char := "\"amount\":\"1,5\" \"amount\" : -2.5E1]".toList

/-- The amount at the second name. -/
def secondAmount : Amount (twiceNamed.drop 15) where
  isQuoted := false
  opening := "\"amount\" : ".toList
  number := ⟨true, ['2'], ['5'], some ⟨'E', [], ['1'], by simp, by simp, by simp, by simp⟩,
    by simp, by simp, by simp⟩
  rest := [']']
  opens := @OpensAmount.bare [' '] [' '] (by simp [isAsciiBlank]) (by simp [isAsciiBlank])
  closes := .delimiter (by simp) []
  eq := by decide

theorem scanAmount_leftmost_maximal_twiceNamed :
    (∀ q < 15, IsEmpty (Amount (twiceNamed.drop q))) ∧
      scanAmount twiceNamed = .ok secondAmount.number.value := by
  have hfirst : ∀ q < 15, IsEmpty (Amount (twiceNamed.drop q)) := by
    intro q hq
    have hnone : ∀ q < 15, amountAt? (twiceNamed.drop q) = none := by decide
    exact isEmpty_amount_iff.2 (hnone q hq)
  refine ⟨hfirst, ?_⟩
  rw [(scanAmount_leftmost_maximal twiceNamed).2.2.2.1 15 secondAmount hfirst]
  exact if_pos (by decide)

end TrustBoundary
