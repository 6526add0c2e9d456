import TrustBoundary.Proofs.Decimal.SignedNumeral

/-!
# How an amount is written in a text

`Amount cs` says how the text `cs` begins with an amount: with the name, a colon and a numeral,
which is in quotation marks (`OpensAmount true`, `ClosesAmount true`) or bare.  What follows the
numeral never goes on like one, so that the numeral is as long as it can be (`Amount.length_le`) and
a text begins with an amount in one way only (`Amount.unique`).  The search takes a numeral off at
full length without looking ahead, and just therefore finds every amount (`amountAt?_eq_some_iff`);
of a whole text it gives the first one (`scanAmount?_eq_some_iff`).
-/

namespace TrustBoundary

open Numeral

variable {cs rest : List Char}

/-! ### Amounts -/

/-- What stands in front of the numeral of an amount, which is in quotation marks or bare. -/
inductive OpensAmount : Bool → List Char → Prop
  | bare {before after : List Char} (hbefore : ∀ c ∈ before, isAsciiBlank c = true)
      (hafter : ∀ c ∈ after, isAsciiBlank c = true) :
      OpensAmount false (amountKey ++ (before ++ ':' :: after))
  | quoted {before after inside : List Char} (hbefore : ∀ c ∈ before, isAsciiBlank c = true)
      (hafter : ∀ c ∈ after, isAsciiBlank c = true)
      (hinside : ∀ c ∈ inside, isAsciiBlank c = true) :
      OpensAmount true (amountKey ++ (before ++ ':' :: (after ++ '"' :: inside)))

/-- What may stand behind the numeral of an amount, which is in quotation marks or bare. -/
inductive ClosesAmount : Bool → List Char → Prop
  | delimiter {c : Char} (hc : isAsciiBlank c = true ∨ c = ',' ∨ c = '\x7d' ∨ c = ']')
      (rest : List Char) : ClosesAmount false (c :: rest)
  | atEnd : ClosesAmount false []
  | quoted {inside : List Char} (hinside : ∀ c ∈ inside, isAsciiBlank c = true)
      (rest : List Char) : ClosesAmount true (inside ++ '"' :: rest)

/-- How a text begins with an amount. -/
structure Amount (cs : List Char) where
  isQuoted : Bool
  opening : List Char
  number : SignedNumeral
  rest : List Char
  opens : OpensAmount isQuoted opening
  closes : ClosesAmount isQuoted rest
  eq : cs = opening ++ (number.text ++ rest)

theorem toNat_of_isAsciiBlank {c : Char} (h : isAsciiBlank c = true) :
    c.toNat = 32 ∨ 9 ≤ c.toNat ∧ c.toNat ≤ 13 := by
  rw [isAsciiBlank, Bool.or_eq_true, beq_iff_eq, Bool.and_eq_true, decide_eq_true_eq,
    decide_eq_true_eq] at h
  obtain rfl | ⟨hge, hle⟩ := h
  · exact .inl rfl
  · exact .inr ⟨hge, hle⟩

theorem toNat_le_of_isAsciiBlank {c : Char} (h : isAsciiBlank c = true) : c.toNat ≤ 32 := by
  have hrange := toNat_of_isAsciiBlank h
  omega

/-- The blanks of ASCII are taken off a text with all others. -/
theorem isBlank_of_isAsciiBlank {c : Char} (h : isAsciiBlank c = true) : Text.isBlank c = true := by
  obtain hspace | ⟨hge, hle⟩ := toNat_of_isAsciiBlank h
  · simp [Text.isBlank, hspace]
  · simp [Text.isBlank, hge, hle]

/-- Letters, digits and the marks of numerals come after the blanks. -/
theorem of_isAsciiBlank {c : Char} (h : isAsciiBlank c = true) :
    isNumeralChar c = false ∧ c.isAlphanum = false := by
  have hle := toNat_le_of_isAsciiBlank h
  rw [Bool.eq_false_iff, Bool.eq_false_iff]
  constructor
  · -- no blank comes after the space, and these all do
    intro hc
    simp only [isNumeralChar, goesOnWith, Bool.or_eq_true, beq_iff_eq, Char.isDigit_iff_toNat] at hc
    obtain ((((hdigit | rfl) | rfl) | rfl) | rfl) | rfl := hc
    · exact absurd (hdigit.1.trans hle) (by decide)
    all_goals exact absurd hle (by decide)
  · intro hc
    simp [Char.isAlphanum, Char.isAlpha, Char.isUpper, Char.isLower, Char.isDigit,
      UInt32.le_iff_toNat_le] at hc
    omega

/-- What stands behind a numeral. -/
theorem ClosesAmount.head_cases {isQuoted : Bool} (h : ClosesAmount isQuoted rest) :
    ∀ c ∈ rest.head?, isAsciiBlank c = true ∨ c = ',' ∨ c = '\x7d' ∨ c = ']' ∨ c = '"' := by
  intro c hc
  cases h with
  | delimiter hd rest =>
    obtain rfl := Option.some.inj hc
    obtain hc | hc | hc | hc := hd <;> simp [hc]
  | atEnd => cases hc
  | @quoted inside hinside rest =>
    cases inside with
    | nil =>
      obtain rfl := Option.some.inj hc
      simp
    | cons d inside =>
      obtain rfl := Option.some.inj hc
      exact .inl (hinside _ List.mem_cons_self)

/-- What stands behind a numeral does not go on like one. -/
theorem ClosesAmount.isNumeralChar_head {isQuoted : Bool} (h : ClosesAmount isQuoted rest) :
    ∀ c ∈ rest.head?, isNumeralChar c = false := by
  intro c hc
  obtain hblank | rfl | rfl | rfl | rfl := h.head_cases c hc
  · exact (of_isAsciiBlank hblank).1
  all_goals rfl

theorem ClosesAmount.endsBefore {isQuoted : Bool} (h : ClosesAmount isQuoted rest) :
    EndsBefore rest := by
  intro c hc
  have hchar := h.isNumeralChar_head c hc
  simp only [isNumeralChar, Bool.or_eq_false_iff] at hchar
  exact hchar.1.1

/-! ### Blanks -/

theorem exists_blanks (cs : List Char) :
    ∃ blanks, (∀ c ∈ blanks, isAsciiBlank c = true) ∧ cs = blanks ++ cs.dropWhile isAsciiBlank :=
  ⟨cs.takeWhile isAsciiBlank, fun _ hc => List.mem_takeWhile_imp hc,
    List.takeWhile_append_dropWhile.symm⟩

/-- Blanks are passed over up to what is none. -/
theorem dropWhile_blanks {blanks : List Char} (h : ∀ c ∈ blanks, isAsciiBlank c = true) {c : Char}
    (hc : isAsciiBlank c = false) (rest : List Char) :
    (blanks ++ c :: rest).dropWhile isAsciiBlank = c :: rest := by
  rw [List.dropWhile_append_of_pos h, List.dropWhile_cons, hc]
  rfl

/-- Blanks end where something else begins. -/
theorem blanks_append_inj {blanks blanks' : List Char} (h : ∀ c ∈ blanks, isAsciiBlank c = true)
    (h' : ∀ c ∈ blanks', isAsciiBlank c = true) {c c' : Char} (hc : isAsciiBlank c = false)
    (hc' : isAsciiBlank c' = false) {rest rest' : List Char}
    (heq : blanks ++ c :: rest = blanks' ++ c' :: rest') :
    blanks = blanks' ∧ c :: rest = c' :: rest' := by
  have hrest := congrArg (List.dropWhile isAsciiBlank) heq
  rw [dropWhile_blanks h hc, dropWhile_blanks h' hc'] at hrest
  rw [hrest] at heq
  exact ⟨List.append_cancel_right heq, hrest⟩

/-! ### Finding amounts -/

theorem behind?_eq_some_iff {start : List Char} :
    behind? start cs = some rest ↔ cs = start ++ rest := by
  induction start generalizing cs with
  | nil => simp [behind?]
  | cons s start ih =>
    cases cs with
    | nil => simp [behind?]
    | cons c cs =>
      rw [behind?]
      split
      next hs => rw [ih, hs, List.cons_append, List.cons_inj_right]
      next hs => simp [Ne.symm hs]

theorem isAsciiBlank_of_isNumeralChar {c : Char} (h : isNumeralChar c = true) :
    isAsciiBlank c = false ∧ c ≠ '"' := by
  constructor
  · rw [Bool.eq_false_iff]
    intro hblank
    rw [(of_isAsciiBlank hblank).1] at h
    cases h
  · rintro rfl
    cases h

/-- The numeral of an amount, from the first character behind its colon that is no blank. -/
def writtenNumeral? : List Char → Option (List Char)
  | '"' :: rest => do
    let (numeral, rest) ← takeNumeral? (rest.dropWhile isAsciiBlank)
    match rest.dropWhile isAsciiBlank with
    | '"' :: _ => some numeral
    | _ => none
  | cs => do
    let (numeral, rest) ← takeNumeral? cs
    if endsBareNumeral rest then some numeral else none

theorem amountAt?_eq (cs : List Char) :
    amountAt? cs = (behind? amountKey cs).bind fun cs =>
      (behind? [':'] (cs.dropWhile isAsciiBlank)).bind fun cs =>
        writtenNumeral? (cs.dropWhile isAsciiBlank) :=
  rfl

/-- Behind the name, a colon and blanks, an amount is found by its numeral. -/
theorem amountAt?_key {before after : List Char} (hbefore : ∀ c ∈ before, isAsciiBlank c = true)
    (hafter : ∀ c ∈ after, isAsciiBlank c = true) {c : Char} (hc : isAsciiBlank c = false)
    (rest : List Char) :
    amountAt? (amountKey ++ (before ++ ':' :: (after ++ c :: rest))) =
      writtenNumeral? (c :: rest) := by
  rw [amountAt?_eq, behind?_eq_some_iff.2 rfl, Option.bind_some,
    dropWhile_blanks hbefore (by decide), behind?, if_pos rfl, behind?, Option.bind_some,
    dropWhile_blanks hafter hc]

theorem writtenNumeral?_quoted {word : List Char} : writtenNumeral? ('"' :: cs) = some word ↔
    ∃ inside n rest, (∀ c ∈ inside, isAsciiBlank c = true) ∧ ClosesAmount true rest ∧
      cs = inside ++ (SignedNumeral.text n ++ rest) ∧ n.text = word := by
  rw [writtenNumeral?]
  constructor
  · intro h
    obtain ⟨⟨numeral, rest⟩, htake, h⟩ := Option.bind_eq_some_iff.1 h
    obtain ⟨n, rfl, hn⟩ := exists_of_takeNumeral? htake
    obtain ⟨inside, hinside, hcs⟩ := exists_blanks cs
    obtain ⟨inside', hinside', hrest⟩ := exists_blanks rest
    dsimp only at h
    split at h
    next rest' hclosing =>
      rw [hclosing] at hrest
      rw [hn] at hcs
      exact ⟨inside, n, rest, hinside, hrest ▸ .quoted hinside' rest', hcs, Option.some.inj h⟩
    next => cases h
  · rintro ⟨inside, n, rest, hinside, hcloses, rfl, rfl⟩
    have htake := n.takeNumeral?_text hcloses.endsBefore
    -- a numeral begins with no blank, so just the blanks in front of it are passed over
    obtain ⟨c, tail, htext, hc⟩ := n.exists_text_eq_cons
    rw [htext] at htake ⊢
    rw [List.cons_append] at htake ⊢
    rw [dropWhile_blanks hinside (isAsciiBlank_of_isNumeralChar hc).1, htake, Option.bind_eq_bind,
      Option.bind_some]
    cases hcloses with
    | quoted hinside' rest =>
      dsimp only
      rw [dropWhile_blanks hinside' (by decide)]
      rfl

theorem writtenNumeral?_bare {word : List Char} {c : Char} (hc : c ≠ '"') :
    writtenNumeral? (c :: cs) = some word ↔
      ∃ n rest, ClosesAmount false rest ∧ c :: cs = SignedNumeral.text n ++ rest ∧
        n.text = word := by
  have hcloses {rest : List Char} : endsBareNumeral rest = true ↔ ClosesAmount false rest := by
    cases rest with
    | nil => exact iff_of_true rfl .atEnd
    | cons d rest =>
      simp only [endsBareNumeral, Bool.or_eq_true, beq_iff_eq, or_assoc]
      exact ⟨fun h => .delimiter h rest, fun h => by cases h; assumption⟩
  rw [writtenNumeral?]
  · constructor
    · intro h
      obtain ⟨⟨numeral, rest⟩, htake, h⟩ := Option.bind_eq_some_iff.1 h
      obtain ⟨n, rfl, hn⟩ := exists_of_takeNumeral? htake
      dsimp only at h
      split at h
      next hends => exact ⟨n, rest, hcloses.1 hends, hn, Option.some.inj h⟩
      next => cases h
    · rintro ⟨n, rest, hrest, hn, rfl⟩
      rw [hn, n.takeNumeral?_text hrest.endsBefore, Option.bind_eq_bind, Option.bind_some]
      exact if_pos (hcloses.2 hrest)
  · exact fun _ h => hc (List.cons.inj h).1

/-- The search finds just the amounts. -/
theorem amountAt?_eq_some_iff {word : List Char} :
    amountAt? cs = some word ↔ ∃ a : Amount cs, a.number.text = word := by
  constructor
  · intro h
    rw [amountAt?_eq] at h
    obtain ⟨afterKey, hkey, h⟩ := Option.bind_eq_some_iff.1 h
    obtain ⟨afterColon, hcolon, h⟩ := Option.bind_eq_some_iff.1 h
    obtain ⟨before, hbefore, hafterKey⟩ := exists_blanks afterKey
    obtain ⟨after, hafter, hafterColon⟩ := exists_blanks afterColon
    rw [behind?_eq_some_iff.1 hcolon] at hafterKey
    replace hkey := behind?_eq_some_iff.1 hkey
    rw [hafterKey] at hkey
    -- the first character that is no blank tells which of the two forms it is
    cases hcs : afterColon.dropWhile isAsciiBlank with
    | nil =>
      rw [hcs] at h
      cases h
    | cons c tail =>
      rw [hcs] at h hafterColon
      rw [hafterColon] at hkey
      by_cases hc : c = '"'
      · subst hc
        obtain ⟨inside, n, rest, hinside, hcloses, rfl, hword⟩ := writtenNumeral?_quoted.1 h
        refine ⟨⟨true, _, n, rest, .quoted hbefore hafter hinside, hcloses, ?_⟩, hword⟩
        rw [hkey]
        simp
      · obtain ⟨n, rest, hcloses, hn, hword⟩ := (writtenNumeral?_bare hc).1 h
        refine ⟨⟨false, _, n, rest, .bare hbefore hafter, hcloses, ?_⟩, hword⟩
        rw [hkey, hn]
        simp
  · rintro ⟨⟨isQuoted, opening, n, rest, hopens, hcloses, rfl⟩, rfl⟩
    cases hopens with
    | @bare before after hbefore hafter =>
      obtain ⟨c, tail, htext, hc⟩ := n.exists_text_eq_cons
      obtain ⟨hblank, hquote⟩ := isAsciiBlank_of_isNumeralChar hc
      have hwritten := (writtenNumeral?_bare hquote).2 ⟨n, rest, hcloses, by rw [htext]; rfl, rfl⟩
      rw [← amountAt?_key hbefore hafter hblank] at hwritten
      rw [htext] at hwritten ⊢
      simpa using hwritten
    | @quoted before after inside hbefore hafter hinside =>
      have hwritten := writtenNumeral?_quoted.2 ⟨inside, n, rest, hinside, hcloses, rfl, rfl⟩
      rw [← amountAt?_key hbefore hafter (by decide)] at hwritten
      simpa using hwritten

theorem isEmpty_amount_iff : IsEmpty (Amount cs) ↔ amountAt? cs = none := by
  rw [Option.eq_none_iff_forall_ne_some]
  constructor
  · rintro hempty word hword
    obtain ⟨a, -⟩ := amountAt?_eq_some_iff.1 hword
    exact hempty.elim a
  · exact fun h => ⟨fun a => h _ (amountAt?_eq_some_iff.2 ⟨a, rfl⟩)⟩

/-! ### One way only -/

namespace OpensAmount

variable {isQuoted isQuoted' : Bool} {opening opening' : List Char}

/-- The blanks around the colon, and the quotation mark with the blanks behind it if there is one.
-/
theorem exists_parts (h : OpensAmount isQuoted opening) : ∃ before after inside,
    (∀ c ∈ before, isAsciiBlank c = true) ∧ (∀ c ∈ after, isAsciiBlank c = true) ∧
      (inside = [] ∨ ∃ blanks, (∀ c ∈ blanks, isAsciiBlank c = true) ∧ inside = '"' :: blanks) ∧
      opening = amountKey ++ (before ++ ':' :: (after ++ inside)) := by
  cases h with
  | bare hbefore hafter => exact ⟨_, _, [], hbefore, hafter, .inl rfl, by rw [List.append_nil]⟩
  | quoted hbefore hafter hinside =>
    exact ⟨_, _, _, hbefore, hafter, .inr ⟨_, hinside, rfl⟩, rfl⟩

/-- Where a numeral follows, it is known where it begins. -/
theorem unique (h : OpensAmount isQuoted opening) (h' : OpensAmount isQuoted' opening')
    {c d : Char} (hc : isNumeralChar c = true) (hd : isNumeralChar d = true)
    {tail tail' : List Char}
    (heq : opening ++ (c :: tail) = opening' ++ (d :: tail')) : opening = opening' := by
  obtain ⟨hblank, hquote⟩ := isAsciiBlank_of_isNumeralChar hc
  obtain ⟨hblank', hquote'⟩ := isAsciiBlank_of_isNumeralChar hd
  obtain ⟨before, after, inside, hbefore, hafter, hinside, rfl⟩ := h.exists_parts
  obtain ⟨before', after', inside', hbefore', hafter', hinside', rfl⟩ := h'.exists_parts
  simp only [List.append_assoc, List.cons_append, List.append_cancel_left_eq] at heq
  obtain ⟨rfl, hcolon⟩ := blanks_append_inj hbefore hbefore' (by decide) (by decide) heq
  have hvalue := (List.cons.inj hcolon).2
  -- behind the blanks stands either a quotation mark in both or the numeral in both
  obtain rfl | ⟨blanks, hblanks, rfl⟩ := hinside
  · obtain rfl | ⟨blanks', -, rfl⟩ := hinside'
    · obtain ⟨rfl, -⟩ := blanks_append_inj hafter hafter' hblank hblank' hvalue
      rfl
    · obtain ⟨-, hhead⟩ := blanks_append_inj hafter hafter' hblank (by decide) hvalue
      exact absurd (List.cons.inj hhead).1 hquote
  · obtain rfl | ⟨blanks', hblanks', rfl⟩ := hinside'
    · obtain ⟨-, hhead⟩ := blanks_append_inj hafter hafter' (by decide) hblank' hvalue
      exact absurd (List.cons.inj hhead).1.symm hquote'
    · obtain ⟨rfl, hhead⟩ := blanks_append_inj hafter hafter' (by decide) (by decide) hvalue
      obtain ⟨rfl, -⟩ := blanks_append_inj hblanks hblanks' hblank hblank' (List.cons.inj hhead).2
      rfl

end OpensAmount

namespace Amount

/-- No numeral goes on behind that of an amount. -/
theorem length_le (a : Amount cs) {n : SignedNumeral}
    (h : a.number.text ++ a.rest = n.text ++ rest) : n.text.length ≤ a.number.text.length := by
  by_contra hlt
  -- the character behind the shorter numeral would belong to the longer one
  obtain ⟨more, hmore⟩ : a.number.text <+: n.text :=
    List.prefix_of_prefix_length_le ⟨a.rest, h⟩ ⟨rest, rfl⟩ (by omega)
  cases more with
  | nil =>
    rw [List.append_nil] at hmore
    rw [hmore] at hlt
    exact hlt (Nat.le_refl _)
  | cons c more =>
    have hrest : a.rest = c :: (more ++ rest) := by
      rw [← hmore, List.append_assoc] at h
      exact List.append_cancel_left h
    have hmem : c ∈ n.text := hmore ▸ List.mem_append_right _ List.mem_cons_self
    have hchar := a.closes.isNumeralChar_head c (hrest ▸ rfl)
    rw [SignedNumeral.isNumeralChar_of_mem_text hmem] at hchar
    cases hchar

/-- A text begins with an amount in one way only. -/
theorem unique (a b : Amount cs) :
    a.opening = b.opening ∧ a.number.text = b.number.text ∧ a.rest = b.rest := by
  have heq := a.eq.symm.trans b.eq
  obtain ⟨c, tail, htext, hc⟩ := a.number.exists_text_eq_cons
  obtain ⟨d, tail', htext', hd⟩ := b.number.exists_text_eq_cons
  have hopening : a.opening = b.opening := by
    rw [htext, htext'] at heq
    exact a.opens.unique b.opens hc hd heq
  rw [hopening] at heq
  -- what is taken off as a numeral is that of either amount
  have htake := a.number.takeNumeral?_text a.closes.endsBefore
  rw [List.append_cancel_left heq, b.number.takeNumeral?_text b.closes.endsBefore] at htake
  obtain ⟨hword, hrest⟩ := Prod.mk.inj (Option.some.inj htake)
  exact ⟨hopening, hword.symm, hrest.symm⟩

end Amount

/-! ### Whole texts -/

theorem scanAmount?_eq_none_iff : scanAmount? cs = none ↔ ∀ p, amountAt? (cs.drop p) = none := by
  induction cs with
  | nil => simp [scanAmount?, amountAt?_eq, behind?, amountKey]
  | cons c cs ih =>
    rw [scanAmount?]
    cases hat : amountAt? (c :: cs) with
    | some word =>
      simp only [reduceCtorEq, false_iff, not_forall]
      exact ⟨0, by rw [List.drop_zero, hat]; exact Option.some_ne_none word⟩
    | none =>
      dsimp only
      rw [ih]
      constructor
      · rintro h (_ | p)
        · exact hat
        · exact h p
      · exact fun h p => h (p + 1)

/-- The search finds the first amount. -/
theorem scanAmount?_eq_some_iff {word : List Char} : scanAmount? cs = some word ↔
    ∃ p, amountAt? (cs.drop p) = some word ∧ ∀ q < p, amountAt? (cs.drop q) = none := by
  induction cs with
  | nil => simp [scanAmount?, amountAt?_eq, behind?, amountKey]
  | cons c cs ih =>
    rw [scanAmount?]
    cases hat : amountAt? (c :: cs) with
    | some first =>
      constructor
      · intro h
        exact ⟨0, hat.trans h, fun q hq => absurd hq (Nat.not_lt_zero q)⟩
      · rintro ⟨p, hp, hfirst⟩
        cases p with
        | zero => exact hat.symm.trans hp
        | succ p =>
          have hnone := hfirst 0 (Nat.zero_lt_succ p)
          rw [List.drop_zero, hat] at hnone
          cases hnone
    | none =>
      dsimp only
      rw [ih]
      constructor
      · rintro ⟨p, hp, hfirst⟩
        refine ⟨p + 1, hp, ?_⟩
        rintro (_ | q) hq
        · exact hat
        · exact hfirst q (Nat.lt_of_succ_lt_succ hq)
      · rintro ⟨p, hp, hfirst⟩
        cases p with
        | zero =>
          rw [List.drop_zero, hat] at hp
          cases hp
        | succ p => exact ⟨p, hp, fun q hq => hfirst (q + 1) (Nat.succ_lt_succ hq)⟩

end TrustBoundary
