import Mathlib.Tactic.SplitIfs
import TrustBoundary.Proofs.Json.Strings
import TrustBoundary.Steps

/-!
# What stands between quotation marks

Whatever string a reader takes off a text, its content is a `StringContent`: a quotation mark stands
in it only behind a backslash that takes it along.  So the string ends where the reader says,
whatever follows (`exists_of_readString`), and no other content ends in front of a quotation mark of
it (`StringContent.append_inj`).  Without a backslash, a string is its content (`eq_of_readString`).
-/

namespace TrustBoundary.Json

variable {c : Char} {cs content rest : List Char}

/-! ### Contents -/

/-- What may stand between the quotation marks of a string: a backslash takes the character behind
it along, and there is no quotation mark otherwise. -/
inductive StringContent : List Char → Prop
  | nil : StringContent []
  | plain {c : Char} {cs : List Char} (hquote : c ≠ '"') (hslash : c ≠ '\\')
      (h : StringContent cs) : StringContent (c :: cs)
  | escape (c : Char) {cs : List Char} (h : StringContent cs) : StringContent ('\\' :: c :: cs)

theorem ne_of_hexValue? {n : Nat} (h : hexValue? c = some n) : c ≠ '"' ∧ c ≠ '\\' := by
  constructor
  · rintro rfl
    cases h
  · rintro rfl
    cases h

/-- The number behind a backslash is written in digits. -/
theorem StringContent.unit {a b c d : Char} {n : Nat} (hunit : unit? a b c d = some n)
    (h : StringContent cs) : StringContent ('\\' :: 'u' :: a :: b :: c :: d :: cs) := by
  simp only [unit?, Option.bind_eq_bind, Option.bind_eq_some_iff] at hunit
  obtain ⟨_, ha, _, hb, _, hc, _, hd, -⟩ := hunit
  obtain ⟨haquote, haslash⟩ := ne_of_hexValue? ha
  obtain ⟨hbquote, hbslash⟩ := ne_of_hexValue? hb
  obtain ⟨hcquote, hcslash⟩ := ne_of_hexValue? hc
  obtain ⟨hdquote, hdslash⟩ := ne_of_hexValue? hd
  exact .escape 'u' (.plain haquote haslash (.plain hbquote hbslash (.plain hcquote hcslash
    (.plain hdquote hdslash h))))

/-- What is printed for a string is a content. -/
theorem stringContent_escaped (content : List Char) :
    StringContent (content.flatMap escapedChar) := by
  induction content with
  | nil => exact .nil
  | cons c content ih =>
    rw [List.flatMap_cons]
    obtain ⟨hc, hquote, hslash, -⟩ | ⟨letter, hc, -⟩ | ⟨hc, hlt⟩ := escapedChar_cases c
    · rw [hc]
      exact .plain hquote hslash ih
    · rw [hc]
      exact .escape letter ih
    · rw [hc]
      exact .unit (unit?_of_lt hlt) ih

/-! ### Reading -/

theorem readChars_quote (read rest : List Char) :
    readChars read none ('"' :: rest) = .ok (read.reverse, rest) := by
  rw [readChars.eq_def]
  rfl

/-- A reader takes a content off, with the quotation mark that ends it, and does not look at what
follows. -/
theorem exists_of_readChars {read s : List Char} {high : Option Nat}
    (h : readChars read high cs = .ok (s, rest)) :
    ∃ content, StringContent content ∧ cs = content ++ '"' :: rest ∧
      ∀ rest', readChars read high (content ++ '"' :: rest') = .ok (s, rest') := by
  fun_induction readChars read high cs with
  | case4 read high a b c d cs n hunit hlow ih =>
    -- the second half of a surrogate pair
    obtain ⟨content, hcontent, rfl, hread⟩ := ih h
    refine ⟨_, hcontent.unit hunit, rfl, fun rest' => ?_⟩
    rw [← hread rest']
    simp [readChars, hunit, hlow]
  | case9 read cs =>
    -- the quotation mark at the end
    obtain ⟨rfl, rfl⟩ := Prod.mk.inj (Except.ok.inj h)
    exact ⟨[], .nil, rfl, readChars_quote read⟩
  | case13 read a b c d cs n hunit hlow hhigh _ ih =>
    -- the first half of a pair
    obtain ⟨content, hcontent, rfl, hread⟩ := ih h
    refine ⟨_, hcontent.unit hunit, rfl, fun rest' => ?_⟩
    rw [← hread rest']
    simp [readChars, hunit, hlow, hhigh]
  | case14 read a b c d cs n hunit hlow hhigh _ ih =>
    -- a number that is a character by itself
    obtain ⟨content, hcontent, rfl, hread⟩ := ih h
    refine ⟨_, hcontent.unit hunit, rfl, fun rest' => ?_⟩
    rw [← hread rest']
    simp [readChars, hunit, hlow, hhigh]
  | case16 read letter cs _ hu c hletter _ ih =>
    -- a backslash with a letter
    obtain ⟨content, hcontent, rfl, hread⟩ := ih h
    refine ⟨_, hcontent.escape letter, rfl, fun rest' => ?_⟩
    rw [← hread rest']
    exact readChars_letter read hletter
  | case19 read c cs hquote hslash hcontrol ih =>
    -- a character as it is
    obtain ⟨content, hcontent, rfl, hread⟩ := ih h
    refine ⟨_, hcontent.plain hquote hslash, rfl, fun rest' => ?_⟩
    rw [← hread rest']
    exact readChars_cons read hquote hslash hcontrol
  | case3 | case6 | case11 | case15 =>
    -- the digits of a number are not there, or are none
    unfold stopInUnit at h
    split at h
    · cases h
    · cases h
  | _ => cases h

theorem exists_of_readString {s : String} (h : readString cs = .ok (s, rest)) :
    ∃ content, StringContent content ∧ cs = content ++ '"' :: rest ∧
      ∀ rest', readString (content ++ '"' :: rest') = .ok (s, rest') := by
  obtain ⟨⟨chars, tail⟩, hread, hs⟩ := bind_eq_ok_iff.1 h
  obtain ⟨rfl, rfl⟩ := Prod.mk.inj (Except.ok.inj hs)
  obtain ⟨content, hcontent, hcs, hchars⟩ := exists_of_readChars hread
  refine ⟨content, hcontent, hcs, fun rest' => ?_⟩
  rw [readString, hchars rest']
  rfl

/-- Where no backslash occurs, a string is read as it stands, up to the next quotation mark. -/
theorem eq_of_readChars {read s : List Char} (hslash : '\\' ∉ cs)
    (h : readChars read none cs = .ok (s, rest)) :
    ∃ content, '"' ∉ content ∧ cs = content ++ '"' :: rest ∧ s = read.reverse ++ content := by
  induction cs generalizing read with
  | nil => cases h
  | cons c cs ih =>
    have hc : c ≠ '\\' := (List.ne_of_not_mem_cons hslash).symm
    have hcs : '\\' ∉ cs := List.not_mem_of_not_mem_cons hslash
    by_cases hquote : c = '"'
    · rw [hquote, readChars_quote] at h
      obtain ⟨rfl, rfl⟩ := Prod.mk.inj (Except.ok.inj h)
      exact ⟨[], by simp, by rw [hquote]; rfl, by rw [List.append_nil]⟩
    · by_cases hcontrol : c.toNat < 32
      · -- a control character is refused
        rw [readChars.eq_def] at h
        simp only [if_neg hquote, if_neg hc, if_pos hcontrol] at h
        cases h
      · rw [readChars_cons read hquote hc hcontrol] at h
        obtain ⟨content, hcontent, rfl, rfl⟩ := ih hcs h
        have hquotes := List.not_mem_cons_of_ne_of_not_mem (Ne.symm hquote) hcontent
        exact ⟨c :: content, hquotes, rfl, by simp⟩

theorem eq_of_readString {s : String} (hslash : '\\' ∉ cs) (h : readString cs = .ok (s, rest)) :
    '"' ∉ s.toList ∧ cs = s.toList ++ '"' :: rest := by
  obtain ⟨⟨chars, tail⟩, hread, hs⟩ := bind_eq_ok_iff.1 h
  obtain ⟨rfl, rfl⟩ := Prod.mk.inj (Except.ok.inj hs)
  obtain ⟨content, hcontent, hcs, rfl⟩ := eq_of_readChars hslash hread
  rw [String.toList_ofList]
  exact ⟨hcontent, hcs⟩

/-! ### Words in contents -/

/-- Words without quotation marks end at the first one. -/
theorem append_quote_inj {word word' tail tail' : List Char} (h : '"' ∉ word) (h' : '"' ∉ word')
    (heq : word ++ '"' :: tail = word' ++ '"' :: tail') : word = word' ∧ tail = tail' := by
  induction word generalizing word' with
  | nil =>
    cases word' with
    | nil => exact ⟨rfl, (List.cons.inj heq).2⟩
    | cons c word' => exact absurd (List.cons.inj heq).1 (List.ne_of_not_mem_cons h')
  | cons c word ih =>
    cases word' with
    | nil => exact absurd (List.cons.inj heq).1.symm (List.ne_of_not_mem_cons h)
    | cons d word' =>
      obtain ⟨rfl, htail⟩ := List.cons.inj heq
      obtain ⟨rfl, rfl⟩ :=
        ih (List.not_mem_of_not_mem_cons h) (List.not_mem_of_not_mem_cons h') htail
      exact ⟨rfl, rfl⟩

/-- A word without quotation marks and backslashes is a content. -/
theorem stringContent_of_forall {word : List Char} (h : ∀ c ∈ word, c ≠ '"' ∧ c ≠ '\\') :
    StringContent word := by
  induction word with
  | nil => exact .nil
  | cons c word ih =>
    obtain ⟨⟨hquote, hslash⟩, hword⟩ := List.forall_mem_cons.1 h
    exact .plain hquote hslash (ih hword)

/-- Two contents in front of quotation marks of one text end at the same one. -/
theorem StringContent.append_inj {word tail : List Char} (hword : StringContent word)
    (h : StringContent content) (heq : word ++ '"' :: tail = content ++ '"' :: rest) :
    word = content ∧ tail = rest := by
  induction h generalizing word with
  | nil =>
    cases hword with
    | nil => exact ⟨rfl, (List.cons.inj heq).2⟩
    | plain hquote _ _ => exact absurd (List.cons.inj heq).1 hquote
    | escape c h => exact absurd (List.cons.inj heq).1 (by decide)
  | plain hquote hslash _ ih =>
    cases hword with
    | nil => exact absurd (List.cons.inj heq).1.symm hquote
    | plain _ _ hword =>
      obtain ⟨rfl, htail⟩ := List.cons.inj heq
      obtain ⟨rfl, rfl⟩ := ih hword htail
      exact ⟨rfl, rfl⟩
    | escape c h => exact absurd (List.cons.inj heq).1.symm hslash
  | escape c _ ih =>
    cases hword with
    | nil => exact absurd (List.cons.inj heq).1 (by decide)
    | plain _ hslash _ => exact absurd (List.cons.inj heq).1 hslash
    | escape d hword =>
      obtain ⟨-, hbehind⟩ := List.cons.inj heq
      obtain ⟨rfl, htail⟩ := List.cons.inj hbehind
      obtain ⟨rfl, rfl⟩ := ih hword htail
      exact ⟨rfl, rfl⟩

end TrustBoundary.Json
