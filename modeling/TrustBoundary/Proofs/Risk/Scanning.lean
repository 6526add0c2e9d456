import TrustBoundary.Proofs.Decimal.Written
import TrustBoundary.Proofs.Json.Contents
import TrustBoundary.Proofs.Json.Printed
import TrustBoundary.Proofs.Risk.AmountGrammar

/-!
# What the search for an amount finds in a printed object

A quotation mark inside a string stands behind a backslash, so the name of the amount ends at a
quotation mark of a string only where the string ends (`StringContent.append_inj`).  The name with a
colon behind it can therefore not come about inside a string, whatever the string holds
(`scanAmount?_string`): the search passes over every other member of an object
(`scanAmount?_members`) and takes the numeral of the amount as a whole (`scanAmount?_amount`).
-/

namespace TrustBoundary

open Json

variable {c : Char} {cs rest content : List Char}

/-- Whether nothing in a text needs an escape. -/
def isPlain (cs : List Char) : Bool := cs.all fun c => escapedChar c == [c]

theorem isPlain_iff : isPlain cs = true ↔ ∀ c ∈ cs, escapedChar c = [c] := by
  simp [isPlain]

/-! ### Positions without an amount -/

/-- An amount begins with a quotation mark. -/
theorem amountAt?_cons (hc : c ≠ '"') (cs : List Char) : amountAt? (c :: cs) = none := by
  rw [amountAt?, amountKey, behind?, if_neg fun h => hc h.symm]
  rfl

theorem scanAmount?_cons (h : amountAt? (c :: cs) = none) :
    scanAmount? (c :: cs) = scanAmount? cs := by
  rw [scanAmount?, h]

theorem scanAmount?_of_amountAt? {word : List Char} (h : amountAt? cs = some word) :
    scanAmount? cs = some word :=
  scanAmount?_eq_some_iff.2 ⟨0, h, fun q hq => absurd hq (Nat.not_lt_zero q)⟩

theorem scanAmount?_append (h : ∀ c ∈ cs, c ≠ '"') (rest : List Char) :
    scanAmount? (cs ++ rest) = scanAmount? rest := by
  induction cs with
  | nil => rfl
  | cons c cs ih =>
    rw [List.cons_append, scanAmount?_cons (amountAt?_cons (h c List.mem_cons_self) _)]
    exact ih fun d hd => h d (List.mem_cons_of_mem c hd)

/-- The characters of the name of the amount. -/
def amountName : List Char := ['a', 'm', 'o', 'u', 'n', 't']

/-- No amount begins at the quotation mark in front of a string, unless the string is the name of
the amount and a colon follows. -/
theorem amountAt?_string (hcontent : StringContent content) (h : content ≠ amountName ∨
      behind? [':'] (rest.dropWhile isAsciiBlank) = none) :
    amountAt? ('"' :: (content ++ '"' :: rest)) = none := by
  rw [amountAt?_eq]
  cases hkey : behind? amountKey ('"' :: (content ++ '"' :: rest)) with
  | none => rfl
  | some after =>
    have heq : amountName ++ '"' :: after = content ++ '"' :: rest :=
      (List.cons.inj (behind?_eq_some_iff.1 hkey)).2.symm
    have hword : StringContent amountName := stringContent_of_forall (by simp [amountName])
    obtain ⟨hname, rfl⟩ := hword.append_inj hcontent heq
    rw [Option.bind_some, h.resolve_left (not_not_intro hname.symm), Option.bind_none]

/-- What follows a value in an object. -/
def EndsMember (rest : List Char) : Prop := ∃ c tail, rest = c :: tail ∧ (c = ',' ∨ c = '\x7d')

theorem endsMember_brace (rest : List Char) : EndsMember ('\x7d' :: rest) :=
  ⟨'\x7d', rest, rfl, .inr rfl⟩

theorem EndsMember.behind?_colon (h : EndsMember rest) :
    behind? [':'] (rest.dropWhile isAsciiBlank) = none := by
  obtain ⟨c, tail, rfl, rfl | rfl⟩ := h <;> rfl

/-- No amount begins inside a string that is followed by a comma or the end of the object. -/
theorem scanAmount?_content (hrest : EndsMember rest) (hcontent : StringContent content) :
    scanAmount? (content ++ '"' :: rest) = scanAmount? ('"' :: rest) := by
  induction hcontent with
  | nil => rfl
  | plain hquote hslash h ih =>
    rw [List.cons_append, scanAmount?_cons (amountAt?_cons hquote _), ih]
  | @escape c cs h ih =>
    -- the character may be a quotation mark, and then the rest of the string follows it
    have hc : amountAt? (c :: (cs ++ '"' :: rest)) = none := by
      by_cases hquote : c = '"'
      · rw [hquote]
        exact amountAt?_string h (.inr hrest.behind?_colon)
      · exact amountAt?_cons hquote _
    rw [List.cons_append, List.cons_append, scanAmount?_cons (amountAt?_cons (by decide) _),
      scanAmount?_cons hc, ih]

/-- A string that is a value is passed over. -/
theorem scanAmount?_string (hrest : EndsMember rest) (hcontent : StringContent content) :
    scanAmount? ('"' :: (content ++ '"' :: rest)) = scanAmount? rest := by
  have hclosing : amountAt? ('"' :: rest) = none := by
    obtain ⟨c, tail, rfl, rfl | rfl⟩ := hrest <;> rfl
  rw [scanAmount?_cons (amountAt?_string hcontent (.inr hrest.behind?_colon)),
    scanAmount?_content hrest hcontent, scanAmount?_cons hclosing]

/-- The name of a member is passed over if nothing in it needs an escape and it is another one than
that of the amount. -/
theorem scanAmount?_name {name : String} (hplain : isPlain name.toList = true)
    (hne : name ≠ "amount") (rest : List Char) :
    scanAmount? (stringText name ++ ':' :: rest) = scanAmount? rest := by
  have hcontent : name.toList ≠ amountName := fun h => hne (String.toList_inj.1 h)
  rw [isPlain_iff] at hplain
  have hescaped : name.toList.flatMap escapedChar = name.toList := by
    rw [List.flatMap_congr hplain, List.flatMap_singleton']
  have hquote : ∀ c ∈ name.toList, c ≠ '"' := by
    rintro c hc rfl
    cases hplain _ hc
  have hstring : amountAt? ('"' :: (name.toList ++ '"' :: ':' :: rest)) = none :=
    amountAt?_string (hescaped ▸ stringContent_escaped name.toList) (.inl hcontent)
  rw [stringText, List.cons_append, List.append_assoc, List.singleton_append, hescaped,
    scanAmount?_cons hstring, scanAmount?_append hquote, scanAmount?_cons rfl,
    scanAmount?_cons (amountAt?_cons (by decide) _)]

/-- The name of the amount is passed over if no amount follows it. -/
theorem scanAmount?_amountKey (h : amountAt? (stringText "amount" ++ ':' :: rest) = none) :
    scanAmount? (stringText "amount" ++ ':' :: rest) = scanAmount? rest := by
  have htext : stringText "amount" ++ ':' :: rest = '"' :: (amountName ++ '"' :: ':' :: rest) := rfl
  rw [htext] at h ⊢
  rw [scanAmount?_cons h, scanAmount?_append (by simp [amountName]), scanAmount?_cons rfl,
    scanAmount?_cons (amountAt?_cons (by decide) _)]

/-! ### Members -/

/-- Whether the search passes over a member. -/
def PassedOver (m : String × Value) : Prop :=
  ∀ rest, EndsMember rest →
    scanAmount? (stringText m.1 ++ ':' :: (m.2.chars ++ rest)) = scanAmount? rest

theorem passedOver_string {name : String} (hplain : isPlain name.toList = true)
    (hne : name ≠ "amount") (s : String) : PassedOver (name, .string s) := by
  intro rest hrest
  rw [scanAmount?_name hplain hne, Value.chars, stringText, List.cons_append, List.append_assoc]
  exact scanAmount?_string hrest (stringContent_escaped s.toList)

/-- An amount that is null is none. -/
theorem passedOver_null : PassedOver ("amount", .null) := by
  intro rest _
  rw [scanAmount?_amountKey rfl]
  change scanAmount? (['n', 'u', 'l', 'l'] ++ rest) = _
  rw [scanAmount?_append (by simp)]

theorem endsMember_moreChars (ms : List (String × Value)) (rest : List Char) :
    EndsMember (moreChars ms ++ '\x7d' :: rest) := by
  cases ms with
  | nil => exact endsMember_brace rest
  | cons m ms => exact ⟨',', _, rfl, .inl rfl⟩

/-- The search goes on behind the members that it passes over. -/
theorem scanAmount?_members {ms : List (String × Value)} (h : ∀ m ∈ ms, PassedOver m)
    (more : List (String × Value)) (rest : List Char) :
    scanAmount? (moreChars (ms ++ more) ++ '\x7d' :: rest) =
      scanAmount? (moreChars more ++ '\x7d' :: rest) := by
  induction ms with
  | nil => rfl
  | cons m ms ih =>
    obtain ⟨name, v⟩ := m
    have hm := h (name, v) List.mem_cons_self _ (endsMember_moreChars (ms ++ more) rest)
    rw [List.cons_append, moreChars, membersChars_cons, List.cons_append,
      scanAmount?_cons (amountAt?_cons (by decide) _),
      ← ih fun m hm => h m (List.mem_cons_of_mem _ hm), ← hm]
    simp only [List.append_assoc, List.cons_append]

theorem scanAmount?_object (ms : List (String × Value)) :
    scanAmount? (Value.object ms).chars = scanAmount? (moreChars ms ++ ['\x7d']) := by
  rw [Value.chars, scanAmount?_cons (amountAt?_cons (by decide) _)]
  cases ms with
  | nil => rfl
  | cons m ms =>
    rw [moreChars, List.cons_append, scanAmount?_cons (amountAt?_cons (by decide) _)]

/-- The text of a double is a numeral. -/
theorem exists_signedNumeral {x : Float} (hfinite : x.isFinite = true) :
    ∃ n : SignedNumeral, n.text = Decimal.ofFloat x := by
  obtain ⟨n, htext, -, -⟩ := Decimal.exists_numeral hfinite
  rw [htext]
  obtain hsign | hsign := Decimal.signOf_cases x
  · exact ⟨⟨false, n⟩, by rw [hsign]; rfl⟩
  · exact ⟨⟨true, n⟩, by rw [hsign]; rfl⟩

/-- A numeral is found where it is the amount. -/
theorem scanAmount?_numeral (n : SignedNumeral) (hrest : EndsMember rest) :
    scanAmount? (stringText "amount" ++ ':' :: (n.text ++ rest)) = some n.text := by
  have hcloses : ClosesAmount false rest := by
    obtain ⟨c, tail, rfl, hc⟩ := hrest
    exact .delimiter (.inr (hc.imp_right .inl)) tail
  have hopens : OpensAmount false (amountKey ++ ([] ++ ':' :: [])) := .bare (by simp) (by simp)
  exact scanAmount?_of_amountAt?
    (amountAt?_eq_some_iff.2 ⟨⟨false, _, n, rest, hopens, hcloses, rfl⟩, rfl⟩)

/-- A double is found as it is written. -/
theorem scanAmount?_amount {x : Float} (hfinite : x.isFinite = true) (hrest : EndsMember rest) :
    scanAmount? (stringText "amount" ++ ':' :: (Decimal.ofFloat x ++ rest)) =
      some (Decimal.ofFloat x) := by
  obtain ⟨n, hn⟩ := exists_signedNumeral hfinite
  rw [← hn]
  exact scanAmount?_numeral n hrest

end TrustBoundary
