import TrustBoundary.Proofs.Json.Exactness
import TrustBoundary.Proofs.Json.SingleMember
import TrustBoundary.Proofs.Risk.Amounts
import TrustBoundary.Proofs.Risk.Scanning

/-!
# Amounts in an object inside an object

The amount of an object is read as a JSON value, and that of an object inside another one is
searched for, so that two readers of numbers may look at what is written as the amount.  A string
that spells a numeral plainly, but for blanks around it, is the same amount for both, and any other
string is none for the search, though it may be one for the reader, which knows more spellings.  A
number is the same amount for both if the reader gives the double nearest to it, as the search does
(`amountIn?_wrapped`).
-/

namespace TrustBoundary

open Json

variable {content v rest : List Char} {n : SignedNumeral}

/-! ### Objects with an amount and objects around them -/

/-- The text of an object whose amount is written in some way. -/
def unwrapped (v : List Char) : String := String.ofList (singleMember "amount" v)

/-- The text of an object around such an object. -/
def wrapped (v : List Char) : String :=
  String.ofList (singleMember "payload" (singleMember "amount" v))

/-- Whether an amount is found alike in an object and in one around it, and raises the same alerts.
-/
structure AgreesWrapped (v : List Char) : Prop where
  amountIn?_eq : amountIn? (wrapped v) = amountIn? (unwrapped v)
  alerts_iff : ∀ threshold, Alerts threshold (wrapped v) ↔ Alerts threshold (unwrapped v)

theorem agreesWrapped_iff : AgreesWrapped v ↔ amountIn? (wrapped v) = amountIn? (unwrapped v) := by
  refine ⟨AgreesWrapped.amountIn?_eq, fun h => ⟨h, fun threshold => ?_⟩⟩
  rw [alerts_iff, alerts_iff, h]

/-- The search passes over the brace in front of a member. -/
theorem scanAmount?_singleMember (name : String) (v rest : List Char) :
    scanAmount? (singleMember name v ++ rest) =
      scanAmount? (stringText name ++ ':' :: (v ++ '\x7d' :: rest)) := by
  have htext : singleMember name v ++ rest =
      '\x7b' :: (stringText name ++ ':' :: (v ++ '\x7d' :: rest)) := by
    simp [singleMember]
  rw [htext, scanAmount?_cons (amountAt?_cons (by decide) _)]

theorem scanAmount?_unwrapped (v : List Char) : scanAmount? (unwrapped v).toList =
    scanAmount? (stringText "amount" ++ ':' :: (v ++ ['\x7d'])) := by
  rw [unwrapped, String.toList_ofList, ← List.append_nil (singleMember _ _),
    scanAmount?_singleMember]

/-- The search passes over the name of the object inside. -/
theorem scanAmount?_wrapped (v : List Char) : scanAmount? (wrapped v).toList =
    scanAmount? (stringText "amount" ++ ':' :: (v ++ ['\x7d', '\x7d'])) := by
  rw [wrapped, String.toList_ofList, ← List.append_nil (singleMember "payload" _),
    scanAmount?_singleMember, scanAmount?_name (by decide) (by decide), scanAmount?_singleMember]

section

variable (h : ∀ depth, (Value.decoder depth).ReachesBrace v)
include h

theorem recordAmount?_unwrapped {x : Float} : recordAmount? (unwrapped v) = some x ↔
    ∃ w, Value.decoder (Value.maxDepth - 1) (v ++ ['\x7d']) = .ok (w, ['\x7d']) ∧
      (Scalar.ofValue w).amount? = some x := by
  rw [recordAmount?_eq_some_iff]
  constructor
  · rintro ⟨ms, hms, hx⟩
    obtain ⟨w, hw, rfl⟩ := (members_singleMember (h _)).1 hms
    exact ⟨w, hw, hx⟩
  · rintro ⟨w, hw, hx⟩
    exact ⟨_, (members_singleMember (h _)).2 ⟨w, hw, rfl⟩, hx⟩

/-- In an object around another one, the amount is always searched for. -/
theorem amountIn?_wrapped_eq :
    amountIn? (wrapped v) = (scanAmount? (wrapped v).toList).bind readDecimal? := by
  have hrecord : recordAmount? (wrapped v) = none := by
    rw [Option.eq_none_iff_forall_ne_some]
    intro x hx
    obtain ⟨ms, hms, hamount⟩ := recordAmount?_eq_some_iff.1 hx
    obtain ⟨w, -, rfl⟩ := (members_singleMember (Value.reachesBrace_singleMember (h _))).1 hms
    -- the only member has another name
    cases hamount
  rw [amountIn?_eq, hrecord, Option.none_or]

/-- If the search finds the same numeral in both texts, they agree unless a record holds another
amount. -/
theorem agreesWrapped_iff_of_scan {word : List Char}
    (hscan : ∀ rest,
      scanAmount? (stringText "amount" ++ ':' :: (v ++ '\x7d' :: rest)) = some word) :
    AgreesWrapped v ↔ ∀ x ∈ recordAmount? (unwrapped v), readDecimal? word = some x := by
  rw [agreesWrapped_iff, amountIn?_wrapped_eq h, amountIn?_eq, scanAmount?_wrapped, hscan,
    scanAmount?_unwrapped, hscan, Option.bind_some]
  cases recordAmount? (unwrapped v) with
  | none => simp
  | some x => simp

end

/-! ### Numbers -/

theorem scanAmount?_text (n : SignedNumeral) (rest : List Char) :
    scanAmount? (stringText "amount" ++ ':' :: (n.text ++ '\x7d' :: rest)) = some n.text :=
  scanAmount?_numeral n (endsMember_brace rest)

/-- In an object around another one, a number is read as the nearest double. -/
theorem amountIn?_wrapped_text (n : SignedNumeral) :
    amountIn? (wrapped n.text) = readDecimal? n.text := by
  rw [amountIn?_wrapped_eq fun _ => Value.reachesBrace_text n, scanAmount?_wrapped,
    scanAmount?_text, Option.bind_some]

theorem recordAmount?_text {x : Float} : recordAmount? (unwrapped n.text) = some x ↔
    ∃ m, readNumeral n.isNegative (n.numeral.text ++ ['\x7d']) = .ok (m, ['\x7d']) ∧
      m.toFloat = x := by
  rw [recordAmount?_unwrapped fun _ => Value.reachesBrace_text n, Value.decoder_text]
  constructor
  · rintro ⟨w, hw, hx⟩
    obtain ⟨m, hm, rfl⟩ := Decoder.map_eq_ok_iff.1 hw
    exact ⟨m, hm, Option.some.inj hx⟩
  · rintro ⟨m, hm, rfl⟩
    exact ⟨.number m, Decoder.map_eq_ok_iff.2 ⟨m, hm, rfl⟩, rfl⟩

/-- A number is the same amount in both texts if a record holds the double nearest to it, or there
is no record. -/
theorem agreesWrapped_text_iff (n : SignedNumeral) : AgreesWrapped n.text ↔
    ∀ x, recordAmount? (unwrapped n.text) = some x → x = n.value := by
  rw [agreesWrapped_iff_of_scan (fun _ => Value.reachesBrace_text n) (scanAmount?_text n)]
  refine forall₂_congr fun x hx => ?_
  obtain ⟨m, -, rfl⟩ := recordAmount?_text.1 hx
  -- the search refuses a numeral too large for a double, and so does the reader of the record
  have hfinite := m.isFinite_toFloat
  rw [n.readDecimal?_text, Option.ite_none_right_eq_some, Option.some.injEq]
  constructor
  · rintro ⟨-, hvalue⟩
    exact hvalue.symm
  · intro hvalue
    rw [hvalue] at hfinite
    exact ⟨hfinite, hvalue.symm⟩

theorem agreesWrapped_text_of_roundsOnce (hzero : n.numeral.hasNeedlessZero = false)
    (h : n.numeral.RoundsOnce) : AgreesWrapped n.text := by
  refine (agreesWrapped_text_iff n).2 fun x hx => ?_
  have hends : Numeral.EndsBefore ['\x7d'] := fun c hc => Option.mem_some.1 hc ▸ rfl
  obtain ⟨m, hm, rfl⟩ := recordAmount?_text.1 hx
  obtain ⟨m', hm', hvalue⟩ := readNumeral_of_roundsOnce h hzero hends
  obtain ⟨rfl, -⟩ := Prod.mk.inj (Except.ok.inj (hm.symm.trans hm'))
  exact hvalue

/-! ### Strings -/

/-- Whether a content is a numeral as it stands, but for blanks around it. -/
def PlainlySpells (content : List Char) (n : SignedNumeral) : Prop :=
  ∃ before after, (∀ c ∈ before, isAsciiBlank c = true) ∧ (∀ c ∈ after, isAsciiBlank c = true) ∧
    content = before ++ (n.text ++ after)

namespace PlainlySpells

theorem ne_of_mem (h : PlainlySpells content n) : ∀ c ∈ content, c ≠ '"' ∧ c ≠ '\\' := by
  obtain ⟨before, after, hbefore, hafter, rfl⟩ := h
  have hblank {c : Char} (hc : isAsciiBlank c = true) : c ≠ '"' ∧ c ≠ '\\' := by
    constructor
    · rintro rfl
      cases hc
    · rintro rfl
      cases hc
  intro c hc
  obtain hc | hc := List.mem_append.1 hc
  · exact hblank (hbefore c hc)
  obtain hc | hc := List.mem_append.1 hc
  · have hchar := SignedNumeral.isNumeralChar_of_mem_text hc
    exact ⟨ne_of_isNumeralChar hchar rfl, ne_of_isNumeralChar hchar rfl⟩
  · exact hblank (hafter c hc)

theorem stringContent (h : PlainlySpells content n) : StringContent content :=
  stringContent_of_forall h.ne_of_mem

/-- Blanks around a numeral do not matter. -/
theorem readDecimal?_eq (h : PlainlySpells content n) :
    readDecimal? content = readDecimal? n.text := by
  obtain ⟨before, after, hbefore, hafter, rfl⟩ := h
  rw [n.readDecimal?_text]
  exact n.readDecimal?_append (fun c hc => isBlank_of_isAsciiBlank (hbefore c hc))
    (fun c hc => isBlank_of_isAsciiBlank (hafter c hc))

/-- A content of that kind is read as it stands. -/
theorem toList_of_readString (h : PlainlySpells content n) {s : String} {tail : List Char}
    (hread : readString (content ++ '"' :: rest) = .ok (s, tail)) (hrest : '\\' ∉ rest) :
    s.toList = content := by
  have hslash : '\\' ∉ content ++ '"' :: rest := by
    rw [List.mem_append, List.mem_cons]
    rintro (hmem | hmem | hmem)
    · exact (h.ne_of_mem _ hmem).2 rfl
    · cases hmem
    · exact hrest hmem
  obtain ⟨hquote, heq⟩ := eq_of_readString hslash hread
  exact (append_quote_inj (fun hmem => (h.ne_of_mem _ hmem).1 rfl) hquote heq).1.symm

end PlainlySpells

/-- Behind the name of the amount, a string is an amount if it spells a numeral. -/
theorem amountAt?_quoted (hcontent : StringContent content) {word : List Char} :
    amountAt? (stringText "amount" ++ ':' :: (quoted content ++ rest)) = some word ↔
      ∃ n, PlainlySpells content n ∧ n.text = word := by
  have hkey := @amountAt?_key [] [] (by simp) (by simp) '"' (by decide) (content ++ '"' :: rest)
  rw [quoted_append]
  refine (Eq.congr_left hkey).trans (writtenNumeral?_quoted.trans ?_)
  constructor
  · rintro ⟨before, n, behind, hbefore, hcloses, heq, rfl⟩
    cases hcloses with
    | @quoted after hafter tail =>
      -- the mark behind the numeral is not escaped, so the content ends there
      have hspells : PlainlySpells (before ++ (n.text ++ after)) n :=
        ⟨before, after, hbefore, hafter, rfl⟩
      have heq' : before ++ (n.text ++ after) ++ '"' :: tail = content ++ '"' :: rest := by
        rw [heq]
        simp
      obtain ⟨rfl, -⟩ := hspells.stringContent.append_inj hcontent heq'
      exact ⟨n, hspells, rfl⟩
  · rintro ⟨n, ⟨before, after, hbefore, hafter, rfl⟩, rfl⟩
    exact ⟨before, n, after ++ '"' :: rest, hbefore, .quoted hafter rest, by simp, rfl⟩

theorem scanAmount?_quoted (hcontent : StringContent content) (h : PlainlySpells content n)
    (rest : List Char) :
    scanAmount? (stringText "amount" ++ ':' :: (quoted content ++ rest)) = some n.text :=
  scanAmount?_of_amountAt? ((amountAt?_quoted hcontent).2 ⟨n, h, rfl⟩)

theorem scanAmount?_quoted_of_forall (hcontent : StringContent content)
    (h : ∀ n, ¬ PlainlySpells content n) (hrest : EndsMember rest) :
    scanAmount? (stringText "amount" ++ ':' :: (quoted content ++ rest)) = scanAmount? rest := by
  have hnone : amountAt? (stringText "amount" ++ ':' :: (quoted content ++ rest)) = none := by
    rw [Option.eq_none_iff_forall_ne_some]
    intro word hword
    obtain ⟨n, hn, -⟩ := (amountAt?_quoted hcontent).1 hword
    exact h n hn
  rw [scanAmount?_amountKey hnone, quoted_append, scanAmount?_string hrest hcontent]

theorem recordAmount?_quoted (hcontent : StringContent content) {x : Float} :
    recordAmount? (unwrapped (quoted content)) = some x ↔
      ∃ s, readString (content ++ ['"', '\x7d']) = .ok (s, ['\x7d']) ∧
        readDecimal? s.toList = some x := by
  rw [recordAmount?_unwrapped fun _ => Value.reachesBrace_quoted hcontent, quoted_append,
    Value.decoder_quote]
  constructor
  · rintro ⟨w, hw, hx⟩
    obtain ⟨s, hs, rfl⟩ := Decoder.map_eq_ok_iff.1 hw
    exact ⟨s, hs, hx⟩
  · rintro ⟨s, hs, hx⟩
    exact ⟨.string s, Decoder.map_eq_ok_iff.2 ⟨s, hs, rfl⟩, hx⟩

/-- A string that spells a numeral is the same amount in both texts. -/
theorem agreesWrapped_quoted (hcontent : StringContent content) (h : PlainlySpells content n) :
    AgreesWrapped (quoted content) := by
  rw [agreesWrapped_iff_of_scan (fun _ => Value.reachesBrace_quoted hcontent)
    fun rest => scanAmount?_quoted hcontent h _]
  intro x hx
  obtain ⟨s, hs, hvalue⟩ := (recordAmount?_quoted hcontent).1 hx
  -- nothing in the string is escaped, so the record holds it as it is written
  rw [h.toList_of_readString hs (by decide), h.readDecimal?_eq] at hvalue
  exact hvalue

theorem amountIn?_wrapped_quoted (hcontent : StringContent content) (h : PlainlySpells content n) :
    amountIn? (wrapped (quoted content)) = readDecimal? n.text := by
  rw [amountIn?_wrapped_eq fun _ => Value.reachesBrace_quoted hcontent, scanAmount?_wrapped,
    scanAmount?_quoted hcontent h, Option.bind_some]

/-- In an object around another one, no other string is an amount. -/
theorem amountIn?_wrapped_quoted_of_forall (hcontent : StringContent content)
    (h : ∀ n, ¬ PlainlySpells content n) : amountIn? (wrapped (quoted content)) = none := by
  rw [amountIn?_wrapped_eq fun _ => Value.reachesBrace_quoted hcontent, scanAmount?_wrapped,
    scanAmount?_quoted_of_forall hcontent h (endsMember_brace _)]
  rfl

/-- A string that spells a numeral plainly is the same amount in an object and in one around it, and
any other string is no amount in the latter.  A number is the same amount in both if a record holds
the double nearest to it, or there is no record, and so it is if only one rounding takes place. -/
theorem amountIn?_wrapped :
    (∀ content, StringContent content →
      (∀ n, PlainlySpells content n → AgreesWrapped (quoted content) ∧
        amountIn? (wrapped (quoted content)) = readDecimal? n.text) ∧
      ((∀ n, ¬ PlainlySpells content n) → amountIn? (wrapped (quoted content)) = none)) ∧
    ∀ n : SignedNumeral,
      amountIn? (wrapped n.text) = readDecimal? n.text ∧
      (AgreesWrapped n.text ↔ ∀ x, recordAmount? (unwrapped n.text) = some x → x = n.value) ∧
      (n.numeral.hasNeedlessZero = false → n.numeral.RoundsOnce → AgreesWrapped n.text) := by
  refine ⟨fun content hcontent => ⟨fun n h => ?_, amountIn?_wrapped_quoted_of_forall hcontent⟩,
    fun n => ⟨amountIn?_wrapped_text n, agreesWrapped_text_iff n, agreesWrapped_text_of_roundsOnce⟩⟩
  exact ⟨agreesWrapped_quoted hcontent h, amountIn?_wrapped_quoted hcontent h⟩

/-! ### Twenty thousand -/

/-- The numeral `20000.25`. -/
def aboveTwentyThousand : SignedNumeral where
  isNegative := false
  numeral := {
    whole := ['2', '0', '0', '0', '0']
    fraction := ['2', '5']
    exponent := none
    whole_ne_nil := by simp
    isDigit_whole := by simp
    isDigit_fraction := by simp
  }

theorem plainlySpells_aboveTwentyThousand :
    PlainlySpells (' ' :: (aboveTwentyThousand.text ++ [' '])) aboveTwentyThousand :=
  ⟨[' '], [' '], by simp [isAsciiBlank], by simp [isAsciiBlank], rfl⟩

theorem roundsOnce_aboveTwentyThousand : aboveTwentyThousand.numeral.RoundsOnce where
  significand_lt := by decide
  magnitude_le := by simp [aboveTwentyThousand]
  place_eq_zero_or := .inr (by decide)

/-- The number and a string with blanks around it are the same amount in both texts. -/
theorem amountIn?_wrapped_aboveTwentyThousand :
    AgreesWrapped (quoted (' ' :: (aboveTwentyThousand.text ++ [' ']))) ∧
      amountIn? (wrapped (quoted (' ' :: (aboveTwentyThousand.text ++ [' '])))) = some 20000.25 ∧
      AgreesWrapped aboveTwentyThousand.text ∧
      amountIn? (wrapped aboveTwentyThousand.text) = some 20000.25 := by
  have hread : readDecimal? aboveTwentyThousand.text = some 20000.25 := by decide +kernel
  obtain ⟨hstrings, hnumbers⟩ := amountIn?_wrapped
  obtain ⟨hspelled, -⟩ := hstrings _ plainlySpells_aboveTwentyThousand.stringContent
  obtain ⟨hagrees, hamount⟩ := hspelled _ plainlySpells_aboveTwentyThousand
  obtain ⟨hamount', -, hexact⟩ := hnumbers aboveTwentyThousand
  exact ⟨hagrees, hamount.trans hread, hexact (by decide) roundsOnce_aboveTwentyThousand,
    hamount'.trans hread⟩

/-- Not every string is an amount in both texts if it is one in either: a plus sign is read in front
of a number, but is no part of a numeral. -/
theorem not_forall_amountIn?_wrapped : ¬ ∀ content, StringContent content →
    ((∃ x, amountIn? (unwrapped (quoted content)) = some x) ↔
      ∃ x, amountIn? (wrapped (quoted content)) = some x) := by
  intro h
  have hunwrapped : amountIn? (unwrapped (quoted ['+', '2', '0', '0', '0', '0'])) = some 20000 := by
    decide +kernel
  have hwrapped : amountIn? (wrapped (quoted ['+', '2', '0', '0', '0', '0'])) = none := by
    decide +kernel
  obtain ⟨x, hx⟩ := (h _ (stringContent_of_forall (by simp))).1 ⟨_, hunwrapped⟩
  rw [hwrapped] at hx
  cases hx

end TrustBoundary
