import TrustBoundary.Json.Choice
import TrustBoundary.Json.Shape
import TrustBoundary.Proofs.Decimal.Written
import TrustBoundary.Proofs.Json.Printed

/-!
# Scalars are read as they are printed

Strings, null and the named elements of a choice are read as what they are printed for
(`Decoder.Reads`).  A double is not always: its text is read by the steps of `scaled?`, which round
twice, and `reread?` is the number that comes out.  Every reader of numbers gives that number, or
says that it is out of range (`numberDecoder_ofFloat`, `Value.decoderWith_ofFloat`).
-/

namespace TrustBoundary.Json

open Numeral

variable {α : Type} {named : List (String × α)} {name : String} {a : α} {rest : List Char}

/-! ### Strings, null and choices -/

theorem reads_stringDecoder (expected s : String) :
    (stringDecoder expected).Reads (.string s) s := by
  intro rest hrest
  rw [Value.chars, stringText, List.cons_append, List.append_assoc]
  exact readString_escaped s rest

theorem reads_textDecoder (s : String) : textDecoder.Reads (.string s) s :=
  reads_stringDecoder "a string" s

theorem reads_optionalDecoder_string (s : String) :
    (optionalDecoder textDecoder).Reads (.string s) (some s) := by
  intro rest hrest
  have hread := reads_textDecoder s rest hrest
  rw [Value.chars, stringText, List.cons_append] at hread ⊢
  change Decoder.map some textDecoder _ = _
  rw [Decoder.map, hread]

theorem reads_optionalDecoder_null (d : Decoder α) : (optionalDecoder d).Reads .null none := by
  intro rest hrest
  rfl

/-- A named element is read from its name. -/
theorem reads_choiceDecoder (h : Fields.lookup name named = some a) :
    (choiceDecoder named).Reads (.string name) a := by
  intro rest hrest
  have hread := readString_escaped name rest
  have hchosen : chosen named name rest = .ok a := by rw [chosen, h]
  rw [Value.chars, stringText, List.cons_append, List.append_assoc]
  change (readString (name.toList.flatMap escapedChar ++ '"' :: rest) >>= _) = _
  rw [hread]
  change (chosen named name rest >>= _) = _
  rw [hchosen]
  rfl

/-! ### Doubles -/

/-- What a reader makes of the text of a double. -/
def reread (x : Float) (rest : List Char) : Except Fault (Number × List Char) :=
  scaledNumber (Decimal.signOf x != []) (Decimal.floatAsRead x).1 (Decimal.floatAsRead x).2 rest

/-- The number that is read for the text of a double, if there is one. -/
def reread? (x : Float) : Option Number :=
  (scaled? (Decimal.floatAsRead x).1 (Decimal.floatAsRead x).2).bind
    (signed? (Decimal.signOf x != []))

theorem reread_eq (x : Float) (rest : List Char) :
    reread x rest = match reread? x with
      | some n => .ok (n, rest)
      | none => stop .numberOutOfRange rest := rfl

/-- A text begins with a minus sign or with a digit, and the rest of it is read as the digits of a
number with this result. -/
def ReadsNumeral (cs : List Char) (result : Except Fault (Number × List Char)) : Prop :=
  (∃ digits, cs = '-' :: digits ∧ readNumeral true digits = result) ∨
    ∃ c digits, cs = c :: digits ∧ c.isDigit = true ∧ readNumeral false (c :: digits) = result

theorem readNumeral_ofFloat {x : Float} (hfinite : x.isFinite = true) (hrest : EndsBefore rest) :
    ReadsNumeral (Decimal.ofFloat x ++ rest) (reread x rest) := by
  obtain ⟨n, htext, hreadable, hparts⟩ := Decimal.exists_numeral hfinite
  obtain ⟨hsignificand, hplace⟩ := Prod.mk.injEq .. ▸ hparts
  have hread (negative : Bool) := readNumeral_text hreadable hrest negative
  rw [htext, reread, ← hparts]
  obtain hsign | hsign := Decimal.signOf_cases x
  · -- without a sign the text begins with a digit
    right
    obtain ⟨c, whole, hwhole⟩ := List.exists_cons_of_ne_nil n.whole_ne_nil
    rw [hsign, List.nil_append]
    refine ⟨c, whole ++ (fractionText n.fraction ++ n.exponent.elim [] Exponent.text) ++ rest, ?_,
      n.isDigit_whole c (hwhole ▸ List.mem_cons_self), ?_⟩
    · rw [Numeral.text, hwhole, List.cons_append, List.cons_append]
    · rw [← hread, Numeral.text, hwhole]
      rfl
  · left
    rw [hsign]
    exact ⟨n.text ++ rest, rfl, hread true⟩

/-- A digit is no blank, and no value but a number begins with one. -/
theorem isDigit_ne {c : Char} (h : c.isDigit = true) :
    isGap c = false ∧ c ≠ 'n' ∧ c ≠ 't' ∧ c ≠ 'f' ∧ c ≠ '-' := by
  refine ⟨?_, ?_, ?_, ?_, ?_⟩
  · rw [isGap]
    simp only [Bool.or_eq_false_iff, beq_eq_false_iff_ne]
    refine ⟨⟨⟨?_, ?_⟩, ?_⟩, ?_⟩ <;> rintro rfl <;> cases h
  all_goals
    rintro rfl
    cases h

theorem skipGap_cons {c : Char} (h : isGap c = false) (cs : List Char) :
    skipGap (c :: cs) = c :: cs := by
  rw [skipGap, List.dropWhile_cons, h]
  rfl

section

variable {cs : List Char} {result : Except Fault (Number × List Char)}

theorem ReadsNumeral.numberDecoder_eq (h : ReadsNumeral cs result) (expected : String) :
    numberDecoder expected cs = result := by
  rcases h with ⟨digits, rfl, hread⟩ | ⟨c, digits, rfl, hdigit, hread⟩
  · exact hread
  · obtain ⟨hgap, -, -, -, hminus⟩ := isDigit_ne hdigit
    rw [numberDecoder, skipGap_cons hgap]
    split
    next cs' heq =>
      exact absurd (List.cons.inj heq).1 hminus
    next =>
      rw [List.head?_cons, Option.any_some, hdigit, if_pos rfl, hread]

theorem ReadsNumeral.decoderWith_eq (h : ReadsNumeral cs result)
    (inner : Option (Decoder Value)) :
    Value.decoderWith inner cs = Decoder.map .number (fun _ => result) cs := by
  rcases h with ⟨digits, rfl, hread⟩ | ⟨c, digits, rfl, hdigit, hread⟩
  · rw [Decoder.map, ← hread]
    rfl
  · obtain ⟨hgap, hn, ht, hf, hminus⟩ := isDigit_ne hdigit
    rw [Value.decoderWith, skipGap_cons hgap]
    dsimp only
    rw [if_neg hn, if_neg ht, if_neg hf, if_neg hminus, if_pos hdigit, Decoder.map, Decoder.map,
      hread]

end

theorem numberDecoder_ofFloat (expected : String) {x : Float} (hfinite : x.isFinite = true)
    (hrest : EndsBefore rest) :
    numberDecoder expected (Decimal.ofFloat x ++ rest) = reread x rest :=
  (readNumeral_ofFloat hfinite hrest).numberDecoder_eq expected

theorem Value.decoderWith_ofFloat (inner : Option (Decoder Value)) {x : Float}
    (hfinite : x.isFinite = true) (hrest : EndsBefore rest) :
    decoderWith inner (Decimal.ofFloat x ++ rest) =
      Decoder.map .number (fun _ => reread x rest) rest :=
  (readNumeral_ofFloat hfinite hrest).decoderWith_eq inner

/-! ### Values -/

namespace Value

variable {x : Float} {n : Number}

theorem reads_string (depth : Nat) (s : String) :
    (decoder depth).Reads (.string s) (.string s) := by
  intro rest hrest
  have hread := readString_escaped s rest
  have htext : (Value.string s).chars ++ rest =
      '"' :: (s.toList.flatMap escapedChar ++ '"' :: rest) := by
    rw [chars, stringText, List.cons_append, List.append_assoc]
    rfl
  rw [htext]
  cases depth with
  | zero =>
    change Decoder.map Value.string readString _ = _
    rw [Decoder.map, hread]
  | succ depth =>
    change Decoder.map Value.string readString _ = _
    rw [Decoder.map, hread]

theorem reads_null (depth : Nat) : (decoder depth).Reads .null .null := by
  intro rest hrest
  cases depth <;> rfl

/-- A finite double is written as a number. -/
theorem ofFloat_of_isFinite (h : x.isFinite = true) :
    Value.ofFloat x = .number (.float x h) := by
  rw [Value.ofFloat, Number.ofFloat?, dif_pos h]

/-- A double that is not finite is written as null. -/
theorem ofFloat_of_not_isFinite (h : x.isFinite = false) : Value.ofFloat x = .null := by
  rw [Value.ofFloat, Number.ofFloat?, dif_neg (by simp [h])]

theorem decoder_ofFloat (depth : Nat) (h : x.isFinite = true) (hrest : EndsBefore rest) :
    decoder depth ((Value.ofFloat x).chars ++ rest) =
      Decoder.map .number (fun _ => reread x rest) rest := by
  rw [ofFloat_of_isFinite h, chars, Number.text]
  cases depth with
  | zero => exact decoderWith_ofFloat none h hrest
  | succ depth => exact decoderWith_ofFloat (some (decoder depth)) h hrest

theorem reads_ofFloat (depth : Nat) (hfinite : x.isFinite = true) (h : reread? x = some n) :
    (decoder depth).Reads (.ofFloat x) (.number n) := by
  intro rest hrest
  rw [decoder_ofFloat depth hfinite hrest, Decoder.map, reread_eq, h]

theorem decoder_ofFloat_stops (depth : Nat) (hfinite : x.isFinite = true) (h : reread? x = none)
    (hrest : EndsBefore rest) :
    decoder depth ((Value.ofFloat x).chars ++ rest) = stop .numberOutOfRange rest := by
  rw [decoder_ofFloat depth hfinite hrest, Decoder.map, reread_eq, h]
  rfl

/-- The text of a finite double is read as a number if `reread?` finds one. -/
theorem read_ofFloat_eq_ok_iff (hfinite : x.isFinite = true) :
    read (Value.ofFloat x).text = .ok (.number n) ↔ reread? x = some n := by
  constructor
  · intro hread
    cases hn : reread? x with
    | none =>
      -- the text would be refused
      have hstops := decoder_ofFloat_stops maxDepth hfinite hn endsBefore_nil
      rw [List.append_nil] at hstops
      obtain ⟨place, herror⟩ := Decoder.run_eq_error hstops rfl
      rw [read, herror] at hread
      cases hread
    | some m =>
      have hm := (reads_ofFloat maxDepth hfinite hn).run
      rw [read, hm] at hread
      rw [Value.number.inj (Except.ok.inj hread)]
  · exact fun hn => (reads_ofFloat maxDepth hfinite hn).run

end Value

/-! ### Members of a shape -/

namespace Shape

variable {δ : Type} {s : Shape δ α} {m : Member δ} {d : δ} {f : δ → δ} {v : Value}

/-- A member is entered if the draft does not have it already. -/
theorem enterMember_of_reads (hm : s.members.find? (·.name = name) = some m)
    (hfree : m.isEntered d = false) (hread : m.read.Reads v f) (hrest : EndsBefore rest) :
    s.enterMember d name (':' :: (v.chars ++ rest)) = .ok (f d, rest) := by
  rw [enterMember, hm]
  dsimp only
  rw [hfree, if_neg Bool.false_ne_true]
  change (m.read (v.chars ++ rest) >>= _) = _
  rw [hread rest hrest]
  rfl

/-- A member that the draft does not have already is taken, and then the members behind it are. -/
theorem takes_cons {ms : List (String × Value)} {d' : δ}
    (hm : s.members.find? (·.name = name) = some m) (hfree : m.isEntered d = false)
    (hread : m.read.Reads v f) (hms : Takes s.enterMember (f d) ms d') :
    Takes s.enterMember d ((name, v) :: ms) d' :=
  .cons (fun _ => enterMember_of_reads hm hfree hread) hms

/-- The reader of an object stops at a member whose reader stops. -/
theorem enterMember_of_error (hm : s.members.find? (·.name = name) = some m)
    (hfree : m.isEntered d = false) {fault : Fault}
    (hread : m.read (v.chars ++ rest) = .error fault) :
    s.enterMember d name (':' :: (v.chars ++ rest)) = .error fault := by
  rw [enterMember, hm]
  dsimp only
  rw [hfree, if_neg Bool.false_ne_true]
  change (m.read (v.chars ++ rest) >>= _) = _
  rw [hread]
  rfl

/-- An object whose members complete the draft is read. -/
theorem reads_decoder {ms : List (String × Value)} {a : α} (h : Takes s.enterMember s.blank ms d)
    (hcomplete : s.complete d = .ok a) : s.decoder.Reads (.object ms) a := by
  intro rest hrest
  have hfold := foldObject_membersChars h rest
  rw [Value.chars, List.cons_append, List.append_assoc]
  change (foldObject s.enterMember s.blank (Value.membersChars ms ++ '\x7d' :: rest) >>= _) = _
  rw [hfold]
  dsimp only [bind, Except.bind]
  rw [hcomplete]
  rfl

/-- An object is refused where the reader of one of its members stops. -/
theorem decoder_stops {ms more : List (String × Value)} (h : Takes s.enterMember s.blank ms d)
    {fault : List Char → Fault} (hstop : ∀ rest, EndsBefore rest →
      s.enterMember d name (':' :: (v.chars ++ rest)) = .error (fault rest)) :
    s.decoder (Value.object (ms ++ (name, v) :: more)).chars =
      .error (fault (moreChars more ++ ['\x7d'])) := by
  have hfold := foldObject_stops h hstop more []
  rw [Value.chars]
  change (foldObject s.enterMember s.blank
    (Value.membersChars (ms ++ (name, v) :: more) ++ ['\x7d']) >>= _) = _
  rw [hfold]
  rfl

end Shape

end TrustBoundary.Json
