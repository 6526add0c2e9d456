import TrustBoundary.Proofs.Json.Exactness
import TrustBoundary.Proofs.Risk.Amounts
import TrustBoundary.Proofs.Risk.EventIds

/-!
# Alerts are about finite amounts

Whichever way an amount is found, it is a finite double (`isFinite_of_amountIn?`): a number of JSON
is one, and a decimal that is too large for a double is not read.  So an alert is written as an
object with a number in it (`Alert.exists_text_eq`), and never with null in its place.  Where no
amount is found, it is told why, and the record is dropped (`extract_eq_error_iff`).
-/

namespace TrustBoundary

open Json

variable {text : String} {x : Float}

/-! ### Amounts -/

/-- A decimal that is read is near a double. -/
theorem Decimal.isFinite_of_read? {cs : List Char} (h : read? cs = some x) :
    x.isFinite = true := by
  -- a decimal is read as zero, as a near double or not at all
  have hguard (e? : Option Int) (near : Int → Float)
      (hx : (e?.bind fun e => if (near e).isFinite then some (near e) else none) = some x) :
      x.isFinite = true := by
    obtain ⟨e, -, hx⟩ := Option.bind_eq_some_iff.1 hx
    obtain ⟨hfinite, hnear⟩ := Option.ite_none_right_eq_some.1 hx
    exact Option.some.inj hnear ▸ hfinite
  rw [read?] at h
  dsimp only at h
  split at h
  all_goals exact hguard _ _ (Option.ite_none_left_eq_some.1 h).2

/-- The amount in a field is finite, be it a number or a text. -/
theorem Scalar.isFinite_of_amount? {v : Scalar} (h : v.amount? = some x) : x.isFinite = true := by
  cases v with
  | null => cases h
  | bool b => cases h
  | number n => exact Option.some.inj h ▸ n.isFinite_toFloat
  | text s => exact Decimal.isFinite_of_read? h

theorem isFinite_of_recordAmount? (h : recordAmount? text = some x) : x.isFinite = true := by
  obtain ⟨ms, -, hx⟩ := recordAmount?_eq_some_iff.1 h
  obtain ⟨w, -, hw⟩ := Option.bind_eq_some_iff.1 hx
  exact Scalar.isFinite_of_amount? hw

theorem isFinite_of_amountIn? (h : amountIn? text = some x) : x.isFinite = true := by
  rw [amountIn?_eq, Option.or_eq_some_iff] at h
  obtain hrecord | ⟨-, hscan⟩ := h
  · exact isFinite_of_recordAmount? hrecord
  · obtain ⟨numeral, -, hx⟩ := Option.bind_eq_some_iff.1 hscan
    exact Decimal.isFinite_of_read? hx

/-! ### Texts without an amount -/

/-- What is wrong with a text in which no amount is found: there is none, or the one that the search
finds is too large. -/
def amountFault (text : String) : AmountFault :=
  (scanAmount? text.toList).elim .noAmount fun numeral => .notFinite (String.ofList numeral)

/-- A text without an amount is refused, and no other one. -/
theorem extract_eq_error_iff {e : RiskError} :
    extract text = .error e ↔ amountIn? text = none ∧ e = .streamParse (amountFault text) := by
  rw [amountIn?, extract, amountFault, scanAmount]
  -- an amount in the record ends the matter, and otherwise the search decides
  cases (Record.read text).toOption.bind Record.amount? with
  | some amount => simp [Except.toOption]
  | none =>
    cases scanAmount? text.toList with
    | none => simp [Except.map, Except.toOption, eq_comm]
    | some numeral =>
      dsimp only
      cases readDecimal? numeral with
      | none => simp [Except.map, Except.toOption, eq_comm]
      | some amount => simp [Except.map, Except.toOption]

/-! ### Alerts as they are written -/

/-- A finite double is written as a numeral of JSON, to which it is the nearest double. -/
theorem Decimal.exists_signedNumeral (h : x.isFinite = true) :
    ∃ n : SignedNumeral, ofFloat x = n.text ∧ n.numeral.hasNeedlessZero = false ∧ n.value = x := by
  obtain ⟨numeral, htext, hreadable, -⟩ := exists_numeral h
  obtain ⟨isNegative, hsign⟩ :
      ∃ isNegative, signOf x = (SignedNumeral.mk isNegative numeral).sign := by
    obtain hsign | hsign := signOf_cases x
    · exact ⟨false, hsign⟩
    · exact ⟨true, hsign⟩
  refine ⟨⟨isNegative, numeral⟩, by rw [htext, hsign]; rfl, hreadable.hasNeedlessZero_eq_false, ?_⟩
  have hread := read?_text numeral (signOf_cases x)
  rw [← htext, read?_ofFloat h, hsign, SignedNumeral.isNegative_eq] at hread
  dsimp only at hread
  split at hread
  next => exact (Option.some.inj hread).symm
  next => cases hread

/-- Characters between texts. -/
theorem ofList_append_toList (a b c : String) (cs : List Char) :
    String.ofList (a.toList ++ (cs ++ (b.toList ++ c.toList))) =
      a ++ String.ofList cs ++ b ++ c := by
  simp only [String.ofList_append, String.ofList_toList, String.append_assoc]

namespace Alert

/-- The text of an object with the members of an alert: its type, its risk, its amount as a number,
and its id as a string if there is one. -/
def objectText (amount : String) (id : Option String) : String :=
  "\x7b\"type\":\"HIGH_VALUE_TX\",\"risk\":\"HIGH\",\"amount\":" ++ amount ++
    id.elim "" (",\"eventId\":" ++ ·) ++ "\x7d"

theorem chars_object (v : Value) (more : List (String × Value)) :
    (Value.object ([("type", .string "HIGH_VALUE_TX"), ("risk", .string "HIGH"), ("amount", v)] ++
      more)).chars =
        "\x7b\"type\":\"HIGH_VALUE_TX\",\"risk\":\"HIGH\",\"amount\":".toList ++
          (v.chars ++ (moreChars more ++ ['\x7d'])) := by
  rw [Value.chars, List.cons_append, membersChars_cons, List.cons_append, moreChars,
    membersChars_cons, List.cons_append, moreChars, membersChars_cons, List.nil_append]
  generalize v.chars = amount
  generalize moreChars more = id
  simp only [List.append_assoc, List.cons_append]
  rfl

theorem moreChars_eventId (id : Option String) :
    moreChars (id.map fun id => ("eventId", Value.string id)).toList =
      ((id.map fun id => String.ofList (stringText id)).elim "" (",\"eventId\":" ++ ·)).toList := by
  cases id with
  | none => rfl
  -- the member is written behind a comma, as all but the first are
  | some id =>
    rw [Option.map_some, Option.map_some, Option.elim_some, String.toList_append,
      @String.toList_ofList (stringText id), Option.toList_some, moreChars, membersChars_cons,
      moreChars, List.append_nil, Value.chars]
    rfl

theorem toValue_highValue (amount : Float) (eventId : Option String) :
    (highValue amount eventId).toValue =
      .object ([("type", .string "HIGH_VALUE_TX"), ("risk", .string "HIGH"),
        ("amount", .ofFloat amount)] ++
          (eventId.map fun id => ("eventId", Value.string id)).toList) := rfl

/-- An alert about a finite amount is an object in which the amount is a number. -/
theorem exists_text_eq {amount : Float} (h : amount.isFinite = true) (eventId : Option String) :
    ∃ (n : SignedNumeral) (id : Option String), n.numeral.hasNeedlessZero = false ∧
      n.value = amount ∧ id.map textDecoder.run = eventId.map .ok ∧
      (highValue amount eventId).text = objectText (String.ofList n.text) id := by
  obtain ⟨n, hn, hzero, hvalue⟩ := Decimal.exists_signedNumeral h
  refine ⟨n, eventId.map fun id => String.ofList (stringText id), hzero, hvalue, ?_, ?_⟩
  · have hread (id : String) : textDecoder.run (String.ofList (stringText id)) = .ok id := by
      have hrun := (reads_textDecoder id).run
      rwa [Value.text, Value.chars] at hrun
    cases eventId with
    | none => rfl
    | some id => rw [Option.map_some, Option.map_some, hread, Option.map_some]
  · have hamount : (Value.ofFloat amount).chars = n.text := by
      rw [Value.ofFloat_of_isFinite h, Value.chars, Number.text, hn]
    rw [text, toValue_highValue, Value.text, chars_object, moreChars_eventId, hamount]
    exact ofList_append_toList _ _ "\x7d" n.text

end Alert

/-! ### Alerts and refusals -/

/-- Every alert is about a finite amount above the threshold, and goes over the wire as an object
with a number for the amount, and with the id of the event if the text is a record with one.  A text
in which no finite amount is found, neither in its record nor by the search, is refused for it, and
so is no other text; stream records with such a text are dropped. -/
theorem evaluate_outcome (threshold : Float) (text : String) :
    (∀ a, (Scorer.mk (.highValue threshold)).evaluate text = .ok (some a) →
      a.amount.isFinite = true ∧ threshold < a.amount ∧
      a = .highValue a.amount ((Record.read text).toOption.bind Record.eventId?) ∧
      ∃ (n : SignedNumeral) (id : Option String), n.numeral.hasNeedlessZero = false ∧
        n.value = a.amount ∧ id.map textDecoder.run = a.eventId.map .ok ∧
        a.text = Alert.objectText (String.ofList n.text) id) ∧
    (∀ e, (Scorer.mk (.highValue threshold)).evaluate text = .error e ↔
      recordAmount? text = none ∧ (scanAmount? text.toList).bind readDecimal? = none ∧
        e = .streamParse (amountFault text)) ∧
    (recordAmount? text = none → (scanAmount? text.toList).bind readDecimal? = none →
      ∀ r : StreamRecord, r.value = some text →
        (Scorer.mk (.highValue threshold)).score r = .dropped) := by
  have hnone : amountIn? text = none ↔
      recordAmount? text = none ∧ (scanAmount? text.toList).bind readDecimal? = none := by
    rw [amountIn?_eq, Option.or_eq_none_iff]
  refine ⟨?_, ?_, ?_⟩
  · intro a ha
    obtain ⟨t, ht, hrule⟩ := exceptMap_eq_ok_iff.1 ha
    obtain ⟨hlt, halert⟩ := Option.ite_none_right_eq_some.1 hrule
    obtain rfl := Option.some.inj halert
    have hamount : amountIn? text = some t.amount := by
      rw [amountIn?, ht]
      rfl
    have hfinite : t.amount.isFinite = true := isFinite_of_amountIn? hamount
    refine ⟨hfinite, hlt, ?_, Alert.exists_text_eq hfinite t.eventId⟩
    rw [← Scorer.eventId_of_extract ht]
    rfl
  · intro e
    rw [← and_assoc, ← hnone, ← extract_eq_error_iff, Scorer.evaluate, exceptMap_eq_error_iff]
  · intro hrecord hscan r hr
    exact ((Scorer.mk (.highValue threshold)).score_eq_dropped_iff hr).2
      ⟨_, extract_eq_error_iff.2 ⟨hnone.2 ⟨hrecord, hscan⟩, rfl⟩⟩

/-- A number that is too large makes the text no JSON, and is found again by the search. -/
example : (Scorer.mk (.highValue 0)).evaluate "\x7b\"amount\":1e999\x7d" =
    .error (.streamParse (.notFinite "1e999")) := by
  decide +kernel

end TrustBoundary
