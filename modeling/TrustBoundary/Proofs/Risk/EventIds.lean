import TrustBoundary.Json.Choice
import TrustBoundary.Proofs.Record.Reading
import TrustBoundary.Risk.Scorer

/-!
# What an alert takes from a text

Where the field `amount` of a record can be read, nothing but five fields of it decide what a scorer
makes of the text (`Scorer.evaluate_of_amount?`), whatever else stands in it.  The id in an alert is
always that of the first field that holds one (`Scorer.eventId_eq_some_iff`); a list or an object in
such a field is taken for an id too, in the form of its text.
-/

namespace TrustBoundary

open Json

/-! ### Ids -/

/-- The id that stands in a field: a text that is not empty, or a number as it is written. -/
def Scalar.Identifies (v : Scalar) (id : String) : Prop :=
  (v = .text id ∧ id ≠ "") ∨ ∃ n, v = .number n ∧ id = String.ofList n.text

theorem Scalar.eventId?_eq_some_iff {v : Scalar} {id : String} :
    v.eventId? = some id ↔ v.Identifies id := by
  cases v with
  | text s =>
    rw [eventId?, Identifies]
    by_cases hs : s = ""
    · simp [hs]
    · have hempty : s.isEmpty = false := by simpa using hs
      rw [hempty, if_neg Bool.false_ne_true]
      constructor
      · intro h
        obtain rfl := Option.some.inj h
        exact .inl ⟨rfl, hs⟩
      · rintro (⟨h, -⟩ | ⟨n, h, -⟩)
        · rw [Scalar.text.inj h]
        · cases h
  | number n =>
    simp [eventId?, Identifies, eq_comm]
  | null => simp [eventId?, Identifies]
  | bool b => simp [eventId?, Identifies]

/-- The id of the first of several fields that holds one. -/
def IsFirstId (fields : List String) (holds : String → String → Prop) (id : String) : Prop :=
  ∃ before name after, fields = before ++ name :: after ∧
    (∀ earlier ∈ before, ∀ other, ¬ holds earlier other) ∧ holds name id

theorem Record.eventId?_eq_some_iff {r : Record} {id : String} :
    r.eventId? = some id ↔
      IsFirstId eventIdFields (fun name id => ∃ v, r.get? name = some v ∧ v.Identifies id) id := by
  have hholds (name id : String) : (r.get? name).bind Scalar.eventId? = some id ↔
      ∃ v, r.get? name = some v ∧ v.Identifies id := by
    simp only [Option.bind_eq_some_iff, Scalar.eventId?_eq_some_iff]
  have hnone (name : String) : (r.get? name).bind Scalar.eventId? = none ↔
      ∀ other, ¬ ∃ v, r.get? name = some v ∧ v.Identifies other := by
    rw [Option.eq_none_iff_forall_ne_some]
    exact forall_congr' fun other => not_congr (hholds name other)
  rw [Record.eventId?, List.findSome?_eq_some_iff, IsFirstId]
  constructor
  · rintro ⟨before, name, after, hfields, hname, hbefore⟩
    exact ⟨before, name, after, hfields, fun earlier h => (hnone earlier).1 (hbefore earlier h),
      (hholds name id).1 hname⟩
  · rintro ⟨before, name, after, hfields, hbefore, hname⟩
    exact ⟨before, name, after, hfields, (hholds name id).2 hname,
      fun earlier h => (hnone earlier).2 (hbefore earlier h)⟩

/-- The id that a member stands for: the content of a string that is not empty, a number as it is
written, or the text of a list or object. -/
inductive Json.Value.Identifies : Value → String → Prop
  | string {s : String} (h : s ≠ "") : Identifies (.string s) s
  | number (n : Number) : Identifies (.number n) (String.ofList n.text)
  | array (items : List Value) : Identifies (.array items) (Value.array items).text
  | object (ms : List (String × Value)) : Identifies (.object ms) (Value.object ms).text

/-- The text of a list or object is not empty. -/
theorem Json.Value.text_ne_empty {v : Value} {c : Char} {cs : List Char} (h : v.chars = c :: cs) :
    v.text ≠ "" := by
  rw [Value.text, h]
  intro hempty
  have hlist := congrArg String.toList hempty
  rw [String.toList_ofList] at hlist
  cases hlist

theorem Scalar.identifies_ofValue_iff {v : Value} {id : String} :
    (Scalar.ofValue v).Identifies id ↔ v.Identifies id := by
  constructor
  · rintro (⟨hv, hid⟩ | ⟨n, hv, rfl⟩)
    · cases v with
      | string s =>
        obtain rfl := Scalar.text.inj hv
        exact .string hid
      | array items =>
        obtain rfl := Scalar.text.inj hv
        exact .array items
      | object ms =>
        obtain rfl := Scalar.text.inj hv
        exact .object ms
      | _ => cases hv
    · cases v with
      | number m =>
        obtain rfl := Scalar.number.inj hv
        exact .number m
      | _ => cases hv
  · -- a list or object is kept as its text, which is not empty
    rintro (hid | n | items | ms)
    · exact .inl ⟨rfl, hid⟩
    · exact .inr ⟨n, rfl, rfl⟩
    · exact .inl ⟨rfl, Value.text_ne_empty rfl⟩
    · exact .inl ⟨rfl, Value.text_ne_empty rfl⟩

/-! ### Scoring -/

namespace Scorer

variable {text text' : String} {r r' : Record} {amount : Float}

/-- The fields of a record on which an alert depends. -/
def decidingFields : List String := "amount" :: eventIdFields

/-- Where the amount of a record can be read, the text is not searched for another one. -/
theorem evaluate_of_amount? (threshold : Float) (h : Record.read text = .ok r)
    (hamount : r.amount? = some amount) :
    (Scorer.mk (.highValue threshold)).evaluate text =
      .ok (if threshold < amount then some (.highValue amount r.eventId?) else none) := by
  have hextract : extract text = .ok ⟨amount, r.eventId?, some r⟩ := by
    rw [extract, h]
    dsimp only [Except.toOption, Option.bind_some]
    rw [hamount]
  rw [evaluate, hextract]
  rfl

/-- Two texts whose records agree in the deciding fields raise the same alert or none, whatever else
they hold. -/
theorem evaluate_eq_of_agree (threshold : Float) (h : Record.read text = .ok r)
    (h' : Record.read text' = .ok r') (hagree : ∀ name ∈ decidingFields, r.get? name = r'.get? name)
    (hamount : r.amount? = some amount) :
    (Scorer.mk (.highValue threshold)).evaluate text' =
        (Scorer.mk (.highValue threshold)).evaluate text ∧
      (∃ id, (Scorer.mk (.highValue threshold)).evaluate text =
          .ok (if threshold < amount then some (.highValue amount id) else none) ∧
        ∀ s, id = some s ↔ IsFirstId eventIdFields
          (fun name s => ∃ v, r.get? name = some v ∧ v.Identifies s) s) ∧
      ∀ ms, members text = .ok ms →
        ∀ name, r.get? name = (lastMember? name ms).map Scalar.ofValue := by
  have hamount' : r'.amount? = some amount := by
    rw [← hamount, Record.amount?, Record.amount?, hagree "amount" List.mem_cons_self]
  have hid : r'.eventId? = r.eventId? := by
    -- the ids are looked for in the four fields behind the amount
    have hfields : ∀ name ∈ eventIdFields, r.get? name = r'.get? name :=
      fun name hname => hagree name (List.mem_cons_of_mem _ hname)
    rw [Record.eventId?, Record.eventId?]
    simp only [eventIdFields, List.mem_cons, List.not_mem_nil, or_false, forall_eq_or_imp,
      forall_eq] at hfields
    obtain ⟨hfirst, hsecond, hthird, hlast⟩ := hfields
    simp only [eventIdFields, List.findSome?, hfirst, hsecond, hthird, hlast]
  refine ⟨?_, ⟨r.eventId?, evaluate_of_amount? threshold h hamount,
    fun s => Record.eventId?_eq_some_iff⟩, fun ms hms => Record.get?_of_read h hms⟩
  rw [evaluate_of_amount? threshold h hamount, evaluate_of_amount? threshold h' hamount', hid]

/-- A text with an amount and an id. -/
def plainText : String := "\x7b\"amount\":20000,\"id\":\"tx-1\"\x7d"

/-- A text with the same amount and id, and with an id before it, an amount inside another member,
and blanks. -/
def crowdedText : String :=
  " \x7b\"id\": 7, \"note\": \x7b\"amount\":1\x7d, \"id\": \"tx-1\", \"amount\": 20000\x7d"

/-- The record of `plainText`. -/
def plainRecord : Record :=
  .ofList [("amount", .number (.whole 20000 (by decide))), ("id", .text "tx-1")]

/-- The record of `crowdedText`. -/
def crowdedRecord : Record := .ofList [("amount", .number (.whole 20000 (by decide))),
  ("id", .text "tx-1"), ("note", .text "\x7b\"amount\":1\x7d")]

theorem evaluate_eq_of_agree_crowdedText :
    Record.read plainText = .ok plainRecord ∧ Record.read crowdedText = .ok crowdedRecord ∧
      (Scorer.mk (.highValue 10000)).evaluate crowdedText =
        (Scorer.mk (.highValue 10000)).evaluate plainText ∧
      (Scorer.mk (.highValue 10000)).evaluate plainText =
        .ok (some (.highValue 20000 (some "tx-1"))) := by
  have hplain : Record.read plainText = .ok plainRecord := by decide +kernel
  have hcrowded : Record.read crowdedText = .ok crowdedRecord := by decide +kernel
  have hagree : ∀ name ∈ decidingFields, plainRecord.get? name = crowdedRecord.get? name := by
    decide +kernel
  have hamount : plainRecord.amount? = some 20000 := by decide +kernel
  exact ⟨hplain, hcrowded, (evaluate_eq_of_agree 10000 hplain hcrowded hagree hamount).1,
    by decide +kernel⟩

/-- The id that is found in a text is that of its record. -/
theorem eventId_of_extract {e : Extract} (h : extract text = .ok e) :
    e.eventId = (Record.read text).toOption.bind Record.eventId? := by
  rw [extract] at h
  split at h
  · rw [← Except.ok.inj h]
  · cases hscan : scanAmount text.toList with
    | error fault =>
      rw [hscan] at h
      cases h
    | ok amount =>
      rw [hscan] at h
      rw [← Except.ok.inj h]

/-- An alert has the id that is found in the text. -/
theorem eventId_of_evaluate {threshold : Float} {a : Alert}
    (h : (Scorer.mk (.highValue threshold)).evaluate text = .ok (some a)) :
    a.eventId = (Record.read text).toOption.bind Record.eventId? := by
  rw [evaluate] at h
  cases he : extract text with
  | error fault =>
    rw [he] at h
    cases h
  | ok e =>
    rw [he] at h
    replace h := Except.ok.inj h
    simp only [RiskRule.highValue] at h
    split at h
    · rw [← Option.some.inj h]
      exact eventId_of_extract he
    · cases h

/-- The id of an alert is that of the first field that holds one, and that is also the text of a
list or object in such a field. -/
theorem eventId_eq_some_iff {threshold : Float} {a : Alert}
    (h : (Scorer.mk (.highValue threshold)).evaluate text = .ok (some a)) (id : String) :
    a.eventId = some id ↔ ∃ ms, members text = .ok ms ∧ IsFirstId eventIdFields
      (fun name id => ∃ v, lastMember? name ms = some v ∧ v.Identifies id) id := by
  -- what a record says of its fields is what the members say
  have hfields {r : Record} {ms : List (String × Value)} (hr : Record.read text = .ok r)
      (hms : members text = .ok ms) :
      (fun name id => ∃ v, r.get? name = some v ∧ v.Identifies id) =
        fun name id => ∃ v, lastMember? name ms = some v ∧ v.Identifies id := by
    funext name id
    rw [Record.get?_of_read hr hms]
    simp only [Option.map_eq_some_iff, exists_exists_and_eq_and, Scalar.identifies_ofValue_iff]
  rw [eventId_of_evaluate h, Option.bind_eq_some_iff]
  constructor
  · rintro ⟨r, hr, hfirst⟩
    have hread : Record.read text = .ok r := by
      cases hresult : Record.read text with
      | error e =>
        rw [hresult] at hr
        cases hr
      | ok r' =>
        rw [hresult] at hr
        rw [Option.some.inj hr]
    obtain ⟨ms, hms, -⟩ := Record.read_eq_ok_iff.1 hread
    exact ⟨ms, hms, hfields hread hms ▸ Record.eventId?_eq_some_iff.1 hfirst⟩
  · rintro ⟨ms, hms, hfirst⟩
    have hread := Record.read_eq_ok_iff.2 ⟨ms, hms, rfl⟩
    refine ⟨_, by rw [hread]; rfl, ?_⟩
    rw [Record.eventId?_eq_some_iff, hfields hread hms]
    exact hfirst

/-- A text whose id is an object with an address in it. -/
def nestedText : String :=
  "\x7b\"amount\":20000,\"id\":\x7b\"email\":\"ada@example.com\"\x7d\x7d"

theorem evaluate_nestedText :
    (Scorer.mk (.highValue 10000)).evaluate nestedText =
      .ok (some (.highValue 20000 (some "\x7b\"email\":\"ada@example.com\"\x7d"))) := by
  decide +kernel

theorem eventId_eq_some_iff_nestedText :
    ∃ ms, members nestedText = .ok ms ∧ IsFirstId eventIdFields
      (fun name id => ∃ v, lastMember? name ms = some v ∧ v.Identifies id)
      "\x7b\"email\":\"ada@example.com\"\x7d" :=
  (eventId_eq_some_iff evaluate_nestedText _).1 rfl

/-- The id of an alert need not be the content of a string or a number. -/
theorem not_forall_eventId_string_or_number :
    ¬ ∀ (threshold : Float) (text : String) (a : Alert) (id : String),
      (Scorer.mk (.highValue threshold)).evaluate text = .ok (some a) → a.eventId = some id →
      ∃ ms, members text = .ok ms ∧ ∃ name ∈ eventIdFields, (name, Value.string id) ∈ ms ∨
        ∃ n, (name, Value.number n) ∈ ms ∧ id = String.ofList n.text := by
  intro h
  obtain ⟨ms, hms, name, hname, hmem⟩ := h 10000 nestedText _ _ evaluate_nestedText rfl
  -- what the members are taken for tells strings, numbers and objects apart
  have hfound : (members nestedText).map (·.map fun m => (m.1, m.2.found)) =
      .ok [("amount", .integer 20000), ("id", .map)] := by decide +kernel
  rw [hms] at hfound
  replace hfound := Except.ok.inj hfound
  have hmap {v : Value} (hv : (name, v) ∈ ms) :
      (name, v.found) ∈ [("amount", Found.integer 20000), ("id", .map)] := by
    rw [← hfound]
    exact List.mem_map.2 ⟨(name, v), hv, rfl⟩
  obtain hstring | ⟨n, hnumber, -⟩ := hmem
  · simpa [Value.found] using hmap hstring
  · -- the only number is no id
    have hamount : name = "amount" := by
      have hin := hmap hnumber
      cases n <;> simp [Value.found, Number.found] at hin
      exact hin.1
    exact absurd (hamount ▸ hname) (by decide)

end Scorer

end TrustBoundary
