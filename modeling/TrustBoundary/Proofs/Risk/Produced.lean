import TrustBoundary.Event.Transaction
import TrustBoundary.Proofs.Json.Members
import TrustBoundary.Proofs.Json.Scalars
import TrustBoundary.Proofs.Record.Reading
import TrustBoundary.Proofs.Risk.Scanning
import TrustBoundary.Risk.Scorer

/-!
# Scoring what a producer writes

The stream record of a transaction is scored by its amount and its id, and by nothing else that
stands in it (`Transaction.score_toStreamRecord`).  If the amount is a number, it is read from the
record; if it is written as null, the text is searched for an amount, and there is none to be found,
whatever the strings of the transaction hold.
-/

namespace TrustBoundary

open Json

namespace Transaction

variable (t : Transaction)

/-! ### Members -/

/-- The members of a transaction behind its amount. -/
def tail : List (String × Value) := [
  ("currency", .string t.currency),
  ("sourceAccount", .string t.source),
  ("destinationAccount", .string t.destination),
  ("type", .string t.type.name),
  ("channel", .string t.channel.name),
  ("timestamp", .string t.timestamp.text)]

theorem toValue_eq : t.toValue =
    .object ([("transactionId", .string t.id)] ++ ("amount", .ofFloat t.amount) :: t.tail) := rfl

/-- The search for an amount passes over the members in front of the amount. -/
theorem passedOver_id : ∀ m ∈ [("transactionId", Value.string t.id)], PassedOver m := by
  intro m hm
  obtain rfl := List.mem_singleton.1 hm
  exact passedOver_string (by decide) (by decide) t.id

theorem passedOver_tail : ∀ m ∈ t.tail, PassedOver m := by
  simp only [tail, List.mem_cons, List.not_mem_nil, or_false, forall_eq_or_imp, forall_eq]
  exact ⟨passedOver_string (by decide) (by decide) _, passedOver_string (by decide) (by decide) _,
    passedOver_string (by decide) (by decide) _, passedOver_string (by decide) (by decide) _,
    passedOver_string (by decide) (by decide) _, passedOver_string (by decide) (by decide) _⟩

/-- An amount that is a number is found in the text as it is written. -/
theorem scanAmount?_text (hfinite : t.amount.isFinite = true) :
    scanAmount? t.text.toList = some (Decimal.ofFloat t.amount) := by
  have htoken : (Value.ofFloat t.amount).chars = Decimal.ofFloat t.amount := by
    rw [Value.ofFloat_of_isFinite hfinite, Value.chars, Number.text]
  rw [text, Value.text, String.toList_ofList, toValue_eq, scanAmount?_object,
    scanAmount?_members t.passedOver_id, moreChars, membersChars_cons, List.cons_append,
    scanAmount?_cons (amountAt?_cons (by decide) _), List.append_assoc, List.cons_append,
    List.append_assoc, htoken]
  exact scanAmount?_amount hfinite (endsMember_moreChars t.tail [])

/-- Where the amount is no number, no string of a transaction is taken for one. -/
theorem scanAmount?_text_of_not_isFinite (hfinite : t.amount.isFinite = false) :
    scanAmount? t.text.toList = none := by
  have hall : ∀ m ∈ [("transactionId", Value.string t.id)] ++ ("amount", Value.null) :: t.tail,
      PassedOver m := by
    intro m hm
    obtain hid | hm := List.mem_append.1 hm
    · exact t.passedOver_id m hid
    · obtain rfl | htail := List.mem_cons.1 hm
      · exact passedOver_null
      · exact t.passedOver_tail m htail
  have hscan := scanAmount?_members hall [] []
  rw [List.append_nil] at hscan
  rw [text, Value.text, String.toList_ofList, toValue_eq, Value.ofFloat_of_not_isFinite hfinite,
    scanAmount?_object, hscan]
  rfl

/-! ### Records -/

theorem reads_tail : List.Forall₂
    (fun m w => m.1 = w.1 ∧ (Value.decoder (Value.maxDepth - 1)).Reads m.2 w.2) t.tail t.tail := by
  repeat' first
    | exact .nil
    | refine .cons ⟨rfl, Value.reads_string _ _⟩ ?_

/-- The members of a transaction are read as they are written, but for the amount. -/
theorem members_text {w : Value}
    (hamount : (Value.decoder (Value.maxDepth - 1)).Reads (.ofFloat t.amount) w) :
    members t.text = .ok ([("transactionId", .string t.id)] ++ ("amount", w) :: t.tail) :=
  members_of_reads (.cons ⟨rfl, Value.reads_string _ _⟩ (.cons ⟨rfl, hamount⟩ t.reads_tail))

/-- What the record of a transaction holds in the fields that a scorer looks at. -/
theorem exists_record {w : Value}
    (hamount : (Value.decoder (Value.maxDepth - 1)).Reads (.ofFloat t.amount) w) :
    ∃ r, Record.read t.text = .ok r ∧ r.get? "amount" = some (Scalar.ofValue w) ∧
      r.eventId? = if t.id = "" then none else some t.id := by
  have hms := t.members_text hamount
  have hread := Record.read_eq_ok_iff.2 ⟨_, hms, rfl⟩
  have hget := Record.get?_of_read hread hms
  refine ⟨_, hread, hget "amount", ?_⟩
  have hfirst := hget "transactionId"
  have hsecond := hget "transaction_id"
  have hthird := hget "id"
  have hlast := hget "reference"
  change _ = some (Scalar.text t.id) at hfirst
  change _ = none at hsecond hthird hlast
  simp only [Record.eventId?, eventIdFields, List.findSome?, hfirst, hsecond, hthird, hlast,
    Option.bind_some, Option.bind_none, Scalar.eventId?, String.isEmpty_iff]
  by_cases hid : t.id = ""
  · rw [if_pos hid]
  · rw [if_neg hid]

/-- A transaction of which the amount is not read back is no record. -/
theorem toOption_record_of_none (hfinite : t.amount.isFinite = true) (h : reread? t.amount = none) :
    (Record.read t.text).toOption = none := by
  have hid : List.Forall₂
      (fun m w => m.1 = w.1 ∧ (Value.decoder (Value.maxDepth - 1)).Reads m.2 w.2)
      [("transactionId", .string t.id)] [("transactionId", .string t.id)] :=
    .cons ⟨rfl, Value.reads_string _ t.id⟩ .nil
  obtain ⟨place, hmembers⟩ := members_of_stops hid "amount" t.tail
    fun rest hrest => Value.decoder_ofFloat_stops (Value.maxDepth - 1) hfinite h hrest
  cases hread : Record.read t.text with
  | error e => rfl
  | ok r =>
    obtain ⟨ms, hms, -⟩ := Record.read_eq_ok_iff.1 hread
    rw [text, toValue_eq] at hms
    rw [hmembers] at hms
    cases hms

end Transaction

/-! ### Scores -/

/-- The rule is applied to what is found in a text. -/
theorem Scorer.score_of_extract (threshold : Float) {topic key text : String} {e : Extract}
    (h : extract text = .ok e) :
    (Scorer.mk (.highValue threshold)).score ⟨topic, key, some text⟩ =
      if threshold < e.amount then .alert (.highValue e.amount e.eventId) else .noAlert := by
  simp only [score, evaluate, h, Except.map, RiskRule.highValue]
  by_cases hlt : threshold < e.amount
  · rw [if_pos hlt, if_pos hlt]
  · rw [if_neg hlt, if_neg hlt]

namespace Transaction

variable {t : Transaction}

/-- A transaction whose amount is no number raises no alert. -/
theorem score_of_not_isFinite (threshold : Float) (topic : String)
    (hfinite : t.amount.isFinite = false) :
    (Scorer.mk (.highValue threshold)).score (t.toStreamRecord topic) = .dropped := by
  have hnull : (Value.decoder (Value.maxDepth - 1)).Reads (.ofFloat t.amount) .null := by
    rw [Value.ofFloat_of_not_isFinite hfinite]
    exact Value.reads_null _
  obtain ⟨r, hread, hamount, -⟩ := t.exists_record hnull
  have hnone : r.amount? = none := by
    rw [Record.amount?, hamount]
    rfl
  have hextract : extract t.text = .error (.streamParse .noAmount) := by
    rw [extract, hread]
    dsimp only [Except.toOption, Option.bind_some]
    rw [hnone, scanAmount, t.scanAmount?_text_of_not_isFinite hfinite]
    rfl
  rw [Scorer.score, toStreamRecord]
  dsimp only
  rw [Scorer.evaluate, hextract]
  rfl

/-- A transaction whose amount is read back raises an alert with that amount and its id. -/
theorem score_of_reread (threshold : Float) (topic : String) (hfinite : t.amount.isFinite = true)
    {n : Number} (h : reread? t.amount = some n) :
    (Scorer.mk (.highValue threshold)).score (t.toStreamRecord topic) =
      if threshold < n.toFloat then
        .alert (.highValue n.toFloat (if t.id = "" then none else some t.id))
      else .noAlert := by
  obtain ⟨r, hread, hamount, hid⟩ := t.exists_record (Value.reads_ofFloat _ hfinite h)
  have hsome : r.amount? = some n.toFloat := by
    rw [Record.amount?, hamount]
    rfl
  have hextract : extract t.text = .ok ⟨n.toFloat, r.eventId?, some r⟩ := by
    rw [extract, hread]
    dsimp only [Except.toOption, Option.bind_some]
    rw [hsome]
  rw [toStreamRecord, Scorer.score_of_extract threshold hextract, hid]

/-- If the amount of a transaction is not read back, its numeral is all that is found in the text.
-/
theorem extract_text_of_none (hfinite : t.amount.isFinite = true) (h : reread? t.amount = none)
    {u : Transaction} (hamount : u.amount = t.amount) : extract u.text = extract t.text := by
  have hrecord (v : Transaction) (hv : v.amount = t.amount) :
      (Record.read v.text).toOption = none := by
    rw [← hv] at hfinite h
    exact v.toOption_record_of_none hfinite h
  have hscan (v : Transaction) (hv : v.amount = t.amount) :
      scanAmount? v.text.toList = some (Decimal.ofFloat t.amount) := by
    rw [← hv] at hfinite ⊢
    exact v.scanAmount?_text hfinite
  simp only [extract, hrecord t rfl, hrecord u hamount, Option.bind_none, scanAmount, hscan t rfl,
    hscan u hamount]

/-- Two transactions with the same amount and id raise the same alert or none. -/
theorem score_congr (threshold : Float) {u : Transaction} (topic topic' : String)
    (hamount : u.amount = t.amount) (hid : u.id = t.id) :
    (Scorer.mk (.highValue threshold)).score (u.toStreamRecord topic') =
      (Scorer.mk (.highValue threshold)).score (t.toStreamRecord topic) := by
  cases hfinite : t.amount.isFinite with
  | false =>
    rw [score_of_not_isFinite threshold topic hfinite,
      score_of_not_isFinite threshold topic' (hamount ▸ hfinite)]
  | true =>
    cases h : reread? t.amount with
    | some n =>
      rw [score_of_reread threshold topic hfinite h,
        score_of_reread threshold topic' (hamount ▸ hfinite) (hamount ▸ h), hid]
    | none =>
      have hextract := extract_text_of_none hfinite h hamount
      simp only [Scorer.score, toStreamRecord, Scorer.evaluate, hextract]

/-- What becomes of the record of a transaction depends on its amount and its id alone.  Without a
number for its amount it is dropped.  Otherwise, if its amount is read back, it raises an alert with
that amount and the id if the amount is above the threshold, and none if it is not. -/
theorem score_toStreamRecord (threshold : Float) (t : Transaction) (topic : String) :
    (∀ (u : Transaction) (topic' : String), u.amount = t.amount → u.id = t.id →
      (Scorer.mk (.highValue threshold)).score (u.toStreamRecord topic') =
        (Scorer.mk (.highValue threshold)).score (t.toStreamRecord topic)) ∧
    (t.amount.isFinite = false →
      (Scorer.mk (.highValue threshold)).score (t.toStreamRecord topic) = .dropped) ∧
    ∀ n, t.amount.isFinite = true → Value.read (Value.ofFloat t.amount).text = .ok (.number n) →
      (Scorer.mk (.highValue threshold)).score (t.toStreamRecord topic) =
        if threshold < n.toFloat then
          .alert (.highValue n.toFloat (if t.id = "" then none else some t.id))
        else .noAlert :=
  ⟨fun _ topic' hamount hid => score_congr threshold topic topic' hamount hid,
    fun hfinite => score_of_not_isFinite threshold topic hfinite,
    fun _ hfinite hread =>
      score_of_reread threshold topic hfinite ((Value.read_ofFloat_eq_ok_iff hfinite).1 hread)⟩

/-- A transaction whose strings look like amounts. -/
def quotingTransaction (amount : Float) : Transaction where
  id := "\"amount\":1"
  amount := amount
  currency := "\",\"amount\":99999,\""
  source := "amount"
  destination := "\\\"amount\\\": 5"
  type := .payment
  channel := .web
  timestamp := ⟨⟨2024, 2, 29, by decide, by decide, by decide⟩, 12, 30, 60, 250000000, by decide,
    by decide, by decide, by decide⟩

theorem score_toStreamRecord_quotingTransaction :
    (Scorer.mk (.highValue 10000)).score ((quotingTransaction 20000).toStreamRecord "t") =
        .alert (.highValue 20000 (some "\"amount\":1")) ∧
      (Scorer.mk (.highValue 10000)).score ((quotingTransaction (0 / 0)).toStreamRecord "t") =
        .dropped ∧
      (Scorer.mk (.highValue 10000)).score
          ({ quotingTransaction 20000 with currency := "EUR" }.toStreamRecord "u") =
        (Scorer.mk (.highValue 10000)).score ((quotingTransaction 20000).toStreamRecord "t") := by
  have hfinite : (quotingTransaction 20000).amount.isFinite = true := by decide +kernel
  have hread : Value.read (Value.ofFloat (quotingTransaction 20000).amount).text =
      .ok (.number (.float 20000 (by decide +kernel))) :=
    (Value.read_ofFloat_eq_ok_iff hfinite).2 (by decide +kernel)
  refine ⟨?_, ?_, ?_⟩
  · rw [(score_toStreamRecord 10000 (quotingTransaction 20000) "t").2.2 _ hfinite hread]
    decide +kernel
  · exact (score_toStreamRecord 10000 (quotingTransaction (0 / 0)) "t").2.1 (by decide +kernel)
  · exact (score_toStreamRecord 10000 (quotingTransaction 20000) "t").1 _ "u" rfl rfl

end Transaction

end TrustBoundary
