import TrustBoundary.Proofs.Record.Reading
import TrustBoundary.Risk.Scorer

/-!
# The amount of a text

A text has the amount that its record holds, and otherwise the one that the search finds
(`amountIn?_eq`).  A record holds an amount if its last member with that name does
(`recordAmount?_eq_some_iff`).  Whether an alert is raised depends on the amount alone
(`alerts_iff`).
-/

namespace TrustBoundary

open Json

variable {text : String} {threshold : Float}

/-! ### Amounts -/

/-- The amount that is found in a text. -/
def amountIn? (text : String) : Option Float := (extract text).toOption.map Extract.amount

/-- The amount in the field of a record, if the text is one. -/
def recordAmount? (text : String) : Option Float :=
  (Record.read text).toOption.bind Record.amount?

/-- Where a record holds no amount, the text is searched for one. -/
theorem amountIn?_eq (text : String) : amountIn? text =
    (recordAmount? text).or ((scanAmount? text.toList).bind readDecimal?) := by
  unfold amountIn? extract recordAmount?
  dsimp only
  cases (Record.read text).toOption.bind Record.amount? with
  | some x => rfl
  | none =>
    rw [scanAmount, Option.none_or]
    cases scanAmount? text.toList with
    | none => rfl
    | some word =>
      rw [Option.bind_some]
      dsimp only
      cases readDecimal? word <;> rfl

/-- The amount in a field. -/
def Scalar.amount? : Scalar → Option Float
  | .number n => some n.toFloat
  | .text s => readDecimal? s.toList
  | _ => none

/-- The amount of a record is that of its last member with the name. -/
theorem Record.amount?_of_read {r : Record} {ms : List (String × Value)} (h : read text = .ok r)
    (hms : members text = .ok ms) : r.amount? =
      (lastMember? "amount" ms).bind fun w => (Scalar.ofValue w).amount? := by
  rw [amount?, get?_of_read h hms]
  cases lastMember? "amount" ms with
  | none => rfl
  | some w => cases w <;> rfl

theorem recordAmount?_eq_some_iff {x : Float} : recordAmount? text = some x ↔
    ∃ ms, members text = .ok ms ∧
      ((lastMember? "amount" ms).bind fun w => (Scalar.ofValue w).amount?) = some x := by
  rw [recordAmount?]
  constructor
  · intro h
    cases hr : Record.read text with
    | error e =>
      rw [hr] at h
      cases h
    | ok r =>
      rw [hr] at h
      obtain ⟨ms, hms, -⟩ := Record.read_eq_ok_iff.1 hr
      refine ⟨ms, hms, ?_⟩
      rw [← h, ← Record.amount?_of_read hr hms]
      rfl
  · rintro ⟨ms, hms, hx⟩
    have hr := Record.read_eq_ok_iff.2 ⟨ms, hms, rfl⟩
    rw [hr, ← hx, ← Record.amount?_of_read hr hms]
    rfl

/-! ### Scoring -/

/-- Whether the rule for amounts above a threshold raises an alert for a text. -/
def Alerts (threshold : Float) (text : String) : Prop :=
  ∃ a, Scorer.evaluate ⟨.highValue threshold⟩ text = .ok (some a)

theorem alerts_iff : Alerts threshold text ↔ ∃ x ∈ amountIn? text, threshold < x := by
  rw [Alerts, Scorer.evaluate, amountIn?]
  cases extract text with
  | error e =>
    constructor
    · rintro ⟨a, ⟨⟩⟩
    · rintro ⟨x, ⟨⟩, -⟩
  | ok e =>
    simp only [Except.map, RiskRule.highValue, Except.ok.injEq, Option.ite_none_right_eq_some]
    constructor
    · rintro ⟨a, hlt, -⟩
      exact ⟨e.amount, rfl, hlt⟩
    · rintro ⟨x, hx, hlt⟩
      obtain rfl := Option.some.inj hx
      exact ⟨_, hlt, rfl⟩

/-- A record is dropped if no amount is found in its text, and only then. -/
theorem Scorer.score_eq_dropped_iff (s : Scorer) {r : StreamRecord} {text : String}
    (hr : r.value = some text) : s.score r = .dropped ↔ ∃ e, extract text = .error e := by
  rw [score, hr]
  dsimp only
  rw [evaluate]
  cases extract text with
  | error e => exact iff_of_true rfl ⟨e, rfl⟩
  | ok e =>
    refine iff_of_false ?_ (by rintro ⟨e, ⟨⟩⟩)
    dsimp only [Except.map]
    cases s.rule.evaluate e <;> exact nofun

end TrustBoundary
