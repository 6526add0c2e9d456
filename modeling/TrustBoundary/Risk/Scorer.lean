import TrustBoundary.Event.Alert
import TrustBoundary.Event.StreamRecord
import TrustBoundary.Risk.Extraction

/-!
# Rules and scoring

A rule looks at one transaction and may raise an alert.  The rule `highValue` raises one for every
amount above a threshold.  A scorer applies a rule to texts (`Scorer.evaluate`) and to stream
records (`Scorer.score`); a record without a value, or in which no amount is found, is dropped.
-/

namespace TrustBoundary

/-- A rule: it looks at one transaction and may raise an alert. -/
structure RiskRule where
  name : String
  evaluate : Extract → Option Alert

/-- Amounts above this are of high value. -/
def highValueThreshold : Float := 10000.0

/-- Raises an alert for every amount above a threshold. -/
def RiskRule.highValue (threshold : Float) : RiskRule where
  name := "high_value"
  evaluate t := if threshold < t.amount then some (.highValue t.amount t.eventId) else none

/-- What becomes of one stream record. -/
inductive Outcome where
  /-- It raises an alert. -/
  | alert (a : Alert)
  /-- It raises none. -/
  | noAlert
  /-- It has no value, or no amount is found in it. -/
  | dropped
deriving DecidableEq

/-- Applies a rule to texts and stream records. -/
structure Scorer where
  rule : RiskRule := .highValue highValueThreshold

namespace Scorer

/-- The alert that a text raises. -/
def evaluate (s : Scorer) (text : String) : Except RiskError (Option Alert) :=
  (extract text).map s.rule.evaluate

/-- What becomes of a stream record. -/
def score (s : Scorer) (r : StreamRecord) : Outcome :=
  match r.value with
  | none => .dropped
  | some text =>
    match s.evaluate text with
    | .ok (some a) => .alert a
    | .ok none => .noAlert
    | .error _ => .dropped

/-- What a scorer shows of itself. -/
def describe (s : Scorer) : String :=
  "RiskScorer \x7b rule: " ++ Text.quoted s.rule.name ++ " \x7d"

end Scorer

end TrustBoundary
