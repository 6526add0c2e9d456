import TrustBoundary.Json.Choice
import TrustBoundary.Json.Printer
import TrustBoundary.Json.Shape

/-!
# Alerts

An alert tells that a transaction is risky.  It carries the amount and, where it is known, the id of
the event, and nothing else of the record that gave rise to it.
-/

namespace TrustBoundary

open Json

/-- What an alert is about. -/
inductive AlertType where
  | highValueTransaction
deriving DecidableEq

/-- How serious a risk is. -/
inductive RiskLevel where
  | low
  | medium
  | high
deriving DecidableEq

namespace AlertType

/-- The types under their names. -/
def named : List (String × AlertType) := [("HIGH_VALUE_TX", highValueTransaction)]

/-- The name of a type. -/
def name : AlertType → String
  | highValueTransaction => "HIGH_VALUE_TX"

end AlertType

namespace RiskLevel

/-- The levels under their names. -/
def named : List (String × RiskLevel) := [("LOW", low), ("MEDIUM", medium), ("HIGH", high)]

/-- The name of a level. -/
def name : RiskLevel → String
  | low => "LOW"
  | medium => "MEDIUM"
  | high => "HIGH"

/-- The place of a level, from the least serious up. -/
def rank : RiskLevel → Nat
  | low => 0
  | medium => 1
  | high => 2

instance : Ord RiskLevel := ⟨fun a b => compare a.rank b.rank⟩

end RiskLevel

/-- An alert. -/
structure Alert where
  type : AlertType
  risk : RiskLevel
  amount : Float
  eventId : Option String
deriving DecidableEq

namespace Alert

/-- The alert about a transaction of high value. -/
def highValue (amount : Float) (eventId : Option String) : Alert :=
  ⟨.highValueTransaction, .high, amount, eventId⟩

/-- The JSON object of an alert.  An amount that is no number is written as null, and an id that is
not known is left out. -/
def toValue (a : Alert) : Value := .object ([
  ("type", .string a.type.name),
  ("risk", .string a.risk.name),
  ("amount", .ofFloat a.amount)] ++ (a.eventId.map fun id => ("eventId", .string id)).toList)

/-- The text of an alert. -/
def text (a : Alert) : String := a.toValue.text

/-- An alert whose members may still be missing. -/
structure Draft where
  type : Option AlertType := none
  risk : Option RiskLevel := none
  amount : Option Float := none
  eventId : Option (Option String) := none

/-- How an alert is read; the id may be left out. -/
def shape : Shape Draft Alert where
  title := "AlertEvent"
  members := [
    .of "type" (choiceDecoder AlertType.named) (·.type) fun d v => { d with type := some v },
    .of "risk" (choiceDecoder RiskLevel.named) (·.risk) fun d v => { d with risk := some v },
    .of "amount" floatDecoder (·.amount) fun d v => { d with amount := some v },
    .of "eventId" (optionalDecoder textDecoder) (·.eventId)
      (fun d v => { d with eventId := some v }) true]
  blank := {}
  complete d := do
    return ⟨← required "type" d.type, ← required "risk" d.risk, ← required "amount" d.amount,
      d.eventId.getD none⟩

/-- Reads an alert from a text. -/
def read (text : String) : Except Json.Error Alert := shape.decoder.run text

/-- Whether two alerts are equal; their amounts are compared as numbers. -/
def same (a b : Alert) : Bool :=
  a.type == b.type && a.risk == b.risk && a.amount == b.amount && a.eventId == b.eventId

end Alert

end TrustBoundary
