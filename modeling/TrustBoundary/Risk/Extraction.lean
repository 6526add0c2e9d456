import TrustBoundary.Decimal.Reading
import TrustBoundary.Record.Basic
import TrustBoundary.Risk.AmountPattern
import TrustBoundary.Risk.Error
import TrustBoundary.Text.Blank

/-!
# What the rules look at

`extract` finds the amount of a transaction, and the id of the event if it can, in whatever text a
stream carries.  If the text is a JSON object, the amount is its field `amount`, a number or a text
that holds a decimal number.  Otherwise, or if that field is no amount, the text is searched for an
amount (`scanAmount?`).
-/

namespace TrustBoundary

open Json

/-- The parts of a transaction that the rules look at. -/
structure Extract where
  amount : Float
  eventId : Option String
  /-- The record, if the text was a JSON object. -/
  record : Option Record

/-- The decimal number that fills a text but for blanks. -/
def readDecimal? (text : List Char) : Option Float := Decimal.read? (Text.trim text)

/-- The amount in the field of that name. -/
def Record.amount? (r : Record) : Option Float :=
  match r.get? "amount" with
  | some (.number n) => some n.toFloat
  | some (.text s) => readDecimal? s.toList
  | _ => none

/-- The fields that may hold the id of an event, in the order in which they are asked. -/
def eventIdFields : List String := ["transactionId", "transaction_id", "id", "reference"]

/-- The id that a field holds: a text that is not empty, or a number as it is written. -/
def Scalar.eventId? : Scalar → Option String
  | .text s => if s.isEmpty then none else some s
  | .number n => some (String.ofList n.text)
  | _ => none

/-- The id of the event, from the first field that holds one. -/
def Record.eventId? (r : Record) : Option String :=
  eventIdFields.findSome? fun name => (r.get? name).bind Scalar.eventId?

/-- The first amount in a text. -/
def scanAmount (text : List Char) : Except RiskError Float :=
  match scanAmount? text with
  | none => .error (.streamParse .noAmount)
  | some numeral =>
    match readDecimal? numeral with
    | none => .error (.streamParse (.notFinite (String.ofList numeral)))
    | some amount => .ok amount

/-- The amount and the event id in a text. -/
def extract (text : String) : Except RiskError Extract :=
  let record := (Record.read text).toOption
  let eventId := record.bind Record.eventId?
  match record.bind Record.amount? with
  | some amount => .ok ⟨amount, eventId, record⟩
  | none => (scanAmount text.toList).map fun amount => ⟨amount, eventId, record⟩

end TrustBoundary
