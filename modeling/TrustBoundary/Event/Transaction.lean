import TrustBoundary.Event.StreamRecord
import TrustBoundary.Event.TimestampReader
import TrustBoundary.Json.Choice

/-!
# Transactions

A transaction as its producer writes it to the stream: who pays whom how much, of what kind it is,
how it was initiated, and when.  Its stream record has the source account for its key, so the
transactions of one account stay in order (`Transaction.toStreamRecord`).
-/

namespace TrustBoundary

open Json

/-- The kind of a money movement. -/
inductive TransactionType where
  | transfer
  | payment
  | deposit
  | withdrawal
  | reversal
deriving DecidableEq

/-- How a transaction was initiated. -/
inductive Channel where
  | mobile
  | web
  | pos
  | atm
  | ussd
  | api
deriving DecidableEq

namespace TransactionType

/-- The kinds under their names. -/
def named : List (String × TransactionType) := [
  ("TRANSFER", transfer), ("PAYMENT", payment), ("DEPOSIT", deposit), ("WITHDRAWAL", withdrawal),
  ("REVERSAL", reversal)]

/-- The name of a kind. -/
def name : TransactionType → String
  | transfer => "TRANSFER"
  | payment => "PAYMENT"
  | deposit => "DEPOSIT"
  | withdrawal => "WITHDRAWAL"
  | reversal => "REVERSAL"

end TransactionType

namespace Channel

/-- The channels under their names. -/
def named : List (String × Channel) := [
  ("MOBILE", mobile), ("WEB", web), ("POS", pos), ("ATM", atm), ("USSD", ussd), ("API", api)]

/-- The name of a channel. -/
def name : Channel → String
  | mobile => "MOBILE"
  | web => "WEB"
  | pos => "POS"
  | atm => "ATM"
  | ussd => "USSD"
  | api => "API"

end Channel

/-- Reads a timestamp. -/
def timestampDecoder : Decoder Timestamp := fun cs => do
  let (text, rest) ← stringDecoder "an RFC 3339 formatted date and time string" cs
  match Timestamp.read text with
  | .ok t => return (t, rest)
  | .error e => stop (.refused e.message) rest

/-- A transaction. -/
structure Transaction where
  id : String
  amount : Float
  currency : String
  source : String
  destination : String
  type : TransactionType
  channel : Channel
  timestamp : Timestamp
deriving DecidableEq

namespace Transaction

/-- The JSON object of a transaction.  An amount that is no number is written as null. -/
def toValue (t : Transaction) : Value := .object [
  ("transactionId", .string t.id),
  ("amount", .ofFloat t.amount),
  ("currency", .string t.currency),
  ("sourceAccount", .string t.source),
  ("destinationAccount", .string t.destination),
  ("type", .string t.type.name),
  ("channel", .string t.channel.name),
  ("timestamp", .string t.timestamp.text)]

/-- The text of a transaction. -/
def text (t : Transaction) : String := t.toValue.text

/-- The stream record of a transaction, with the source account for its key. -/
def toStreamRecord (t : Transaction) (topic : String) : StreamRecord :=
  ⟨topic, t.source, some t.text⟩

/-- A transaction whose members may still be missing. -/
structure Draft where
  id : Option String := none
  amount : Option Float := none
  currency : Option String := none
  source : Option String := none
  destination : Option String := none
  type : Option TransactionType := none
  channel : Option Channel := none
  timestamp : Option Timestamp := none

/-- How a transaction is read. -/
def shape : Shape Draft Transaction where
  title := "TransactionEvent"
  members := [
    .of "transactionId" textDecoder (·.id) fun d v => { d with id := some v },
    .of "amount" floatDecoder (·.amount) fun d v => { d with amount := some v },
    .of "currency" textDecoder (·.currency) fun d v => { d with currency := some v },
    .of "sourceAccount" textDecoder (·.source) fun d v => { d with source := some v },
    .of "destinationAccount" textDecoder (·.destination)
      fun d v => { d with destination := some v },
    .of "type" (choiceDecoder TransactionType.named) (·.type) fun d v => { d with type := some v },
    .of "channel" (choiceDecoder Channel.named) (·.channel) fun d v => { d with channel := some v },
    .of "timestamp" timestampDecoder (·.timestamp) fun d v => { d with timestamp := some v }]
  blank := {}
  complete d := do
    return ⟨← required "transactionId" d.id, ← required "amount" d.amount,
      ← required "currency" d.currency, ← required "sourceAccount" d.source,
      ← required "destinationAccount" d.destination, ← required "type" d.type,
      ← required "channel" d.channel, ← required "timestamp" d.timestamp⟩

/-- Reads a transaction from a text. -/
def read (text : String) : Except Json.Error Transaction := shape.decoder.run text

/-- Whether two transactions are equal; their amounts are compared as numbers. -/
def same (a b : Transaction) : Bool :=
  a.amount == b.amount && { a with amount := b.amount } == b

end Transaction

end TrustBoundary
