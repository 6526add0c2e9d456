import TrustBoundary.Json.Printer
import TrustBoundary.Json.Shape

/-!
# Stream records

What the streams carry: a topic, a key that keeps related records in order, and a payload.  A record
without a payload is a tombstone.
-/

namespace TrustBoundary

open Json

/-- A keyed record of a stream. -/
structure StreamRecord where
  topic : String
  key : String
  value : Option String
deriving DecidableEq

namespace StreamRecord

/-- The JSON object of a stream record. -/
def toValue (r : StreamRecord) : Value := .object [
  ("topic", .string r.topic),
  ("key", .string r.key),
  ("value", r.value.elim .null .string)]

/-- The text of a stream record. -/
def text (r : StreamRecord) : String := r.toValue.text

/-- A stream record whose members may still be missing. -/
structure Draft where
  topic : Option String := none
  key : Option String := none
  value : Option (Option String) := none

/-- How a stream record is read; the value may be left out of an object. -/
def shape : Shape Draft StreamRecord where
  title := "StreamRecord"
  members := [
    .of "topic" textDecoder (·.topic) fun d v => { d with topic := some v },
    .of "key" textDecoder (·.key) fun d v => { d with key := some v },
    .of "value" (optionalDecoder textDecoder) (·.value) fun d v => { d with value := some v }]
  blank := {}
  complete d := do
    return ⟨← required "topic" d.topic, ← required "key" d.key, d.value.getD none⟩

/-- Reads a stream record from a text. -/
def read (text : String) : Except Json.Error StreamRecord := shape.decoder.run text

end StreamRecord

end TrustBoundary
