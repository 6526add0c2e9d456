import TrustBoundary.Json.Typed
import TrustBoundary.Record.Scalar

/-!
# Records

A record is what crosses the trust boundary: field values under field names, of a schema that is
known to nobody here.  It is read from a JSON object in two ways: `Record.read` reads any value and
turns it into a record, `Record.decoder` reads straight into the record.
-/

namespace TrustBoundary

open Json

/-- Field values under field names. -/
abbrev Record := Fields Scalar

namespace Record

/-- Why a text is not read as a record. -/
inductive Error where
  /-- The text is not JSON. -/
  | json (e : Json.Error)
  /-- The text is JSON, but no object. -/
  | notAnObject
deriving DecidableEq

/-- The wording of an error. -/
def Error.message : Error → String
  | json e => "JSON error: " ++ e.message
  | notAnObject => "record is not a JSON object"

/-- The record of a JSON object. -/
def ofObject (members : Fields Value) : Record := members.map fun _ v => Scalar.ofValue v

/-- The record of a JSON value, if that is an object. -/
def ofValue? : Value → Option Record
  | .object members => some (ofObject (Fields.ofList members))
  | _ => none

/-- Reads a record from a text: reads a value and turns it into a record. -/
def read (text : String) : Except Error Record :=
  match Value.read text with
  | .error e => .error (.json e)
  | .ok v =>
    match ofValue? v with
    | some r => .ok r
    | none => .error .notAnObject

/-- Reads a record member by member. -/
def decoder : Decoder Record :=
  fieldsDecoder ((Value.decoder (Value.maxDepth - 1)).map Scalar.ofValue)

/-- The JSON object of a record. -/
def toValue (r : Record) : Value := .ofFields (r.map fun _ v => v.toValue)

/-- The text of a record: a JSON object without blanks. -/
def text (r : Record) : String := r.toValue.text

/-- Whether two records have the same names with the same values. -/
def same (a b : Record) : Bool :=
  a.names == b.names && (a.toList.zip b.toList).all fun (x, y) => x.2.same y.2

end Record

end TrustBoundary
