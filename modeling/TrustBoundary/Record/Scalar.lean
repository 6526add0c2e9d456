import TrustBoundary.Json.Printer

/-!
# Field values

A field of a record holds null, a truth value, a number or a text.  Lists and objects become the
text of their compact JSON form (`Scalar.ofValue`), so nothing is lost on the way through.
-/

namespace TrustBoundary

open Json

/-- The value of one field. -/
inductive Scalar where
  | null
  | bool (b : Bool)
  | number (n : Number)
  | text (s : String)
deriving DecidableEq

namespace Scalar

/-- The field value of a JSON value; lists and objects are kept as their text. -/
def ofValue : Value → Scalar
  | .null => .null
  | .bool b => .bool b
  | .number n => .number n
  | .string s => .text s
  | .array items => .text (Value.array items).text
  | .object members => .text (Value.object members).text

/-- The JSON value of a field value. -/
def toValue : Scalar → Value
  | null => .null
  | bool b => .bool b
  | number n => .number n
  | text s => .string s

/-- The number of a double, or null if there is none. -/
def ofFloat (x : Float) : Scalar :=
  match Number.ofFloat? x with
  | some n => .number n
  | none => .null

/-- Whether the field is empty. -/
def isNull : Scalar → Bool
  | null => true
  | _ => false

/-- The text of a field, if it holds one. -/
def text? : Scalar → Option String
  | text s => some s
  | _ => none

/-- The truth value of a field, if it holds one. -/
def bool? : Scalar → Option Bool
  | bool b => some b
  | _ => none

/-- The double nearest to the number of a field, if it holds one. -/
def float? : Scalar → Option Float
  | number n => some n.toFloat
  | _ => none

/-- What a field shows: a text as it is, anything else as in JSON. -/
def display : Scalar → String
  | null => "null"
  | bool true => "true"
  | bool false => "false"
  | number n => String.ofList n.text
  | text s => s

/-- Whether two field values are equal; numbers are compared as numbers of one kind. -/
def same : Scalar → Scalar → Bool
  | number m, number n => m.same n
  | a, b => a == b

end Scalar

end TrustBoundary
