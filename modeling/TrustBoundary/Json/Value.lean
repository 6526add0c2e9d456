import TrustBoundary.Fields
import TrustBoundary.Json.Number

/-!
# Values

A JSON value.  The members of an object keep the order they are given in; an object that is read
from a text has its members in ascending order of their names (`Value.ofFields`).
-/

namespace TrustBoundary.Json

/-- A JSON value. -/
inductive Value where
  | null
  | bool (b : Bool)
  | number (n : Number)
  | string (s : String)
  | array (items : List Value)
  | object (members : List (String × Value))
deriving Inhabited

namespace Value

/-- An object with ascending names. -/
def ofFields (fs : Fields Value) : Value := .object fs.toList

/-- A double, or null where there is no such number. -/
def ofFloat (x : Float) : Value :=
  match Number.ofFloat? x with
  | some n => .number n
  | none => .null

/-- A natural number of 64 bits. -/
def ofUInt64 (n : UInt64) : Value :=
  .number (.whole n.toNat (by have := n.toNat_lt; omega))

/-- A natural number of 32 bits. -/
def ofUInt32 (n : UInt32) : Value :=
  .number (.whole n.toNat (by have := n.toNat_lt; omega))

end Value

end TrustBoundary.Json
