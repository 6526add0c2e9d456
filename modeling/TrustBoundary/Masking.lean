import TrustBoundary.Record.Basic
import TrustBoundary.Text.Lowercase

/-!
# Masking

Masking replaces the values of sensitive fields for an audience that must not see them, and there is
no way back.  A field is sensitive if its name, in lower case, has one of `sensitiveMarkers` in it.
What is left of a value is the mask token and its last four characters, or the token alone if there
are no more than four.

The rule is there for records (`Record.mask`) and for JSON objects (`maskObject`).
-/

namespace TrustBoundary

open Json

/-- What makes a field name sensitive. -/
def sensitiveMarkers : List String := ["email", "phone", "ssn", "bvn", "card"]

/-- Whether a piece of `cs` is `marker`. -/
def hasPiece (marker : List Char) : List Char → Bool
  | [] => marker.isEmpty
  | c :: cs => marker.isPrefixOf (c :: cs) || hasPiece marker cs

/-- Whether fields of this name are sensitive. -/
def isSensitive (name : String) : Bool :=
  let lower := Text.lower name.toList
  sensitiveMarkers.any fun marker => hasPiece marker.toList lower

/-- What stands for the hidden part of a value. -/
def maskToken : String := "****"

/-- How many characters at the end of a value stay visible. -/
def visibleSuffix : Nat := 4

/-- The masked form of a value: its last four characters behind the token, or the token alone. -/
def mask (value : String) : String :=
  let cs := value.toList
  if cs.length ≤ visibleSuffix then maskToken
  else maskToken ++ String.ofList (cs.drop (cs.length - visibleSuffix))

namespace Record

/-- Whether masking replaces the value of a field. -/
def isMasked (name : String) (v : Scalar) : Bool := !v.isNull && isSensitive name

/-- The record with every sensitive value masked. -/
def mask (r : Record) : Record :=
  r.map fun name v => if isMasked name v then .text (TrustBoundary.mask v.display) else v

/-- How many values masking replaces. -/
def maskCount (r : Record) : Nat := r.toList.countP fun e => isMasked e.1 e.2

end Record

namespace Json

/-- Whether a JSON value is null. -/
def Value.isNull : Value → Bool
  | .null => true
  | _ => false

/-- What a JSON value shows: a string its content, anything else its text. -/
def Value.display : Value → String
  | .string s => s
  | v => v.text

/-- Whether masking replaces the value of a member. -/
def isMaskedMember (name : String) (v : Value) : Bool := !v.isNull && isSensitive name

/-- The object with every sensitive value masked; what is nested deeper stays. -/
def maskObject (members : Fields Value) : Fields Value :=
  members.map fun name v => if isMaskedMember name v then .string (mask v.display) else v

/-- How many members masking replaces. -/
def maskObjectCount (members : Fields Value) : Nat :=
  members.toList.countP fun e => isMaskedMember e.1 e.2

end Json

end TrustBoundary
