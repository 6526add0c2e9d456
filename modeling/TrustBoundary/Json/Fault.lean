/-!
# What is wrong with a text, and where

A reader of JSON stops at the first thing that is wrong.  `Fault` keeps the cause together with the
part of the text that was left at that point; `Fault.place` turns the latter into a line and a
column of the whole text.  Lines count from one; a column counts the bytes of the line that come
before it, so the place right after the end of a line is column zero of the next.
-/

namespace TrustBoundary.Json

/-- A thing that was met where another was expected. -/
inductive Found where
  | null
  | boolean (b : Bool)
  | integer (n : Int)
  | float (x : Float)
  | text (s : String)
  | sequence
  | map
deriving DecidableEq

/-- Why a text is refused. -/
inductive Cause where
  /-- The text ends where a value is due. -/
  | endInValue
  /-- The text ends inside a list. -/
  | endInList
  /-- The text ends inside an object. -/
  | endInObject
  /-- The text ends inside a string. -/
  | endInString
  /-- No value begins here. -/
  | expectedValue
  /-- A word begins like `null`, `true` or `false` and goes on differently. -/
  | expectedLiteral
  /-- A name is not followed by a colon. -/
  | expectedColon
  /-- An item of a list is followed neither by a comma nor by the end of the list. -/
  | expectedListCommaOrEnd
  /-- A member of an object is followed neither by a comma nor by the end of the object. -/
  | expectedObjectCommaOrEnd
  /-- The name of a member is not a string. -/
  | nameNotString
  /-- A comma is followed by the end of the list or object. -/
  | trailingComma
  /-- The value is followed by more than blanks. -/
  | trailingCharacters
  /-- A backslash is followed by something that it does not escape. -/
  | invalidEscape
  /-- A string holds a control character that is not escaped. -/
  | controlCharacter
  /-- One half of a surrogate pair stands without the other. -/
  | loneSurrogate
  /-- The first half of a surrogate pair is not followed by an escape. -/
  | unfinishedSurrogate
  /-- A number is not written as numbers are. -/
  | invalidNumber
  /-- A number is too large for a double. -/
  | numberOutOfRange
  /-- Lists and objects are nested too deeply. -/
  | tooDeep
  /-- A value is of another type than the expected one. -/
  | wrongType (found : Found) (expected : String)
  /-- A value of the expected type has no place in it. -/
  | wrongValue (found : Found) (expected : String)
  /-- A list has another length than the expected one. -/
  | wrongLength (length : Nat) (expected : String)
  /-- An object lacks a member. -/
  | missingField (name : String)
  /-- An object has a member twice. -/
  | duplicateField (name : String)
  /-- A name is none of the known ones. -/
  | unknownVariant (name : String) (known : List String)
  /-- The reader of a text inside the string refuses it. -/
  | refused (reason : String)
deriving DecidableEq

/-- A place in a text. -/
structure Place where
  line : Nat
  column : Nat
deriving DecidableEq, Repr

namespace Place

/-- The place before the first character. -/
def start : Place := ⟨1, 0⟩

/-- The place after the character `c`. -/
def after (p : Place) (c : Char) : Place :=
  if c = '\n' then ⟨p.line + 1, 0⟩ else ⟨p.line, p.column + c.utf8Size⟩

/-- The place after the first `bytes` bytes of a text, which may lie inside a character. -/
def advance (p : Place) (bytes : Nat) : List Char → Place
  | [] => p
  | c :: rest =>
    if c.utf8Size ≤ bytes then (p.after c).advance (bytes - c.utf8Size) rest
    else ⟨p.line, p.column + bytes⟩

end Place

/-- What is wrong, and where: the reader stood `into` bytes into `remaining`, the end of the text.
-/
structure Fault where
  cause : Cause
  remaining : List Char
  into : Nat
deriving DecidableEq

namespace Fault

/-- The place of a fault in the whole text. -/
def place (fault : Fault) (text : List Char) : Place :=
  let read := text.take (text.length - fault.remaining.length)
  (read.foldl Place.after .start).advance fault.into fault.remaining

end Fault

/-- Stops before `remaining`. -/
def stop {α : Type} (cause : Cause) (remaining : List Char) : Except Fault α :=
  .error ⟨cause, remaining, 0⟩

/-- Stops behind the first byte of `remaining`, or at the end of the text. -/
def stopAt {α : Type} (cause : Cause) (remaining : List Char) : Except Fault α :=
  .error ⟨cause, remaining, 1⟩

end TrustBoundary.Json
