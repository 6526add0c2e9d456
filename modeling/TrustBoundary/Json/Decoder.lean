import TrustBoundary.Json.Message
import TrustBoundary.Json.Quotation

/-!
# Decoders

A decoder reads the beginning of a text and gives what it read and the rest.  Lists and objects are
read by folding: `foldList` and `foldObject` take care of brackets, commas and names, and hand every
item or member to a step that reads its value.
-/

namespace TrustBoundary.Json

/-- Reads the beginning of a text. -/
abbrev Decoder (α : Type) := List Char → Except Fault (α × List Char)

/-- The blanks that may stand between the parts of a JSON text. -/
def isGap (c : Char) : Bool := c == ' ' || c == '\n' || c == '\t' || c == '\r'

/-- The text from its first character that is no blank. -/
def skipGap (cs : List Char) : List Char := cs.dropWhile isGap

namespace Decoder

variable {α β σ : Type}

/-- Changes what is read. -/
def map (f : α → β) (d : Decoder α) : Decoder β := fun cs =>
  match d cs with
  | .ok (a, rest) => .ok (f a, rest)
  | .error fault => .error fault

/-- Reads a whole text; only blanks may follow. -/
def run (d : Decoder α) (text : String) : Except Error α :=
  let cs := text.toList
  let place (fault : Fault) : Error := ⟨fault.cause, some (fault.place cs)⟩
  match d cs with
  | .error fault => .error (place fault)
  | .ok (a, rest) =>
    match skipGap rest with
    | [] => .ok a
    | rest => .error (place ⟨.trailingCharacters, rest, 1⟩)

end Decoder

/-- Reads the rest of a word. -/
def literal : List Char → List Char → Except Fault (List Char)
  | [], cs => .ok cs
  | _ :: _, [] => stop .endInValue []
  | w :: word, c :: rest => if c = w then literal word rest else stopAt .expectedLiteral (c :: rest)

/-- Reads the colon after the name of a member. -/
def colon (cs : List Char) : Except Fault (List Char) :=
  match skipGap cs with
  | [] => stop .endInObject []
  | ':' :: rest => .ok rest
  | rest => stopAt .expectedColon rest

/-- What comes next in a list or object. -/
inductive Next where
  /-- It is over; the text goes on behind it. -/
  | closed (rest : List Char)
  /-- There is one more item or member. -/
  | more (rest : List Char)

/-- Looks for the next item of a list, of which `first` says whether it would be the first. -/
def nextItem (first : Bool) (cs : List Char) : Except Fault Next :=
  match skipGap cs with
  | [] => stop .endInList []
  | ']' :: rest => .ok (.closed rest)
  | c :: rest =>
    if first then .ok (.more (c :: rest))
    else if c = ',' then
      match skipGap rest with
      | [] => stop .endInValue []
      | ']' :: rest => stopAt .trailingComma (']' :: rest)
      | rest => .ok (.more rest)
    else stopAt .expectedListCommaOrEnd (c :: rest)

/-- Looks for the next member of an object, and stands behind the opening quotation mark of its
name. -/
def nextMember (first : Bool) (cs : List Char) : Except Fault Next :=
  match skipGap cs with
  | [] => stop .endInObject []
  | '\x7d' :: rest => .ok (.closed rest)
  | c :: rest =>
    if first then
      if c = '"' then .ok (.more rest) else stopAt .nameNotString (c :: rest)
    else if c = ',' then
      match skipGap rest with
      | [] => stop .endInValue []
      | '"' :: rest => .ok (.more rest)
      | '\x7d' :: rest => stopAt .trailingComma ('\x7d' :: rest)
      | rest => stopAt .nameNotString rest
    else stopAt .expectedObjectCommaOrEnd (c :: rest)

/-- Folds over the items of a list.  The list has at most `fuel` more items. -/
def foldItems {σ : Type} (step : σ → Decoder σ) : Nat → Bool → σ → Decoder σ
  | 0, _, _, _ => stop .endInList []
  | fuel + 1, first, s, cs =>
    match nextItem first cs with
    | .error fault => .error fault
    | .ok (.closed rest) => .ok (s, rest)
    | .ok (.more rest) =>
      match step s rest with
      | .error fault => .error fault
      | .ok (s, rest) => foldItems step fuel false s rest

/-- Folds over the items of a list, from behind its opening bracket.  Every item but the first costs
a comma, so the length of the text bounds their number. -/
def foldList {σ : Type} (step : σ → Decoder σ) (s : σ) : Decoder σ := fun cs =>
  foldItems step (cs.length + 1) true s cs

/-- Folds over the members of an object.  The object has at most `fuel` more members. -/
def foldMembers {σ : Type} (step : σ → String → Decoder σ) : Nat → Bool → σ → Decoder σ
  | 0, _, _, _ => stop .endInObject []
  | fuel + 1, first, s, cs =>
    match nextMember first cs with
    | .error fault => .error fault
    | .ok (.closed rest) => .ok (s, rest)
    | .ok (.more rest) =>
      match readString rest with
      | .error fault => .error fault
      | .ok (name, rest) =>
        match step s name rest with
        | .error fault => .error fault
        | .ok (s, rest) => foldMembers step fuel false s rest

/-- Folds over the members of an object, from behind its opening brace.  The step begins behind the
name of a member. -/
def foldObject {σ : Type} (step : σ → String → Decoder σ) (s : σ) : Decoder σ := fun cs =>
  foldMembers step (cs.length + 1) true s cs

end TrustBoundary.Json
