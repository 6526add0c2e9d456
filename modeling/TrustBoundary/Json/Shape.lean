import TrustBoundary.Json.Skipping
import TrustBoundary.Json.Typed

/-!
# Shapes

A shape describes a structure with named members: an object is read into a draft `δ`, member by
member and in any order, and a complete draft becomes the structure.  Members that the shape does
not know are stepped over.  A list is read too; its items are the members in the order of the shape.
-/

namespace TrustBoundary.Json

/-- One member of a shape. -/
structure Member (δ : Type) where
  /-- The name under which an object has it. -/
  name : String
  /-- Reads its value, and says how to enter it into the draft. -/
  read : Decoder (δ → δ)
  /-- Whether the draft has it already. -/
  isEntered : δ → Bool
  /-- Whether a list may end before it. -/
  isOptionalItem : Bool

/-- A structure with named members, read by way of a draft. -/
structure Shape (δ α : Type) where
  /-- The name of the structure. -/
  title : String
  members : List (Member δ)
  /-- The draft in which nothing is entered. -/
  blank : δ
  /-- The structure of a draft, or the name of the first member that it lacks. -/
  complete : δ → Except String α

/-- A member that is kept as an optional part of the draft. -/
def Member.of {δ β : Type} (name : String) (read : Decoder β) (part : δ → Option β)
    (enter : δ → β → δ) (isOptionalItem : Bool := false) : Member δ :=
  ⟨name, Decoder.map (fun b d => enter d b) read, fun d => (part d).isSome, isOptionalItem⟩

/-- The part of a draft that must have been entered. -/
def required {β : Type} (name : String) : Option β → Except String β
  | some b => .ok b
  | none => .error name

namespace Shape

variable {δ α : Type}

/-- Leaves a list or object in the middle: the blanks that follow are passed over, and the closing
bracket too if it follows. -/
def leave (closing : Char) (cs : List Char) : List Char :=
  match skipGap cs with
  | [] => []
  | c :: rest => if c = closing then rest else c :: rest

/-- Reads the member `name` of an object into the draft. -/
def enterMember (s : Shape δ α) (d : δ) (name : String) : Decoder δ := fun cs =>
  match s.members.find? (·.name = name) with
  | none => do return (d, ← skipValue (← colon cs))
  | some m =>
    if m.isEntered d then stop (.duplicateField name) (leave '\x7d' cs)
    else do
      let (enter, rest) ← m.read (← colon cs)
      return (enter d, rest)

/-- The end of a list of which all items have been read. -/
def closeList (cs : List Char) : Except Fault (List Char) :=
  match skipGap cs with
  | [] => stop .endInList []
  | ']' :: rest => .ok rest
  | ',' :: rest =>
    match skipGap rest with
    | ']' :: rest => stopAt .trailingComma (']' :: rest)
    | rest => stopAt .trailingCharacters rest
  | rest => stopAt .trailingCharacters rest

/-- Reads the members one after the other from the items of a list, `index` of which have been
read. -/
def enterItems (s : Shape δ α) : List (Member δ) → Nat → δ → Decoder δ
  | [], _, d, cs => do return (d, ← closeList cs)
  | m :: ms, index, d, cs => do
    match ← nextItem (index = 0) cs with
    | .more rest =>
      let (enter, rest) ← m.read rest
      enterItems s ms (index + 1) (enter d) rest
    | .closed rest =>
      match (m :: ms).findIdx? (!·.isOptionalItem) with
      | none => return (d, rest)
      | some i =>
        stop (.wrongLength (index + i) ("struct " ++ s.title ++ " with " ++
          toString s.members.length ++ " elements")) rest

/-- Reads a structure. -/
def decoder (s : Shape δ α) : Decoder α := fun cs => do
  let (d, rest) ← match skipGap cs with
    | '[' :: rest => s.enterItems s.members 0 s.blank rest
    | '\x7b' :: rest => foldObject s.enterMember s.blank rest
    | cs => wrongType ("struct " ++ s.title) cs
  match s.complete d with
  | .ok a => return (a, rest)
  | .error name => stop (.missingField name) rest

end Shape

end TrustBoundary.Json
