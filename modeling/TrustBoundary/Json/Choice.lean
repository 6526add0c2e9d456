import TrustBoundary.Json.Typed

/-!
# Choices

A value of a type with finitely many named elements is written as the name, as a string.  A reader
also takes an object whose only member has that name and the value null.
-/

namespace TrustBoundary.Json

variable {α : Type}

/-- The element with the given name; `rest` follows the name in the text. -/
def chosen (named : List (String × α)) (name : String) (rest : List Char) : Except Fault α :=
  match Fields.lookup name named with
  | some a => .ok a
  | none => stop (.unknownVariant name (named.map (·.1))) rest

/-- Reads null where nothing else has a meaning. -/
def unitDecoder : Decoder Unit := fun cs =>
  match skipGap cs with
  | 'n' :: rest => do return ((), ← literal ['u', 'l', 'l'] rest)
  | cs => wrongType "unit" cs

/-- Reads one of the named elements. -/
def choiceDecoder (named : List (String × α)) : Decoder α := fun cs =>
  match skipGap cs with
  | [] => stop .endInValue []
  | '"' :: rest => do
    let (name, rest) ← readString rest
    return (← chosen named name rest, rest)
  | '\x7b' :: rest => do
    match ← nextMember true rest with
    | .closed rest => stop .expectedValue rest
    | .more rest =>
      let (name, rest) ← readString rest
      let a ← chosen named name rest
      let ((), rest) ← unitDecoder (← colon rest)
      match skipGap rest with
      | [] => stop .endInObject []
      | '\x7d' :: rest => return (a, rest)
      | rest => stop .expectedValue rest
  | cs => stopAt .expectedValue cs

/-- What a value is taken for where something else is expected. -/
def Value.found : Value → Found
  | .null => .null
  | .bool b => .boolean b
  | .number n => n.found
  | .string s => .text s
  | .array _ => .sequence
  | .object _ => .map

/-- One of the named elements, from a value instead of a text. -/
def chooseFrom (named : List (String × α)) (v : Value) : Except Error α :=
  let choose (name : String) : Except Error α :=
    match Fields.lookup name named with
    | some a => .ok a
    | none => .error ⟨.unknownVariant name (named.map (·.1)), none⟩
  match v with
  | .string name => choose name
  | .object [(name, inner)] => do
    let a ← choose name
    match inner with
    | .null => return a
    | inner => .error ⟨.wrongType inner.found "unit", none⟩
  | .object _ => .error ⟨.wrongValue .map "map with a single key", none⟩
  | v => .error ⟨.wrongType v.found "string or map", none⟩

end TrustBoundary.Json
