import TrustBoundary.Json.Reader

/-!
# Decoders for values of a known type

A decoder for one type reads what it expects, and where another value stands says what that is.  The
scalars of such a value are read to their end before they are told, lists and objects are not.
-/

namespace TrustBoundary.Json

/-- What a number is taken for where something else is expected. -/
def Number.found : Number → Found
  | .whole n _ => .integer n
  | .float x _ => .float x

/-- Tells that the value at the beginning of `cs` is not what is `expected`. -/
def wrongType {α : Type} (expected : String) (cs : List Char) : Except Fault α :=
  let tell (found : Found) (rest : List Char) : Except Fault α :=
    stop (.wrongType found expected) rest
  match cs with
  | [] => stop .endInValue []
  | c :: rest =>
    if c = 'n' then do tell .null (← literal ['u', 'l', 'l'] rest)
    else if c = 't' then do tell (.boolean true) (← literal ['r', 'u', 'e'] rest)
    else if c = 'f' then do tell (.boolean false) (← literal ['a', 'l', 's', 'e'] rest)
    else if c = '-' then do
      let (n, rest) ← readNumeral true rest
      tell n.found rest
    else if c.isDigit then do
      let (n, rest) ← readNumeral false (c :: rest)
      tell n.found rest
    else if c = '"' then do
      let (s, rest) ← readString rest
      tell (.text s) rest
    else if c = '[' then tell .sequence (c :: rest)
    else if c = '\x7b' then tell .map (c :: rest)
    else stopAt .expectedValue (c :: rest)

/-- Reads a string, under the name of what it stands for. -/
def stringDecoder (expected : String) : Decoder String := fun cs =>
  match skipGap cs with
  | '"' :: rest => readString rest
  | cs => wrongType expected cs

/-- Reads a string. -/
def textDecoder : Decoder String := stringDecoder "a string"

/-- Reads a truth value. -/
def boolDecoder : Decoder Bool := fun cs =>
  match skipGap cs with
  | 't' :: rest => do return (true, ← literal ['r', 'u', 'e'] rest)
  | 'f' :: rest => do return (false, ← literal ['a', 'l', 's', 'e'] rest)
  | cs => wrongType "a boolean" cs

/-- Reads a number, under the name of the type that it is for. -/
def numberDecoder (expected : String) : Decoder Number := fun cs =>
  match skipGap cs with
  | '-' :: rest => readNumeral true rest
  | cs => if cs.head?.any Char.isDigit then readNumeral false cs else wrongType expected cs

/-- Reads a double; a whole number is rounded to one. -/
def floatDecoder : Decoder Float := Decoder.map Number.toFloat (numberDecoder "f64")

/-- Reads a natural number below `bound`. -/
def naturalDecoder (bound : Nat) (expected : String) : Decoder Nat := fun cs => do
  let (n, rest) ← numberDecoder expected cs
  match n with
  | .whole n _ =>
    if 0 ≤ n ∧ n < bound then return (n.toNat, rest)
    else stop (.wrongValue (.integer n) expected) rest
  | .float x _ => stop (.wrongType (.float x) expected) rest

/-- Reads a natural number of 32 bits. -/
def uint32Decoder : Decoder UInt32 := Decoder.map Nat.toUInt32 (naturalDecoder 0x100000000 "u32")

/-- Reads a natural number of 64 bits, a size. -/
def sizeDecoder : Decoder UInt64 :=
  Decoder.map Nat.toUInt64 (naturalDecoder 0x10000000000000000 "usize")

/-- Reads null, or a value of the given type. -/
def optionalDecoder {α : Type} (inner : Decoder α) : Decoder (Option α) := fun cs =>
  match skipGap cs with
  | 'n' :: rest => do return (none, ← literal ['u', 'l', 'l'] rest)
  | cs => Decoder.map some inner cs

/-- Reads an object whose members all have values of one type.  Of two members with one name the
later stays. -/
def fieldsDecoder {α : Type} (inner : Decoder α) : Decoder (Fields α) := fun cs =>
  match skipGap cs with
  | '\x7b' :: rest =>
    foldObject (fun fs name cs => do
      let (v, rest) ← inner (← colon cs)
      return (fs.insert name v, rest)) Fields.empty rest
  | cs => wrongType "a map" cs

end TrustBoundary.Json
