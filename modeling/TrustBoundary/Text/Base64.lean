import TrustBoundary.Text.Utf8

/-!
# Base64

Bytes as text: three bytes become four symbols of six bits each.  At the end one or two bytes become
two or three symbols, filled up with zero bits, and `=` fills the group.  `decode` takes only what
`encode` gives, and otherwise says what is wrong with it.
-/

namespace TrustBoundary.Base64

/-- The symbol of six bits, as a byte. -/
def symbol (n : UInt8) : UInt8 :=
  if n < 26 then 65 + n
  else if n < 52 then 71 + n
  else if n < 62 then n - 4
  else if n = 62 then 43
  else 47

/-- The six bits of a symbol. -/
def bits? (s : UInt8) : Option UInt8 :=
  if 65 ≤ s ∧ s ≤ 90 then some (s - 65)
  else if 97 ≤ s ∧ s ≤ 122 then some (s - 71)
  else if 48 ≤ s ∧ s ≤ 57 then some (s + 4)
  else if s = 43 then some 62
  else if s = 47 then some 63
  else none

/-- The byte that fills the last group, `=`. -/
def filler : UInt8 := 61

/-- The symbols of some bytes. -/
def encode : List UInt8 → List UInt8
  | a :: b :: c :: rest =>
    symbol (a / 4) :: symbol (a % 4 * 16 + b / 16) :: symbol (b % 16 * 4 + c / 64) ::
      symbol (c % 64) :: encode rest
  | [a, b] =>
    [symbol (a / 4), symbol (a % 4 * 16 + b / 16), symbol (b % 16 * 4), filler]
  | [a] => [symbol (a / 4), symbol (a % 4 * 16), filler, filler]
  | [] => []

/-- The text of some bytes. -/
def encodeText (bytes : List UInt8) : String :=
  String.ofList ((encode bytes).map fun s => Char.ofNat s.toNat)

/-- What is wrong with a text. -/
inductive Error where
  /-- The byte at this place is no symbol. -/
  | invalidSymbol (offset : Nat) (byte : UInt8)
  /-- The last symbol has bits that belong to no byte. -/
  | invalidLastSymbol (offset : Nat) (byte : UInt8)
  /-- A symbol stands alone in its group. -/
  | invalidLength (length : Nat)
  /-- The last group is not filled up. -/
  | invalidFill
deriving DecidableEq

/-- The wording of an error. -/
def Error.message : Error → String
  | invalidSymbol offset byte =>
    "Invalid symbol " ++ toString byte.toNat ++ ", offset " ++ toString offset ++ "."
  | invalidLastSymbol offset byte =>
    "Invalid last symbol " ++ toString byte.toNat ++ ", offset " ++ toString offset ++ "."
  | invalidLength length => "Invalid input length: " ++ toString length
  | invalidFill => "Invalid padding"

/-- The six bits of the symbol at a place. -/
def bitsAt (offset : Nat) (s : UInt8) : Except Error UInt8 :=
  match bits? s with
  | some n => .ok n
  | none => .error (.invalidSymbol offset s)

/-- The bytes of a last group of four that stands at `offset`. -/
def decodeLast (offset : Nat) (s t u v : UInt8) : Except Error (List UInt8) := do
  let a ← bitsAt offset s
  let b ← bitsAt (offset + 1) t
  if u = filler then
    if v ≠ filler then .error (.invalidSymbol (offset + 2) filler)
    else if b % 16 = 0 then .ok [a * 4 + b / 16]
    else .error (.invalidLastSymbol (offset + 1) t)
  else do
    let c ← bitsAt (offset + 2) u
    if v = filler then
      if c % 4 = 0 then .ok [a * 4 + b / 16, b % 16 * 16 + c / 4]
      else .error (.invalidLastSymbol (offset + 2) u)
    else do
      let d ← bitsAt (offset + 3) v
      .ok [a * 4 + b / 16, b % 16 * 16 + c / 4, c % 4 * 64 + d]

/-- The bytes of a text that stands at `offset`, group by group. -/
def decodeGroups (offset : Nat) : List UInt8 → Except Error (List UInt8)
  | [] => .ok []
  | [s] => do
    let _ ← bitsAt offset s
    .error (.invalidLength (offset + 1))
  | [s, t] => do
    let _ ← bitsAt offset s
    let _ ← bitsAt (offset + 1) t
    .error .invalidFill
  | [s, t, u] => do
    let _ ← bitsAt offset s
    let _ ← bitsAt (offset + 1) t
    if u = filler then .error .invalidFill
    else do
      let _ ← bitsAt (offset + 2) u
      .error .invalidFill
  | [s, t, u, v] => decodeLast offset s t u v
  | s :: t :: u :: v :: rest => do
    let a ← bitsAt offset s
    let b ← bitsAt (offset + 1) t
    let c ← bitsAt (offset + 2) u
    let d ← bitsAt (offset + 3) v
    let bytes ← decodeGroups (offset + 4) rest
    .ok ((a * 4 + b / 16) :: (b % 16 * 16 + c / 4) :: (c % 4 * 64 + d) :: bytes)

/-- The bytes of a text.  A symbol too many at its end is told before anything else. -/
def decode (symbols : List UInt8) : Except Error (List UInt8) :=
  match (if symbols.length % 4 = 1 then symbols.getLast? else none) with
  | some s =>
    if s ≠ filler ∧ bits? s = none then .error (.invalidSymbol (symbols.length - 1) s)
    else decodeGroups 0 symbols
  | none => decodeGroups 0 symbols

/-- The bytes of a text. -/
def decodeText (text : String) : Except Error (List UInt8) := decode (Text.utf8 text)

end TrustBoundary.Base64
