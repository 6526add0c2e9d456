import TrustBoundary.Json.Fault

/-!
# Reading strings

`readString` reads a string from behind its opening quotation mark, and `skipString` steps over one
whose content does not matter.  Escapes of the form `\uXXXX` write UTF-16 units, so a character
beyond the first plane is written as two of them, the halves of a surrogate pair.
-/

namespace TrustBoundary.Json

/-- The value of a hexadecimal digit. -/
def hexValue? (c : Char) : Option Nat :=
  if c.isDigit then some (c.toNat - '0'.toNat)
  else if 'a' ≤ c ∧ c ≤ 'f' then some (c.toNat - 'a'.toNat + 10)
  else if 'A' ≤ c ∧ c ≤ 'F' then some (c.toNat - 'A'.toNat + 10)
  else none

/-- The UTF-16 unit that four hexadecimal digits write. -/
def unit? (a b c d : Char) : Option Nat := do
  return ((← hexValue? a) * 16 + (← hexValue? b)) * 256 + ((← hexValue? c) * 16 + (← hexValue? d))

/-- Whether a unit is the first half of a surrogate pair. -/
def isHighSurrogate (n : Nat) : Bool := 0xd800 ≤ n && n ≤ 0xdbff

/-- Whether a unit is the second half of a surrogate pair. -/
def isLowSurrogate (n : Nat) : Bool := 0xdc00 ≤ n && n ≤ 0xdfff

/-- The character that a surrogate pair writes. -/
def pairedChar (high low : Nat) : Char :=
  Char.ofNat ((high - 0xd800) * 1024 + (low - 0xdc00) + 0x10000)

/-- The character that a backslash and one more character write. -/
def unescaped? : Char → Option Char
  | '"' => some '"'
  | '\\' => some '\\'
  | '/' => some '/'
  | 'b' => some '\x08'
  | 'f' => some '\x0c'
  | 'n' => some '\n'
  | 'r' => some '\r'
  | 't' => some '\t'
  | _ => none

/-- The number of bytes of a text. -/
def byteCount (cs : List Char) : Nat := cs.foldl (fun n c => n + c.utf8Size) 0

/-- Stops at something that is no four hexadecimal digits: behind the four bytes that should have
been digits, or at the end of the text if there are fewer. -/
def stopInUnit {α : Type} (cs : List Char) : Except Fault α :=
  if byteCount (cs.take 4) < 4 then stop .endInString []
  else .error ⟨.invalidEscape, cs, 4⟩

/-- Reads a string up to and with its closing quotation mark.  `read` holds the characters so far,
the last one first, and `high` the first half of a surrogate pair whose second half is due. -/
def readChars (read : List Char) : Option Nat → List Char → Except Fault (List Char × List Char)
  | _, [] => stop .endInString []
  | some high, c :: rest =>
    if c = '\\' then
      match rest with
      | [] => stop .endInString []
      | 'u' :: a :: b :: c :: d :: rest =>
        match unit? a b c d with
        | none => stopInUnit (a :: b :: c :: d :: rest)
        | some n =>
          if isLowSurrogate n then readChars (pairedChar high n :: read) none rest
          else stop .loneSurrogate rest
      | 'u' :: rest => stopInUnit rest
      | rest => stopAt .unfinishedSurrogate rest
    else stopAt .unfinishedSurrogate (c :: rest)
  | none, c :: rest =>
    if c = '"' then .ok (read.reverse, rest)
    else if c = '\\' then
      match rest with
      | [] => stop .endInString []
      | 'u' :: a :: b :: c :: d :: rest =>
        match unit? a b c d with
        | none => stopInUnit (a :: b :: c :: d :: rest)
        | some n =>
          if isLowSurrogate n then stop .loneSurrogate rest
          else if isHighSurrogate n then readChars read (some n) rest
          else readChars (Char.ofNat n :: read) none rest
      | 'u' :: rest => stopInUnit rest
      | e :: rest =>
        match unescaped? e with
        | some c => readChars (c :: read) none rest
        | none => stopAt .invalidEscape (e :: rest)
    else if c.toNat < 32 then stop .controlCharacter rest
    else readChars (c :: read) none rest

/-- Reads a string from behind its opening quotation mark. -/
def readString (cs : List Char) : Except Fault (String × List Char) := do
  let (content, rest) ← readChars [] none cs
  return (String.ofList content, rest)

/-- Steps over a string from behind its opening quotation mark.  Surrogates need not be paired. -/
def skipString : List Char → Except Fault (List Char)
  | [] => stop .endInString []
  | c :: rest =>
    if c = '"' then .ok rest
    else if c = '\\' then
      match rest with
      | [] => stop .endInString []
      | 'u' :: a :: b :: c :: d :: rest =>
        match unit? a b c d with
        | none => stopInUnit (a :: b :: c :: d :: rest)
        | some _ => skipString rest
      | 'u' :: rest => stopInUnit rest
      | e :: rest =>
        match unescaped? e with
        | some _ => skipString rest
        | none => stopAt .invalidEscape (e :: rest)
    else if c.toNat < 32 then stop .controlCharacter (c :: rest)
    else skipString rest

end TrustBoundary.Json
