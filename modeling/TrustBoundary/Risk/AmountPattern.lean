/-!
# Amounts in any text

`scanAmount?` looks in a text for an amount that is written like a member of an object: `"amount"`,
a colon, and a numeral.  The numeral is in quotation marks and fills them but for blanks, or it is
bare and ends at a blank, a comma, a closing bracket or the end of the text.  Blanks may stand
around the colon.  Of several amounts the first counts.

A numeral is always taken at its full length (`takeNumeral?`), so no part of a longer numeral, or of
a number written in another way, is ever taken for an amount.
-/

namespace TrustBoundary

/-- The blanks of ASCII. -/
def isAsciiBlank (c : Char) : Bool :=
  c == ' ' || ('\t' ≤ c && c ≤ '\r')

/-- Splits the digits off that a text begins with, if it begins with one. -/
def takeDigits? (cs : List Char) : Option (List Char × List Char) :=
  match cs.takeWhile Char.isDigit with
  | [] => none
  | digits => some (digits, cs.dropWhile Char.isDigit)

/-- Splits a fraction off, or nothing. -/
def takeFraction (cs : List Char) : List Char × List Char :=
  match cs with
  | '.' :: rest =>
    match takeDigits? rest with
    | some (digits, rest) => ('.' :: digits, rest)
    | none => ([], cs)
  | cs => ([], cs)

/-- Splits the sign of an exponent off, or nothing. -/
def takeExponentSign (cs : List Char) : List Char × List Char :=
  match cs with
  | '+' :: rest => (['+'], rest)
  | '-' :: rest => (['-'], rest)
  | cs => ([], cs)

/-- Splits an exponent off, or nothing. -/
def takeExponent (cs : List Char) : List Char × List Char :=
  match cs with
  | c :: rest =>
    if c = 'e' ∨ c = 'E' then
      let (sign, rest) := takeExponentSign rest
      match takeDigits? rest with
      | some (digits, rest) => (c :: (sign ++ digits), rest)
      | none => ([], cs)
    else ([], cs)
  | [] => ([], [])

/-- Splits the sign of a numeral off, or nothing. -/
def takeMinus (cs : List Char) : List Char × List Char :=
  match cs with
  | '-' :: rest => (['-'], rest)
  | cs => ([], cs)

/-- Splits off the numeral that a text begins with, as long as it gets: a minus sign if there is
one, digits, and a fraction and an exponent if there are any. -/
def takeNumeral? (cs : List Char) : Option (List Char × List Char) := do
  let (sign, cs) := takeMinus cs
  let (digits, cs) ← takeDigits? cs
  let (fraction, cs) := takeFraction cs
  let (exponent, cs) := takeExponent cs
  return (sign ++ digits ++ fraction ++ exponent, cs)

/-- Whether a bare numeral may end before `cs`. -/
def endsBareNumeral : List Char → Bool
  | [] => true
  | c :: _ => isAsciiBlank c || c == ',' || c == '\x7d' || c == ']'

/-- The text behind the beginning `start`, if it begins so. -/
def behind? : List Char → List Char → Option (List Char)
  | [], cs => some cs
  | _ :: _, [] => none
  | s :: start, c :: cs => if s = c then behind? start cs else none

/-- The name of the field that holds the amount, in quotation marks. -/
def amountKey : List Char := ['"', 'a', 'm', 'o', 'u', 'n', 't', '"']

/-- The numeral of an amount that is written as a member, if the text begins with one. -/
def amountAt? (cs : List Char) : Option (List Char) := do
  let cs ← behind? amountKey cs
  let cs ← behind? [':'] (cs.dropWhile isAsciiBlank)
  match cs.dropWhile isAsciiBlank with
  | '"' :: rest =>
    let (numeral, rest) ← takeNumeral? (rest.dropWhile isAsciiBlank)
    match rest.dropWhile isAsciiBlank with
    | '"' :: _ => some numeral
    | _ => none
  | cs =>
    let (numeral, rest) ← takeNumeral? cs
    if endsBareNumeral rest then some numeral else none

/-- The numeral of the first amount in a text. -/
def scanAmount? : List Char → Option (List Char)
  | [] => none
  | c :: cs =>
    match amountAt? (c :: cs) with
    | some numeral => some numeral
    | none => scanAmount? cs

end TrustBoundary
