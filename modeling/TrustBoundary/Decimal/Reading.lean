/-!
# Reading decimal numbers

`Decimal.read?` reads a decimal number: an optional sign, digits with at most one point among them
and at least one digit, and an optional exponent.  The value is the double nearest to the number,
of two equally near ones the one with the even significand.  A number too large for a double is not
read, and neither are words for infinity and NaN.
-/

namespace TrustBoundary.Decimal

/-- The value of a run of decimal digits. -/
def digitsValue (digits : List Char) : Nat :=
  digits.foldl (fun n c => 10 * n + (c.toNat - '0'.toNat)) 0

/-- The double nearest to `± whole.fraction * 10 ^ exponent`. -/
def nearest (negative : Bool) (whole fraction : List Char) (exponent : Int) : Float :=
  let significand := digitsValue (whole ++ fraction)
  let place := exponent - fraction.length
  let magnitude := Float.ofScientific significand (place < 0) place.natAbs
  if negative then -magnitude else magnitude

/-- Splits a sign off. -/
def takeSign : List Char → Bool × List Char
  | '-' :: rest => (true, rest)
  | '+' :: rest => (false, rest)
  | cs => (false, cs)

/-- Reads what follows the mark of an exponent, to the end. -/
def readExponent? (cs : List Char) : Option Int :=
  let (negative, digits) := takeSign cs
  if digits.isEmpty || !digits.all Char.isDigit then none
  else some (if negative then -(digitsValue digits) else digitsValue digits)

/-- Reads what follows the digits of a number, to the end: nothing, or an exponent. -/
def readTail? : List Char → Option Int
  | [] => some 0
  | c :: rest => if c = 'e' ∨ c = 'E' then readExponent? rest else none

/-- Reads a decimal number to the end of the text, if it is one and if a double is near it. -/
def read? (text : List Char) : Option Float :=
  let (negative, cs) := takeSign text
  let whole := cs.takeWhile Char.isDigit
  let afterWhole := cs.dropWhile Char.isDigit
  let (fraction, tail) := match afterWhole with
    | '.' :: rest => (rest.takeWhile Char.isDigit, rest.dropWhile Char.isDigit)
    | rest => ([], rest)
  if whole.isEmpty && fraction.isEmpty then none
  else do
    let exponent ← readTail? tail
    let x := nearest negative whole fraction exponent
    if x.isFinite then some x else none

end TrustBoundary.Decimal
