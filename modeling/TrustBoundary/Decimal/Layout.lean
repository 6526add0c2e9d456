import TrustBoundary.Decimal.Shortest

/-!
# How a double is written

`Float.text` writes a finite double with its shortest digits.  Magnitudes from `1e-5` to just
below `1e16` are written in full, with at least one digit after the point; the others have one digit
before the point and an exponent that always carries its sign.
-/

namespace TrustBoundary

/-- Which numbers are written in full. -/
structure Decimal.Layout where
  /-- The smallest exponent of a leading digit for which a number is written in full. -/
  leastPlain : Int
  /-- The largest exponent of a leading digit for which a number is written in full. -/
  mostPlain : Int

namespace Decimal

/-- From five places after the point to sixteen before it, numbers are written in full. -/
def Layout.standard : Layout := ⟨-5, 15⟩

/-- The digits with a point after the first `places` of them; zeros fill up on either side. -/
def plain (digits : List Char) (places : Int) : List Char :=
  let before := places.toNat
  if places ≤ 0 then '0' :: '.' :: (List.replicate (-places).toNat '0' ++ digits)
  else if digits.length ≤ before then
    digits ++ List.replicate (before - digits.length) '0' ++ ['.', '0']
  else digits.take before ++ '.' :: digits.drop before

/-- One digit, the others after a point, and the exponent of the first digit with its sign. -/
def scientific (digits : List Char) (exponent : Int) : List Char :=
  let sign := if exponent < 0 then '-' else '+'
  let fraction := if digits.length ≤ 1 then [] else '.' :: digits.drop 1
  digits.take 1 ++ fraction ++ 'e' :: sign :: Nat.toDigits 10 exponent.natAbs

/-- A decimal in a given layout. -/
def write (layout : Layout) (d : Decimal) : List Char :=
  let digits := Nat.toDigits 10 d.digits
  let leading := d.exponent + digits.length - 1
  if layout.leastPlain ≤ leading ∧ leading ≤ layout.mostPlain then plain digits (leading + 1)
  else scientific digits leading

/-- The text of a finite double.  Zero keeps its sign. -/
def ofFloat (x : Float) : List Char :=
  let sign := if x.toBits.toNat < 0x8000000000000000 then [] else ['-']
  let magnitude := Binary.ofFloat x
  if magnitude.significand = 0 then sign ++ ['0', '.', '0']
  else sign ++ write .standard magnitude.shortest

end Decimal

end TrustBoundary
