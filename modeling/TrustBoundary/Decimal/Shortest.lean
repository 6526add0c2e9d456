/-!
# The shortest decimal that reads back

A double other than zero, the infinities and NaN is a significand times a power of two
(`Binary.ofFloat`).  The reals that round to it form an interval around it, which contains its
ends exactly when the significand is even.  `Binary.shortest` is a decimal with the fewest digits
inside that interval, and of the decimals with so few digits the one nearest to the double.

For a given number of digits the decimals form a grid.  If a point of the grid lies in the interval,
so does one of the two grid points next to the double, so these two are all that is looked at.
-/

namespace TrustBoundary

/-- The number `digits * 10 ^ exponent`. -/
structure Decimal where
  digits : Nat
  exponent : Int
deriving DecidableEq, Repr

namespace Decimal

/-- The same number without zeros at the end of its digits; `fuel` bounds how many are taken off. -/
def dropZeros : Nat → Decimal → Decimal
  | 0, d => d
  | fuel + 1, d =>
    if d.digits ≠ 0 ∧ d.digits % 10 = 0 then dropZeros fuel ⟨d.digits / 10, d.exponent + 1⟩ else d

end Decimal

/-- The positive number `significand * 2 ^ exponent`, a double.  `isPowerOfTwo` says that the double
below is only half as far away as the double above. -/
structure Binary where
  significand : Nat
  exponent : Int
  isPowerOfTwo : Bool
deriving DecidableEq, Repr

namespace Binary

/-- The magnitude of a finite double, from its bits. -/
def ofFloat (x : Float) : Binary :=
  let bits := x.toBits.toNat
  let fraction := bits % 0x10000000000000
  let biased := bits / 0x10000000000000 % 0x800
  if biased = 0 then ⟨fraction, -1074, false⟩
  else ⟨0x10000000000000 + fraction, Int.ofNat biased - 1075, fraction == 0 && 1 < biased⟩

/-- A quarter of the distance to the double above, as a fraction `num / den`: all of
`significand`, the interval and the decimals become whole numbers of it. -/
def quarter (b : Binary) : Nat × Nat :=
  if b.exponent ≥ 2 then (Nat.pow 2 (b.exponent - 2).toNat, 1)
  else (1, Nat.pow 2 (2 - b.exponent).toNat)

/-- The exponent of the leading decimal digit of `num / den`. -/
def leadingExponent (num den : Nat) : Int :=
  if den ≤ num then ((Nat.toDigits 10 (num / den)).length : Int) - 1
  else -((Nat.toDigits 10 ((den - 1) / num)).length : Int)

/-- Whether `num / den` rounds to the double, both in units of a quarter of the distance to the
double above. -/
def contains (b : Binary) (num den : Nat) : Bool :=
  let low := (4 * b.significand - if b.isPowerOfTwo then 1 else 2) * den
  let high := (4 * b.significand + 2) * den
  if b.significand % 2 = 0 then low ≤ num && num ≤ high else low < num && num < high

/-- The better of the two decimals with last digit at `10 ^ place` next to the double, if one of
them rounds to it: the nearer one, and of two equally near ones that with the even last digit. -/
def nearestOnGrid? (b : Binary) (place : Int) : Option Decimal :=
  let (unitNum, unitDen) := b.quarter
  -- one step of the grid is `stepNum / stepDen` quarters
  let stepNum := Nat.pow 10 place.toNat * unitDen
  let stepDen := Nat.pow 10 (-place).toNat * unitNum
  let below := 4 * b.significand * stepDen / stepNum
  let above := below + 1
  let belowFits := b.contains (below * stepNum) stepDen
  let aboveFits := b.contains (above * stepNum) stepDen
  let belowGap := 4 * b.significand * stepDen - below * stepNum
  let aboveGap := above * stepNum - 4 * b.significand * stepDen
  let belowBetter := belowGap < aboveGap || (belowGap == aboveGap && below % 2 == 0)
  if belowFits && (belowBetter || !aboveFits) then some ⟨below, place⟩
  else if aboveFits then some ⟨above, place⟩
  else none

/-- Tries finer and finer grids, beginning with the one whose last place is `place`. -/
def shortestFrom (b : Binary) : Nat → Int → Decimal
  | 0, _ => ⟨b.significand, b.exponent⟩
  | fuel + 1, place => (b.nearestOnGrid? place).getD (shortestFrom b fuel (place - 1))

/-- The decimal with the fewest digits that rounds to the double, and the nearest of those.
Seventeen digits are always enough. -/
def shortest (b : Binary) : Decimal :=
  let (unitNum, unitDen) := b.quarter
  let place := leadingExponent (4 * b.significand * unitNum) unitDen
  (b.shortestFrom 18 place).dropZeros 18

end Binary

end TrustBoundary
