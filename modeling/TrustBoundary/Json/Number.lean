import TrustBoundary.Decimal.Layout

/-!
# Numbers

A JSON number is a whole number that fits 64 bits, signed or unsigned, or a finite double.  The two
kinds stay apart: `1` and `1.0` are different numbers (`Number.same`).
-/

namespace TrustBoundary.Json

/-- A whole number of 64 bits, signed or unsigned, or a finite double. -/
inductive Number where
  | whole (n : Int) (inRange : -0x8000000000000000 ≤ n ∧ n < 0x10000000000000000)
  | float (x : Float) (finite : x.isFinite = true)
deriving DecidableEq

namespace Number

/-- The number of a double, if it is finite. -/
def ofFloat? (x : Float) : Option Number :=
  if h : x.isFinite = true then some (.float x h) else none

/-- The number of an integer, if it fits 64 bits. -/
def ofInt? (n : Int) : Option Number :=
  if h : -0x8000000000000000 ≤ n ∧ n < 0x10000000000000000 then some (.whole n h) else none

/-- The nearest double. -/
def toFloat : Number → Float
  | whole n _ => Float.ofInt n
  | float x _ => x

/-- Whether two numbers are of one kind and equal; the zeros of both signs are. -/
def same : Number → Number → Bool
  | whole m _, whole n _ => m == n
  | float x _, float y _ => x == y
  | _, _ => false

/-- The decimal digits of an integer, after its sign. -/
def wholeText (n : Int) : List Char :=
  if n < 0 then '-' :: Nat.toDigits 10 n.natAbs else Nat.toDigits 10 n.natAbs

/-- The text of a number. -/
def text : Number → List Char
  | whole n _ => wholeText n
  | float x _ => Decimal.ofFloat x

end Number

end TrustBoundary.Json
