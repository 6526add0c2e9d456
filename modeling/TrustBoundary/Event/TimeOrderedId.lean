/-!
# Time-ordered ids

An id of 128 bits, unique for all practical purposes, whose text sorts by the time of its making: 48
bits of milliseconds, the version, and 74 random bits around the variant.
-/

namespace TrustBoundary

/-- The last `digits` hexadecimal digits of a number. -/
def hexText (digits n : Nat) : List Char :=
  (List.range digits).reverse.map fun i => Nat.digitChar (n / Nat.pow 16 i % 16)

/-- The id made at a time, in milliseconds, from random bits. -/
def timeOrderedId (milliseconds random : Nat) : String :=
  let high := random % 0x1000
  let low := random / 0x1000 % 0x4000000000000000
  String.ofList (hexText 8 (milliseconds / 0x10000) ++ '-' :: hexText 4 milliseconds ++ '-' ::
    hexText 4 (0x7000 + high) ++ '-' :: hexText 4 (0x8000 + low / 0x1000000000000) ++ '-' ::
    hexText 12 low)

end TrustBoundary
