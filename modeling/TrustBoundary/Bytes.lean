/-!
# Bytes

Numbers as bytes, the lowest byte first, and bytes cut into pieces of one size.
-/

namespace TrustBoundary.Bytes

/-- The number whose lowest byte comes first. -/
def toNat : List UInt8 → Nat
  | [] => 0
  | b :: rest => b.toNat + 256 * toNat rest

/-- The lowest `count` bytes of a number, the lowest first. -/
def ofNat : Nat → Nat → List UInt8
  | 0, _ => []
  | count + 1, n => n.toUInt8 :: ofNat count (n / 256)

@[simp]
theorem length_ofNat (count n : Nat) : (ofNat count n).length = count := by
  induction count generalizing n with
  | zero => rfl
  | succ count ih => simp [ofNat, ih]

/-- Pieces of `size + 1` bytes, in order; the last one has what is left. -/
def pieces (size : Nat) (bytes : List UInt8) : List (List UInt8) :=
  match bytes with
  | [] => []
  | b :: rest => (b :: rest.take size) :: pieces size (rest.drop size)
termination_by bytes.length
decreasing_by simp only [List.length_drop, List.length_cons]; omega

end TrustBoundary.Bytes
