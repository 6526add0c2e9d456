import TrustBoundary.Bytes

/-!
# The authenticator Poly1305

A message is cut into numbers of sixteen bytes, which are the coefficients of a polynomial modulo
2¹³⁰ − 5; its value at one half of the key, and the other half added, is the tag.
-/

namespace TrustBoundary.Poly1305

/-- The prime of the arithmetic. -/
def modulus : Nat := Nat.pow 2 130 - 5

/-- The bits that the place of evaluation may have. -/
def clamp : Nat := 0x0ffffffc0ffffffc0ffffffc0fffffff

/-- The value of the polynomial at `r`; a one stands above the bytes of each coefficient. -/
def value (r : Nat) (message : List UInt8) : Nat :=
  (Bytes.pieces 15 message).foldl
    (fun sum piece => (sum + Bytes.toNat (piece ++ [1])) * r % modulus) 0

/-- The sixteen bytes that vouch for a message under a key of 32 bytes. -/
def tag (key message : List UInt8) : List UInt8 :=
  let r := Bytes.toNat (key.take 16) &&& clamp
  Bytes.ofNat 16 (value r message + Bytes.toNat (key.drop 16))

@[simp]
theorem length_tag (key message : List UInt8) : (tag key message).length = 16 :=
  Bytes.length_ofNat _ _

end TrustBoundary.Poly1305
