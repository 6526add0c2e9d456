import TrustBoundary.Bytes
import TrustBoundary.Cipher.Quad

/-!
# The hash function SipHash

Short keys of a table become numbers: one round for each eight bytes and three at the end.  The key
of the hash is zero.
-/

namespace TrustBoundary.SipHash

/-- A word turned left by `n` bits. -/
@[inline] def turn (x n : UInt64) : UInt64 := x <<< n ||| x >>> (64 - n)

/-- A round on four words. -/
def round (q : Quad UInt64) : Quad UInt64 :=
  let a := q.a + q.b
  let b := turn q.b 13 ^^^ a
  let a := turn a 32
  let c := q.c + q.d
  let d := turn q.d 16 ^^^ c
  let a := a + d
  let d := turn d 21 ^^^ a
  let c := c + b
  let b := turn b 17 ^^^ c
  ⟨a, b, turn c 32, d⟩

/-- The words before anything is hashed. -/
def start : Quad UInt64 :=
  ⟨0x736f6d6570736575, 0x646f72616e646f6d, 0x6c7967656e657261, 0x7465646279746573⟩

/-- A word hashed. -/
def absorb (q : Quad UInt64) (word : UInt64) : Quad UInt64 :=
  let q := round { q with d := q.d ^^^ word }
  { q with a := q.a ^^^ word }

/-- The number of some bytes: the lowest first, eight at a time, and their count above the last
ones.  -/
def hash (bytes : List UInt8) : UInt64 :=
  let whole := bytes.length / 8 * 8
  let words := (Bytes.pieces 7 (bytes.take whole)).map fun w => (Bytes.toNat w).toUInt64
  let last := (Bytes.toNat (bytes.drop whole)).toUInt64 ||| bytes.length.toUInt64 <<< 56
  let q := absorb (words.foldl absorb start) last
  let q := Nat.repeat round 3 { q with c := q.c ^^^ 0xff }
  q.a ^^^ q.b ^^^ q.c ^^^ q.d

end TrustBoundary.SipHash
