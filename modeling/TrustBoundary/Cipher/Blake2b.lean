import TrustBoundary.Bytes
import TrustBoundary.Cipher.Quad

/-!
# The hash function BLAKE2b

Pieces of 128 bytes are stirred one after the other into eight words, whose first bytes are the
hash.  No key is taken.
-/

namespace TrustBoundary.Blake2b

/-- A word turned right by `n` bits. -/
@[inline] def turn (x n : UInt64) : UInt64 := x >>> n ||| x <<< (64 - n)

/-- The eight words in two rows. -/
structure Chain where
  upper : Quad UInt64
  lower : Quad UInt64

/-- The words a hash starts from: the fractions of the square roots of the first eight primes. -/
def initial : Chain :=
  ⟨⟨0x6a09e667f3bcc908, 0xbb67ae8584caa73b, 0x3c6ef372fe94f82b, 0xa54ff53a5f1d36f1⟩,
    ⟨0x510e527fade682d1, 0x9b05688c2b3e6c1f, 0x1f83d9abfb41bd6b, 0x5be0cd19137e2179⟩⟩

/-- In which order each of the twelve rounds takes the words of a piece. -/
def orders : List (Array Nat) := [
  #[0, 1, 2, 3, 4, 5, 6, 7, 8, 9, 10, 11, 12, 13, 14, 15],
  #[14, 10, 4, 8, 9, 15, 13, 6, 1, 12, 0, 2, 11, 7, 5, 3],
  #[11, 8, 12, 0, 5, 2, 15, 13, 10, 14, 3, 6, 7, 1, 9, 4],
  #[7, 9, 3, 1, 13, 12, 11, 14, 2, 6, 5, 10, 4, 0, 15, 8],
  #[9, 0, 5, 7, 2, 4, 10, 15, 14, 1, 11, 12, 6, 8, 3, 13],
  #[2, 12, 6, 10, 0, 11, 8, 3, 4, 13, 7, 5, 15, 14, 1, 9],
  #[12, 5, 1, 15, 14, 13, 4, 10, 0, 7, 6, 3, 9, 2, 8, 11],
  #[13, 11, 7, 14, 12, 1, 3, 9, 5, 0, 15, 4, 8, 6, 2, 10],
  #[6, 15, 14, 9, 11, 3, 0, 8, 12, 2, 13, 7, 1, 4, 10, 5],
  #[10, 2, 8, 4, 7, 6, 1, 5, 15, 11, 9, 14, 3, 12, 13, 0],
  #[0, 1, 2, 3, 4, 5, 6, 7, 8, 9, 10, 11, 12, 13, 14, 15],
  #[14, 10, 4, 8, 9, 15, 13, 6, 1, 12, 0, 2, 11, 7, 5, 3]]

/-- Two words of a piece stirred into four words. -/
def stir (words : UInt64 × UInt64) (q : Quad UInt64) : Quad UInt64 :=
  let a := q.a + q.b + words.1
  let d := turn (q.d ^^^ a) 32
  let c := q.c + d
  let b := turn (q.b ^^^ c) 24
  let a := a + b + words.2
  let d := turn (d ^^^ a) 16
  let c := c + d
  ⟨a, turn (b ^^^ c) 63, c, d⟩

/-- A round: two words of the piece for each column and each diagonal. -/
def round (words : Array UInt64) (s : Quad (Quad UInt64)) (order : Array Nat) :
    Quad (Quad UInt64) :=
  let word (i : Nat) : UInt64 := words.getD (order.getD i 0) 0
  let pair (i : Nat) : UInt64 × UInt64 := (word (2 * i), word (2 * i + 1))
  s.weave (Quad.ofFn pair) (Quad.ofFn fun i => pair (4 + i)) stir

/-- The words of a piece; zeros stand where it has ended. -/
def wordsOf (piece : List UInt8) : Array UInt64 :=
  ((List.range 16).map fun i => (Bytes.toNat ((piece.drop (8 * i)).take 8)).toUInt64).toArray

/-- A piece stirred into the chain.  `count` is the number of bytes up to its end. -/
def compress (h : Chain) (count : Nat) (last : Bool) (piece : List UInt8) : Chain :=
  let flag : UInt64 := if last then 0xffffffffffffffff else 0
  let ending : Quad UInt64 := ⟨count.toUInt64, (count >>> 64).toUInt64, flag, 0⟩
  let s := orders.foldl (round (wordsOf piece))
    ⟨h.upper, h.lower, initial.upper, initial.lower.zipWith (· ^^^ ·) ending⟩
  let join (x y z : Quad UInt64) : Quad UInt64 := (x.zipWith (· ^^^ ·) y).zipWith (· ^^^ ·) z
  ⟨join h.upper s.a s.c, join h.lower s.b s.d⟩

/-- The pieces stirred into the chain, after `count` bytes before them. -/
def absorb (h : Chain) (count : Nat) : List (List UInt8) → Chain
  | [] => compress h count true []
  | [last] => compress h (count + last.length) true last
  | piece :: rest =>
    let count := count + piece.length
    absorb (compress h count false piece) count rest

/-- The hash of `size` bytes, at most 64. -/
def hash (size : Nat) (bytes : List UInt8) : List UInt8 :=
  let first := { initial.upper with a := initial.upper.a ^^^ 0x01010000 ^^^ size.toUInt64 }
  let h := absorb { initial with upper := first } 0 (Bytes.pieces 127 bytes)
  ((h.upper.toList ++ h.lower.toList).flatMap fun w => Bytes.ofNat 8 w.toNat).take size

/-- What follows a link of a long hash: half of each link is written, of the last one everything. -/
def links (link : List UInt8) (size : Nat) : List UInt8 :=
  if size ≤ 64 then hash size link
  else
    let next := hash 64 link
    next.take 32 ++ links next (size - 32)
termination_by size

/-- The hash of any size: of the size and the bytes, and where that is too short a chain of hashes.
-/
def longHash (size : Nat) (bytes : List UInt8) : List UInt8 :=
  let sized := Bytes.ofNat 4 size ++ bytes
  if size ≤ 64 then hash size sized
  else
    let link := hash 64 sized
    link.take 32 ++ links link (size - 32)

/-! ### Sizes -/

theorem length_hash {size : Nat} (h : size ≤ 64) (bytes : List UInt8) :
    (hash size bytes).length = size := by
  simp [hash, Quad.toList, h]

theorem length_longHash {size : Nat} (h : size ≤ 64) (bytes : List UInt8) :
    (longHash size bytes).length = size := by
  simp [longHash, h, length_hash h]

end TrustBoundary.Blake2b
