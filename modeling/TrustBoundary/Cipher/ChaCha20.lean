import TrustBoundary.Bytes
import TrustBoundary.Cipher.Quad

/-!
# The stream cipher ChaCha20

A key of 32 bytes, a nonce of 12 and a block number give 64 bytes of stream.  Text and stream are
added bit by bit, so that adding the same stream once more gives the text back (`mask_mask`).
-/

namespace TrustBoundary.ChaCha20

/-- Sixteen words. -/
abbrev State := Quad (Quad UInt32)

/-- A word turned left by `n` bits. -/
@[inline] def turn (x n : UInt32) : UInt32 := x <<< n ||| x >>> (32 - n)

/-- The quarter round: four words stirred into each other. -/
def stir (q : Quad UInt32) : Quad UInt32 :=
  let a := q.a + q.b
  let d := turn (q.d ^^^ a) 16
  let c := q.c + d
  let b := turn (q.b ^^^ c) 12
  let a := a + b
  let d := turn (d ^^^ a) 8
  let c := c + d
  ⟨a, turn (b ^^^ c) 7, c, d⟩

/-- Nothing for each of the four columns. -/
def plain : Quad Unit := ⟨(), (), (), ()⟩

/-- A round on the columns and one on the diagonals. -/
def doubleRound (s : State) : State := s.weave plain plain fun _ => stir

/-- The word at a place, its lowest byte first. -/
def wordAt (bytes : List UInt8) (offset : Nat) : UInt32 :=
  (Bytes.toNat ((bytes.drop offset).take 4)).toUInt32

/-- Four words in a row. -/
def rowAt (bytes : List UInt8) (offset : Nat) : Quad UInt32 :=
  Quad.ofFn fun i => wordAt bytes (offset + 4 * i)

/-- The state of a block before its rounds. -/
def start (key nonce : List UInt8) (number : Nat) : State :=
  ⟨⟨0x61707865, 0x3320646e, 0x79622d32, 0x6b206574⟩, rowAt key 0, rowAt key 16,
    ⟨number.toUInt32, wordAt nonce 0, wordAt nonce 4, wordAt nonce 8⟩⟩

/-- The 64 bytes of stream with this block number. -/
def block (key nonce : List UInt8) (number : Nat) : List UInt8 :=
  let s := start key nonce number
  let stirred := Nat.repeat doubleRound 10 s
  let sum := s.zipWith (Quad.zipWith (· + ·)) stirred
  (Quad.ungroup sum.toList).flatMap fun w => Bytes.ofNat 4 w.toNat

/-- The first `size` bytes of stream and some more, from block 1 on. -/
def stream (key nonce : List UInt8) (size : Nat) : Array UInt8 :=
  ((List.range (size / 64 + 1)).flatMap fun i => block key nonce (i + 1)).toArray

/-- A stream added to a text. -/
def mask (stream : Array UInt8) (text : List UInt8) : List UInt8 :=
  text.mapIdx fun i b => b ^^^ stream.getD i 0

@[simp]
theorem length_mask (stream : Array UInt8) (text : List UInt8) :
    (mask stream text).length = text.length := by simp [mask]

@[simp]
theorem mask_mask (stream : Array UInt8) (text : List UInt8) :
    mask stream (mask stream text) = text := by
  simp only [mask, List.mapIdx_mapIdx]
  apply List.ext_getElem
  · exact List.length_mapIdx
  · intro i _ _
    rw [List.getElem_mapIdx, Function.comp_apply, UInt8.xor_assoc, UInt8.xor_self, UInt8.xor_zero]

end TrustBoundary.ChaCha20
