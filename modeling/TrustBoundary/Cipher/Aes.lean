import TrustBoundary.Cipher.Quad

/-!
# The block cipher AES with keys of 128 bits

A block is a square of sixteen bytes, held column by column.  A round replaces every byte by
another, slants the rows, mixes each column and adds the key of the round; the last round does not
mix.  `decrypt` takes the same rounds back from the last to the first.
-/

namespace TrustBoundary.Aes

/-- Four bytes. -/
abbrev Column := Quad UInt8

/-- Sixteen bytes, column by column. -/
abbrev Block := Quad Column

/-- The block of the first sixteen bytes, with zeros where they have ended. -/
def Block.ofBytes (bytes : List UInt8) : Block :=
  Quad.ofFn fun i => Quad.ofFn fun j => bytes.getD (4 * i + j) 0

/-- The sixteen bytes of a block. -/
def Block.toBytes (b : Block) : List UInt8 := Quad.ungroup b.toList

/-! ### Bytes replaced by bytes -/

set_option maxRecDepth 2000 in
/-- What each byte is replaced by. -/
def substitutes : Vector UInt8 256 := #v[
    0x63, 0x7c, 0x77, 0x7b, 0xf2, 0x6b, 0x6f, 0xc5, 0x30, 0x01, 0x67, 0x2b, 0xfe, 0xd7, 0xab, 0x76,
    0xca, 0x82, 0xc9, 0x7d, 0xfa, 0x59, 0x47, 0xf0, 0xad, 0xd4, 0xa2, 0xaf, 0x9c, 0xa4, 0x72, 0xc0,
    0xb7, 0xfd, 0x93, 0x26, 0x36, 0x3f, 0xf7, 0xcc, 0x34, 0xa5, 0xe5, 0xf1, 0x71, 0xd8, 0x31, 0x15,
    0x04, 0xc7, 0x23, 0xc3, 0x18, 0x96, 0x05, 0x9a, 0x07, 0x12, 0x80, 0xe2, 0xeb, 0x27, 0xb2, 0x75,
    0x09, 0x83, 0x2c, 0x1a, 0x1b, 0x6e, 0x5a, 0xa0, 0x52, 0x3b, 0xd6, 0xb3, 0x29, 0xe3, 0x2f, 0x84,
    0x53, 0xd1, 0x00, 0xed, 0x20, 0xfc, 0xb1, 0x5b, 0x6a, 0xcb, 0xbe, 0x39, 0x4a, 0x4c, 0x58, 0xcf,
    0xd0, 0xef, 0xaa, 0xfb, 0x43, 0x4d, 0x33, 0x85, 0x45, 0xf9, 0x02, 0x7f, 0x50, 0x3c, 0x9f, 0xa8,
    0x51, 0xa3, 0x40, 0x8f, 0x92, 0x9d, 0x38, 0xf5, 0xbc, 0xb6, 0xda, 0x21, 0x10, 0xff, 0xf3, 0xd2,
    0xcd, 0x0c, 0x13, 0xec, 0x5f, 0x97, 0x44, 0x17, 0xc4, 0xa7, 0x7e, 0x3d, 0x64, 0x5d, 0x19, 0x73,
    0x60, 0x81, 0x4f, 0xdc, 0x22, 0x2a, 0x90, 0x88, 0x46, 0xee, 0xb8, 0x14, 0xde, 0x5e, 0x0b, 0xdb,
    0xe0, 0x32, 0x3a, 0x0a, 0x49, 0x06, 0x24, 0x5c, 0xc2, 0xd3, 0xac, 0x62, 0x91, 0x95, 0xe4, 0x79,
    0xe7, 0xc8, 0x37, 0x6d, 0x8d, 0xd5, 0x4e, 0xa9, 0x6c, 0x56, 0xf4, 0xea, 0x65, 0x7a, 0xae, 0x08,
    0xba, 0x78, 0x25, 0x2e, 0x1c, 0xa6, 0xb4, 0xc6, 0xe8, 0xdd, 0x74, 0x1f, 0x4b, 0xbd, 0x8b, 0x8a,
    0x70, 0x3e, 0xb5, 0x66, 0x48, 0x03, 0xf6, 0x0e, 0x61, 0x35, 0x57, 0xb9, 0x86, 0xc1, 0x1d, 0x9e,
    0xe1, 0xf8, 0x98, 0x11, 0x69, 0xd9, 0x8e, 0x94, 0x9b, 0x1e, 0x87, 0xe9, 0xce, 0x55, 0x28, 0xdf,
    0x8c, 0xa1, 0x89, 0x0d, 0xbf, 0xe6, 0x42, 0x68, 0x41, 0x99, 0x2d, 0x0f, 0xb0, 0x54, 0xbb, 0x16]

set_option maxRecDepth 2000 in
/-- What each byte is the substitute of. -/
def preimages : Vector UInt8 256 := #v[
    0x52, 0x09, 0x6a, 0xd5, 0x30, 0x36, 0xa5, 0x38, 0xbf, 0x40, 0xa3, 0x9e, 0x81, 0xf3, 0xd7, 0xfb,
    0x7c, 0xe3, 0x39, 0x82, 0x9b, 0x2f, 0xff, 0x87, 0x34, 0x8e, 0x43, 0x44, 0xc4, 0xde, 0xe9, 0xcb,
    0x54, 0x7b, 0x94, 0x32, 0xa6, 0xc2, 0x23, 0x3d, 0xee, 0x4c, 0x95, 0x0b, 0x42, 0xfa, 0xc3, 0x4e,
    0x08, 0x2e, 0xa1, 0x66, 0x28, 0xd9, 0x24, 0xb2, 0x76, 0x5b, 0xa2, 0x49, 0x6d, 0x8b, 0xd1, 0x25,
    0x72, 0xf8, 0xf6, 0x64, 0x86, 0x68, 0x98, 0x16, 0xd4, 0xa4, 0x5c, 0xcc, 0x5d, 0x65, 0xb6, 0x92,
    0x6c, 0x70, 0x48, 0x50, 0xfd, 0xed, 0xb9, 0xda, 0x5e, 0x15, 0x46, 0x57, 0xa7, 0x8d, 0x9d, 0x84,
    0x90, 0xd8, 0xab, 0x00, 0x8c, 0xbc, 0xd3, 0x0a, 0xf7, 0xe4, 0x58, 0x05, 0xb8, 0xb3, 0x45, 0x06,
    0xd0, 0x2c, 0x1e, 0x8f, 0xca, 0x3f, 0x0f, 0x02, 0xc1, 0xaf, 0xbd, 0x03, 0x01, 0x13, 0x8a, 0x6b,
    0x3a, 0x91, 0x11, 0x41, 0x4f, 0x67, 0xdc, 0xea, 0x97, 0xf2, 0xcf, 0xce, 0xf0, 0xb4, 0xe6, 0x73,
    0x96, 0xac, 0x74, 0x22, 0xe7, 0xad, 0x35, 0x85, 0xe2, 0xf9, 0x37, 0xe8, 0x1c, 0x75, 0xdf, 0x6e,
    0x47, 0xf1, 0x1a, 0x71, 0x1d, 0x29, 0xc5, 0x89, 0x6f, 0xb7, 0x62, 0x0e, 0xaa, 0x18, 0xbe, 0x1b,
    0xfc, 0x56, 0x3e, 0x4b, 0xc6, 0xd2, 0x79, 0x20, 0x9a, 0xdb, 0xc0, 0xfe, 0x78, 0xcd, 0x5a, 0xf4,
    0x1f, 0xdd, 0xa8, 0x33, 0x88, 0x07, 0xc7, 0x31, 0xb1, 0x12, 0x10, 0x59, 0x27, 0x80, 0xec, 0x5f,
    0x60, 0x51, 0x7f, 0xa9, 0x19, 0xb5, 0x4a, 0x0d, 0x2d, 0xe5, 0x7a, 0x9f, 0x93, 0xc9, 0x9c, 0xef,
    0xa0, 0xe0, 0x3b, 0x4d, 0xae, 0x2a, 0xf5, 0xb0, 0xc8, 0xeb, 0xbb, 0x3c, 0x83, 0x53, 0x99, 0x61,
    0x17, 0x2b, 0x04, 0x7e, 0xba, 0x77, 0xd6, 0x26, 0xe1, 0x69, 0x14, 0x63, 0x55, 0x21, 0x0c, 0x7d]

/-- The byte that replaces a byte. -/
def substitute (b : UInt8) : UInt8 := substitutes.get b.toFin

/-- The byte that a byte replaces. -/
def restore (b : UInt8) : UInt8 := preimages.get b.toFin

/-! ### Columns mixed -/

/-- Twice a byte, as a polynomial over two elements modulo x⁸ + x⁴ + x³ + x + 1. -/
def double (b : UInt8) : UInt8 := (b <<< 1) ^^^ (0x1b : UInt8) * (b >>> 7)

/-- The column times 3x³ + x² + x + 2: every byte doubled, the next one tripled, the other two as
they are. -/
def mix (q : Column) : Column :=
  let sum := q.a ^^^ q.b ^^^ q.c ^^^ q.d
  ⟨q.a ^^^ sum ^^^ double (q.a ^^^ q.b), q.b ^^^ sum ^^^ double (q.b ^^^ q.c),
    q.c ^^^ sum ^^^ double (q.c ^^^ q.d), q.d ^^^ sum ^^^ double (q.d ^^^ q.a)⟩

/-- A mixing undone.  Mixing four times changes nothing, so three more times do it. -/
def unmix (q : Column) : Column := mix (mix (mix q))

/-! ### Rounds -/

/-- The sum of two columns, bit by bit. -/
def Column.add (p q : Column) : Column := p.zipWith (· ^^^ ·) q

/-- A key added to a block, or taken off again. -/
def Block.add (p q : Block) : Block := p.zipWith Column.add q

/-- The rows of the square slanted. -/
def shift (b : Block) : Block := b.transpose.slant.transpose

/-- The rows of the square straightened. -/
def unshift (b : Block) : Block := b.transpose.straighten.transpose

/-- The key of the round after that of `key`. -/
def nextKey (key : Block) (constant : UInt8) : Block :=
  let w := key.d.rotate.map substitute
  let a := Column.add key.a { w with a := w.a ^^^ constant }
  let b := Column.add key.b a
  let c := Column.add key.c b
  ⟨a, b, c, Column.add key.d c⟩

/-- The constants of the ten round keys: the powers of two. -/
def constants : List UInt8 := [0x01, 0x02, 0x04, 0x08, 0x10, 0x20, 0x40, 0x80, 0x1b, 0x36]

/-- The rounds with the keys that follow `key`. -/
def rounds (key : Block) : List UInt8 → Block → Block
  | [], b => b
  | [constant], b => Block.add (nextKey key constant) (shift (b.map (·.map substitute)))
  | constant :: rest, b =>
    let key := nextKey key constant
    rounds key rest (Block.add key ((shift (b.map (·.map substitute))).map mix))

/-- The same rounds taken back. -/
def unrounds (key : Block) : List UInt8 → Block → Block
  | [], b => b
  | [constant], b => (unshift (Block.add (nextKey key constant) b)).map (·.map restore)
  | constant :: rest, b =>
    let key := nextKey key constant
    (unshift ((Block.add key (unrounds key rest b)).map unmix)).map (·.map restore)

/-- A block encrypted. -/
def encrypt (key b : Block) : Block := rounds key constants (Block.add key b)

/-- A block decrypted. -/
def decrypt (key b : Block) : Block := Block.add key (unrounds key constants b)

end TrustBoundary.Aes
