import TrustBoundary.Protection.Key

/-!
# Deterministic values

The bytes of a text are filled up to whole blocks, every block is encrypted on its own, and the
result is written in base64. One text has one value under a key, so that values can be compared as
they are; equal blocks show as equal blocks.  The empty text stays empty.
-/

namespace TrustBoundary.Deterministic

/-- The number of bytes of a block. -/
def blockSize : Nat := 16

/-- How many bytes are missing to whole blocks; a whole block where none is. -/
def padSize (size : Nat) : Nat := blockSize - size % blockSize

/-- Bytes filled up to whole blocks.  Each byte of the filling tells how many there are. -/
def pad (bytes : List UInt8) : List UInt8 :=
  bytes ++ List.replicate (padSize bytes.length) (padSize bytes.length).toUInt8

/-- The bytes in front of a filling. -/
def unpad? (bytes : List UInt8) : Option (List UInt8) := do
  let count := (← bytes.getLast?).toNat
  let size := bytes.length - count
  if 0 < count ∧ count ≤ blockSize ∧ count ≤ bytes.length ∧
      bytes.drop size = List.replicate count count.toUInt8 then
    some (bytes.take size)
  else none

/-- The blocks of some bytes. -/
def blocks (bytes : List UInt8) : List Aes.Block := Quad.group (Quad.group bytes)

/-- The bytes of some blocks. -/
def unblocks (bs : List Aes.Block) : List UInt8 := Quad.ungroup (Quad.ungroup bs)

/-- The bytes that are stored for a text's bytes. -/
def encryptBytes (key : FieldKey) (bytes : List UInt8) : List UInt8 :=
  unblocks ((blocks (pad bytes)).map (Aes.encrypt key.block))

/-- The bytes of a text from those that are stored. -/
def decryptBytes (key : FieldKey) (bytes : List UInt8) : Except RecoveryFault (List UInt8) :=
  if bytes = [] ∨ bytes.length % blockSize ≠ 0 then .error (.notBlocks bytes.length)
  else match unpad? (unblocks ((blocks bytes).map (Aes.decrypt key.block))) with
    | some text => .ok text
    | none => .error .badPadding

/-- The value that is stored for a text. -/
def encrypt (key : FieldKey) (text : String) : String :=
  if text.isEmpty then "" else Base64.encodeText (encryptBytes key (Text.utf8 text))

/-- The text from the value that is stored for it. -/
def decrypt (key : FieldKey) (value : String) : Except RecoveryFault String :=
  if value.isEmpty then .ok ""
  else do
    let stored ← (Base64.decodeText value).mapError .notBase64
    let bytes ← decryptBytes key stored
    match Text.ofUtf8? bytes with
    | some text => return text
    | none => throw .notText

end TrustBoundary.Deterministic
