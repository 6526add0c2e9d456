import TrustBoundary.Cipher.SealedBox
import TrustBoundary.Protection.Key

/-!
# Sealed values

A text is hidden and vouched for under a nonce, and nonce, hidden bytes and tag are written in
base64 behind a mark.  The mark has a colon, which base64 has not, so sealed and deterministic
values cannot be taken for one another.  The empty text stays empty.
-/

namespace TrustBoundary

/-- Twelve bytes that are used once. -/
structure Nonce where
  bytes : List UInt8
  length_eq : bytes.length = 12
deriving DecidableEq

/-- The nonce of a number. -/
def Nonce.ofNat (n : Nat) : Nonce := ⟨Bytes.ofNat 12 n, Bytes.length_ofNat 12 n⟩

namespace Sealed

/-- The mark in front of sealed values. -/
def mark : List Char := ['s', '1', ':']

/-- Whether a value has the mark. -/
def isSealed (value : String) : Bool := mark.isPrefixOf value.toList

/-- What follows the mark. -/
def body? (value : String) : Option String :=
  if isSealed value then some (String.ofList (value.toList.drop mark.length)) else none

/-- The sealed value of a text. -/
def encrypt (key : SealedKey) (nonce : Nonce) (text : String) : Except ProtectionError String :=
  if text.isEmpty then .ok ""
  else match SealedBox.close? key.bytes nonce.bytes (Text.utf8 text) with
    | some box => .ok (String.ofList mark ++ Base64.encodeText (nonce.bytes ++ box))
    | none => .error .tooLong

/-- The fewest bytes behind the mark: those of a nonce and of a tag. -/
def minSize : Nat := 12 + SealedBox.tagSize

/-- The text of a sealed value. -/
def decrypt (key : SealedKey) (value : String) : Except RecoveryFault String :=
  if value.isEmpty then .ok ""
  else match body? value with
    | none => .error .notSealed
    | some body => do
      let raw ← (Base64.decodeText body).mapError .notBase64
      if raw.length < minSize then throw (.tooShort raw.length)
      match SealedBox.open? key.bytes (raw.take 12) (raw.drop 12) with
      | none => throw .notAuthentic
      | some bytes =>
        match Text.ofUtf8? bytes with
        | some text => return text
        | none => throw .notText

end Sealed

end TrustBoundary
