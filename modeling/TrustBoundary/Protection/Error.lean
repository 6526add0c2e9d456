import TrustBoundary.Cipher.Argon2id
import TrustBoundary.Text.Base64

/-!
# Errors of protection

What can go wrong when values are protected or recovered, and when the keys for it are made.
-/

namespace TrustBoundary

/-- Why a stored value cannot be recovered. -/
inductive RecoveryFault where
  | notBase64 (e : Base64.Error)
  /-- The bytes are not some whole blocks. -/
  | notBlocks (size : Nat)
  /-- The padding is none. -/
  | badPadding
  /-- The bytes recovered are no text. -/
  | notText
  /-- The value has not the mark of sealed values. -/
  | notSealed
  /-- A sealed value has no room for its nonce and its tag. -/
  | tooShort (size : Nat)
  /-- The tag of a sealed value is wrong. -/
  | notAuthentic
  /-- There is no key for sealed values. -/
  | noSealedKey
deriving DecidableEq

/-- The wording of a fault. -/
def RecoveryFault.message : RecoveryFault → String
  | notBase64 e => "invalid base64: " ++ e.message
  | notBlocks size => "ciphertext length " ++ toString size ++ " is not a positive multiple of 16"
  | badPadding => "bad padding (wrong key or corrupted data)"
  | notText => "plaintext is not valid UTF-8"
  | notSealed => "value is not in sealed format"
  | tooShort size => "sealed value too short: " ++ toString size ++ " bytes"
  | notAuthentic => "authentication failed (wrong key or tampered data)"
  | noSealedKey => "sealed value but no sealed key configured"

/-- Why no key is derived. -/
inductive DerivationFault where
  | shortSalt (size : Nat)
  | cost (fault : Argon2id.CostFault)
deriving DecidableEq

/-- The wording of a fault. -/
def DerivationFault.message : DerivationFault → String
  | shortSalt size => "salt must be at least 8 bytes, got " ++ toString size
  | cost fault => "invalid Argon2 parameters: " ++ fault.message

/-- Why settings would not protect anything. -/
inductive InsecureKeys where
  | emptySecret
  | placeholderSecret
  | placeholderSalt
deriving DecidableEq

/-- The wording of the reason. -/
def InsecureKeys.message : InsecureKeys → String
  | emptySecret => "secret is empty"
  | placeholderSecret => "secret is the built-in placeholder"
  | placeholderSalt => "salt is the built-in placeholder"

/-- Why settings mean nothing. -/
inductive SettingFault where
  | unknownMode (text : String)
  | shortSalt
deriving DecidableEq

/-- The wording of a fault. -/
def SettingFault.message : SettingFault → String
  | unknownMode text => "unknown cipher mode: " ++ text
  | shortSalt => "salt must be at least 8 bytes in sealed mode"

/-- What can go wrong in the protection of values. -/
inductive ProtectionError where
  /-- A value is too long to be sealed. -/
  | tooLong
  /-- A stored value cannot be recovered. -/
  | recovery (fault : RecoveryFault)
  /-- A key cannot be derived. -/
  | derivation (fault : DerivationFault)
  /-- Bytes are not as many as a key for sealed values has. -/
  | keyLength (size : Nat)
  /-- The settings would not protect anything. -/
  | insecure (reason : InsecureKeys)
  /-- The settings mean nothing. -/
  | settings (fault : SettingFault)
deriving DecidableEq

/-- The wording of an error. -/
def ProtectionError.message : ProtectionError → String
  | tooLong => "encryption failed: seal failed: aead::Error"
  | recovery fault => "decryption failed: " ++ fault.message
  | derivation fault => "key derivation failed: " ++ fault.message
  | keyLength size => "invalid key length: expected 32, got " ++ toString size
  | insecure reason => "insecure key configuration: " ++ reason.message
  | settings fault => "invalid configuration: " ++ fault.message

end TrustBoundary
