import TrustBoundary.Cipher.Aes
import TrustBoundary.Protection.Error
import TrustBoundary.Text.Utf8

/-!
# Keys

The key for deterministic values is the beginning of the secret; the key for sealed values is
derived from the secret and a salt.  Neither shows its bytes when it is described.
-/

namespace TrustBoundary

/-- The key for deterministic values. -/
structure FieldKey where
  block : Aes.Block
deriving DecidableEq

namespace FieldKey

/-- The key of the first sixteen bytes, with zeros where they have ended. -/
def ofBytes (bytes : List UInt8) : FieldKey := ⟨Aes.Block.ofBytes bytes⟩

/-- The key of a secret: its first sixteen bytes, with zeros where it has ended. -/
def ofSecret (secret : String) : FieldKey := ofBytes (Text.utf8 secret)

/-- The sixteen bytes of a key. -/
def bytes (k : FieldKey) : List UInt8 := k.block.toBytes

/-- A text about a key that does not depend on it. -/
def describe (_ : FieldKey) : String := "FieldKey(<redacted>)"

end FieldKey

/-- The key for sealed values. -/
structure SealedKey where
  bytes : List UInt8
  length_eq : bytes.length = 32
deriving DecidableEq

namespace SealedKey

/-- The fewest bytes that a salt has. -/
def minSaltSize : Nat := 8

/-- The key with these bytes. -/
def ofBytes (bytes : List UInt8) : Except ProtectionError SealedKey :=
  if h : bytes.length = 32 then .ok ⟨bytes, h⟩ else .error (.keyLength bytes.length)

/-- The key of a secret and a salt. -/
def derive (secret : String) (salt : List UInt8) (cost : Argon2id.Cost) :
    Except ProtectionError SealedKey :=
  if salt.length < minSaltSize then .error (.derivation (.shortSalt salt.length))
  else match cost.fault? with
    | some fault => .error (.derivation (.cost fault))
    | none => .ok ⟨_, Argon2id.length_derive (by decide) cost (Text.utf8 secret) salt⟩

/-- A text about a key that does not depend on it. -/
def describe (_ : SealedKey) : String := "DerivedKey(<redacted>)"

end SealedKey

end TrustBoundary
