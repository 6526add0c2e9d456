import TrustBoundary.Protection.Deterministic
import TrustBoundary.Protection.KeySettings
import TrustBoundary.Protection.Sealed
import TrustBoundary.Record.Basic

/-!
# Encryptors

An encryptor protects new values in one mode and recovers the values of both, so that a store can go
over from one mode to the other value by value.  Fields of a record are protected and recovered in
place.
-/

namespace TrustBoundary

/-- The keys of one secret.  New values are sealed if there is a key for it.  Whoever makes an
encryptor gives it such a key in sealed mode and in no other, so the mode is not kept beside the
keys; it is read off them (`Encryptor.mode`). -/
structure Encryptor where
  fieldKey : FieldKey
  sealedKey : Option SealedKey
deriving DecidableEq

namespace Encryptor

/-- The encryptor of a secret for deterministic values. -/
def deterministic (secret : String) : Encryptor := ⟨.ofSecret secret, none⟩

/-- The encryptor of a secret and a salt for sealed values. -/
def sealed (secret salt : String) (cost : Argon2id.Cost) : Except ProtectionError Encryptor := do
  return ⟨.ofSecret secret, some (← SealedKey.derive secret (Text.utf8 salt) cost)⟩

/-- The encryptor of settings, if they are not refused. -/
def ofSettings (s : KeySettings) : Except ProtectionError Encryptor := do
  s.validate
  match s.mode with
  | .deterministic => return deterministic s.secret
  | .sealed => sealed s.secret s.salt s.cost

/-- How new values are protected. -/
def mode (e : Encryptor) : CipherMode := if e.sealedKey.isSome then .sealed else .deterministic

/-- A text about an encryptor that shows no key. -/
def describe (e : Encryptor) : String :=
  "FieldEncryptor \x7b mode: " ++ e.mode.title ++ ", sealed_key: " ++ toString e.sealedKey.isSome ++
    ", .. \x7d"

/-- The value that is stored for a text. -/
def encrypt (e : Encryptor) (nonce : Nonce) (text : String) : Except ProtectionError String :=
  match e.sealedKey with
  | some key => Sealed.encrypt key nonce text
  | none => .ok (Deterministic.encrypt e.fieldKey text)

/-- The text from the value that is stored for it, in whichever mode. -/
def decrypt (e : Encryptor) (value : String) : Except ProtectionError String :=
  Except.mapError .recovery <|
    if Sealed.isSealed value then
      match e.sealedKey with
      | some key => Sealed.decrypt key value
      | none => .error .noSealedKey
    else Deterministic.decrypt e.fieldKey value

/-! ### Fields of records -/

/-- Changes the named fields of a record that are texts, one after the other, the one at place `i`
of the list by `change i`. Gives the number of changes, or the first failure, and the record as it
is then.  -/
def changeFields {ε : Type} (change : Nat → String → Except ε String) :
    List String → Record → Except ε Nat × Record
  | [], r => (.ok 0, r)
  | name :: names, r =>
    match r.get? name with
    | some (.text old) =>
      match change 0 old with
      | .error e => (.error e, r)
      | .ok new =>
        let (count, r) := changeFields (fun i => change (i + 1)) names (r.insert name (.text new))
        (count.map (· + 1), r)
    | _ => changeFields (fun i => change (i + 1)) names r

/-- Protects the named fields of a record, each under a nonce of its own. -/
def encryptFields (e : Encryptor) (nonces : Nat → Nonce) (names : List String) (r : Record) :
    Except ProtectionError Nat × Record :=
  changeFields (fun i => e.encrypt (nonces i)) names r

/-- Recovers the named fields of a record. -/
def decryptFields (e : Encryptor) (names : List String) (r : Record) :
    Except ProtectionError Nat × Record :=
  changeFields (fun _ => e.decrypt) names r

end Encryptor

end TrustBoundary
