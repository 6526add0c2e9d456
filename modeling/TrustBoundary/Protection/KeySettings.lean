import TrustBoundary.Json.Choice
import TrustBoundary.Json.Printer
import TrustBoundary.Json.Shape
import TrustBoundary.Protection.CipherMode
import TrustBoundary.Protection.Key

/-!
# Key settings

What an encryptor is made from: the secret, the salt, the mode and the cost of a derivation.
Settings come from a JSON text or from named variables, and are refused before a key is made if they
would protect nothing.
-/

namespace TrustBoundary

open Json

namespace Argon2id.Cost

/-- The JSON object of a cost. -/
def toValue (c : Cost) : Value := .object [
  ("memory_kib", .ofUInt32 c.memory),
  ("iterations", .ofUInt32 c.iterations),
  ("parallelism", .ofUInt32 c.parallelism)]

/-- The text of a cost. -/
def text (c : Cost) : String := c.toValue.text

/-- A cost that may still lack something. -/
structure Draft where
  memory : Option UInt32 := none
  iterations : Option UInt32 := none
  parallelism : Option UInt32 := none

/-- How a cost is read; all of it has to be there. -/
def shape : Shape Draft Cost where
  title := "KdfParams"
  members := [
    .of "memory_kib" uint32Decoder (·.memory) fun d v => { d with memory := some v },
    .of "iterations" uint32Decoder (·.iterations) fun d v => { d with iterations := some v },
    .of "parallelism" uint32Decoder (·.parallelism) fun d v => { d with parallelism := some v }]
  blank := {}
  complete d := do
    return ⟨← required "memory_kib" d.memory, ← required "iterations" d.iterations,
      ← required "parallelism" d.parallelism⟩

/-- Reads a cost from a text. -/
def read (text : String) : Except Json.Error Cost := shape.decoder.run text

/-- A text about a cost. -/
def describe (c : Cost) : String :=
  "KdfParams \x7b memory_kib: " ++ toString c.memory.toNat ++ ", iterations: " ++
    toString c.iterations.toNat ++ ", parallelism: " ++ toString c.parallelism.toNat ++ " \x7d"

end Argon2id.Cost

/-- The secret that stands for none. -/
def placeholderSecret : String := "change-me-pii-secret"

/-- The salt that stands for none. -/
def placeholderSalt : String := "change-me-pii-salt"

/-- The settings of an encryptor. -/
structure KeySettings where
  secret : String := placeholderSecret
  salt : String := placeholderSalt
  mode : CipherMode := .deterministic
  cost : Argon2id.Cost := {}
  /-- Whether placeholders are taken for a secret and a salt. -/
  allowPlaceholder : Bool := false
deriving DecidableEq

namespace KeySettings

/-- Refuses settings that would protect nothing. -/
def validate (s : KeySettings) : Except ProtectionError Unit := do
  if s.secret.isEmpty then throw (.insecure .emptySecret)
  if s.mode = .sealed ∧ s.salt.utf8ByteSize < SealedKey.minSaltSize then
    throw (.settings .shortSalt)
  unless s.allowPlaceholder do
    if s.secret = placeholderSecret then throw (.insecure .placeholderSecret)
    if s.salt = placeholderSalt then throw (.insecure .placeholderSalt)

/-! ### Named variables -/

/-- The variable with the secret. -/
def secretVariable : String := "PAYGUARD_PII_SECRET"

/-- The variable with the salt. -/
def saltVariable : String := "PAYGUARD_PII_SALT"

/-- The variable with the mode. -/
def modeVariable : String := "PAYGUARD_CIPHER_MODE"

/-- The variable that tells whether placeholders are taken. -/
def placeholderVariable : String := "PAYGUARD_ALLOW_PLACEHOLDER_KEYS"

/-- Whether a text says yes. -/
def saysYes (text : String) : Bool := String.ofList (Text.trim text.toList) ∈ ["1", "true", "yes"]

/-- The settings that some variables tell; what they do not tell is left as it is by default. -/
def ofVariables (lookup : String → Option String) : Except ProtectionError KeySettings := do
  let standard : KeySettings := {}
  let mode ← (lookup modeVariable).elim (.ok standard.mode) CipherMode.read
  return {
    secret := (lookup secretVariable).getD standard.secret
    salt := (lookup saltVariable).getD standard.salt
    mode
    allowPlaceholder := (lookup placeholderVariable).elim standard.allowPlaceholder saysYes }

/-! ### Texts -/

/-- The JSON object of settings. -/
def toValue (s : KeySettings) : Value := .object [
  ("secret", .string s.secret),
  ("salt", .string s.salt),
  ("mode", .string s.mode.name),
  ("kdf", s.cost.toValue),
  ("allow_placeholder", .bool s.allowPlaceholder)]

/-- The text of settings. -/
def text (s : KeySettings) : String := s.toValue.text

/-- A text about settings that shows neither the secret nor the salt. -/
def describe (s : KeySettings) : String :=
  "KeyConfig \x7b secret: \"<redacted>\", salt: \"<redacted>\", mode: " ++ s.mode.title ++
    ", kdf: " ++ s.cost.describe ++ ", allow_placeholder: " ++ toString s.allowPlaceholder ++
    " \x7d"

/-- Settings that may still lack something. -/
structure Draft where
  secret : Option String := none
  salt : Option String := none
  mode : Option CipherMode := none
  cost : Option Argon2id.Cost := none
  allowPlaceholder : Option Bool := none

/-- How settings are read; the secret and the salt have to be there. -/
def shape : Shape Draft KeySettings where
  title := "KeyConfig"
  members := [
    .of "secret" textDecoder (·.secret) fun d v => { d with secret := some v },
    .of "salt" textDecoder (·.salt) fun d v => { d with salt := some v },
    .of "mode" (choiceDecoder CipherMode.named) (·.mode)
      (fun d v => { d with mode := some v }) true,
    .of "kdf" Argon2id.Cost.shape.decoder (·.cost) (fun d v => { d with cost := some v }) true,
    .of "allow_placeholder" boolDecoder (·.allowPlaceholder)
      (fun d v => { d with allowPlaceholder := some v }) true]
  blank := {}
  complete d := do
    return ⟨← required "secret" d.secret, ← required "salt" d.salt, d.mode.getD .deterministic,
      d.cost.getD {}, d.allowPlaceholder.getD false⟩

/-- Reads settings from a text. -/
def read (text : String) : Except Json.Error KeySettings := shape.decoder.run text

end KeySettings

end TrustBoundary
