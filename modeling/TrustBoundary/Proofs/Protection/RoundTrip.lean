import TrustBoundary.Proofs.Protection.Deterministic
import TrustBoundary.Proofs.Protection.Sealed
import TrustBoundary.Protection.Encryptor

/-!
# Encryptors recover what they protect

However an encryptor is made (`MadeOf`), its mode and its keys agree: there is a key for sealed
values exactly in the sealed mode, and the key for deterministic values depends on the secret alone.
So every encryptor reads its own values, a sealed one reads what was stored in the deterministic
mode of the same secret, and a deterministic one refuses sealed values (`round_trip`).  The two
kinds of values are told apart by the mark, which has a colon.
-/

namespace TrustBoundary.Encryptor

/-! ### How encryptors are made -/

/-- The ways to make an encryptor of a secret, with the mode that each gives. -/
inductive MadeOf (secret : String) : CipherMode → Encryptor → Prop where
  | deterministic : MadeOf secret .deterministic (.deterministic secret)
  | sealed {salt : String} {cost : Argon2id.Cost} {e : Encryptor} :
      Encryptor.sealed secret salt cost = .ok e → MadeOf secret .sealed e
  | ofSettings {s : KeySettings} {e : Encryptor} :
      s.secret = secret → Encryptor.ofSettings s = .ok e → MadeOf secret s.mode e

theorem sealed_eq_ok_iff {secret salt : String} {cost : Argon2id.Cost} {e : Encryptor} :
    Encryptor.sealed secret salt cost = .ok e ↔
      ∃ key, SealedKey.derive secret (Text.utf8 salt) cost = .ok key ∧
        ⟨.ofSecret secret, some key⟩ = e := by
  rw [Encryptor.sealed, bind_eq_ok_iff]
  exact exists_congr fun key => and_congr_right fun _ => pure_eq_ok_iff

theorem exists_sealedKey_of_sealed {secret salt : String} {cost : Argon2id.Cost} {e : Encryptor}
    (h : Encryptor.sealed secret salt cost = .ok e) :
    ∃ key, e = ⟨.ofSecret secret, some key⟩ := by
  obtain ⟨key, -, rfl⟩ := sealed_eq_ok_iff.1 h
  exact ⟨key, rfl⟩

/-- The settings that are taken, and what is made of them. -/
theorem ofSettings_eq_ok_iff {s : KeySettings} {e : Encryptor} :
    Encryptor.ofSettings s = .ok e ↔ s.validate = .ok () ∧
      (s.mode = .deterministic ∧ e = .deterministic s.secret ∨
        s.mode = .sealed ∧ Encryptor.sealed s.secret s.salt s.cost = .ok e) := by
  unfold Encryptor.ofSettings
  cases s.validate with
  | error fault => simp [bind, Except.bind]
  | ok u => cases s.mode <;> simp [bind, Except.bind, pure, Except.pure, eq_comm]

/-- The keys that go with a mode. -/
theorem MadeOf.keys {secret : String} {mode : CipherMode} {e : Encryptor}
    (he : MadeOf secret mode e) :
    mode = .deterministic ∧ e = ⟨.ofSecret secret, none⟩ ∨
      mode = .sealed ∧ ∃ key, e = ⟨.ofSecret secret, some key⟩ := by
  cases he with
  | deterministic => exact .inl ⟨rfl, rfl⟩
  | sealed h => exact .inr ⟨rfl, exists_sealedKey_of_sealed h⟩
  | ofSettings hsecret h =>
    subst hsecret
    obtain ⟨-, ⟨hmode, he⟩ | ⟨hmode, he⟩⟩ := ofSettings_eq_ok_iff.1 h
    · exact .inl ⟨hmode, he⟩
    · exact .inr ⟨hmode, exists_sealedKey_of_sealed he⟩

/-- An encryptor has the mode for which it was made. -/
theorem MadeOf.mode_eq {secret : String} {mode : CipherMode} {e : Encryptor}
    (he : MadeOf secret mode e) : e.mode = mode := by
  obtain ⟨rfl, rfl⟩ | ⟨rfl, key, rfl⟩ := he.keys <;> rfl

theorem MadeOf.fieldKey_eq {secret : String} {mode : CipherMode} {e : Encryptor}
    (he : MadeOf secret mode e) : e.fieldKey = .ofSecret secret := by
  obtain ⟨-, rfl⟩ | ⟨-, key, rfl⟩ := he.keys <;> rfl

/-! ### Reading values -/

section

variable {e : Encryptor} {value : String}

theorem decrypt_of_isSealed_eq_false (h : Sealed.isSealed value = false) :
    e.decrypt value = (Deterministic.decrypt e.fieldKey value).mapError .recovery := by
  rw [decrypt, h, if_neg Bool.false_ne_true]

/-- Without a key for them, sealed values are refused and not read as deterministic ones. -/
theorem decrypt_of_isSealed_of_sealedKey_eq_none (h : Sealed.isSealed value = true)
    (hkey : e.sealedKey = none) : e.decrypt value = .error (.recovery .noSealedKey) := by
  rw [decrypt, if_pos h, hkey]
  rfl

/-- Deterministic values are read in both modes. -/
theorem decrypt_deterministic_encrypt (e : Encryptor) (text : String) :
    e.decrypt (Deterministic.encrypt e.fieldKey text) = .ok text := by
  have hplain := Sealed.isSealed_eq_false (Deterministic.colon_notMem_encrypt e.fieldKey text)
  rw [decrypt_of_isSealed_eq_false hplain, Deterministic.decrypt_encrypt]
  rfl

theorem decrypt_of_sealed_encrypt {key : SealedKey} {nonce : Nonce} {text : String}
    (hkey : e.sealedKey = some key) (h : Sealed.encrypt key nonce text = .ok value) :
    e.decrypt value = .ok text := by
  by_cases hempty : text = ""
  · -- the empty value has no mark, so it is read as a deterministic one
    subst hempty
    obtain rfl : "" = value := Except.ok.inj h
    exact decrypt_deterministic_encrypt e ""
  · rw [decrypt, if_pos (Sealed.isSealed_of_encrypt h hempty), hkey]
    exact congrArg (Except.mapError ProtectionError.recovery) (Sealed.decrypt_of_encrypt h)

end

/-! ### The round trip -/

/-- Every text that is not too long for the mode is stored and comes back.  What is stored in the
deterministic mode comes back from every encryptor of the secret; what is sealed of a text that is
not empty is refused by every deterministic encryptor. -/
theorem round_trip {secret : String} {mode : CipherMode} {e : Encryptor}
    (he : MadeOf secret mode e) (nonce : Nonce) {text : String}
    (hfits : mode = .sealed → SealedBox.fits (Text.utf8 text).length = true) :
    ∃ value, e.encrypt nonce text = .ok value ∧ e.decrypt value = .ok text ∧
      (mode = .deterministic → ∀ m other, MadeOf secret m other →
        other.decrypt value = .ok text) ∧
      (mode = .sealed → text ≠ "" → ∀ s other, MadeOf s .deterministic other →
        other.decrypt value = .error (.recovery .noSealedKey)) := by
  obtain ⟨rfl, rfl⟩ | ⟨rfl, key, rfl⟩ := he.keys
  · refine ⟨_, rfl, decrypt_deterministic_encrypt _ text, fun _ m other hother => ?_, nofun⟩
    -- every encryptor of the secret has the key under which the value was stored
    have hread := decrypt_deterministic_encrypt other text
    rwa [hother.fieldKey_eq] at hread
  · obtain ⟨value, hvalue⟩ := Sealed.exists_encrypt key nonce (hfits rfl)
    refine ⟨value, hvalue, decrypt_of_sealed_encrypt rfl hvalue, nofun,
      fun _ hne s other hother => ?_⟩
    -- the value has the mark, and for what has the mark there is no key
    obtain ⟨-, rfl⟩ | ⟨hmode, -⟩ := hother.keys
    · exact decrypt_of_isSealed_of_sealedKey_eq_none (Sealed.isSealed_of_encrypt hvalue hne) rfl
    · cases hmode

/-- A text that looks as if it were sealed, stored in both modes of one secret. -/
theorem round_trip_markedText :
    ∃ e, Encryptor.sealed "field secret" "field salt" {} = .ok e ∧
      SealedBox.fits (Text.utf8 "s1:é").length = true ∧
      (∃ value, e.encrypt (.ofNat 7) "s1:é" = .ok value ∧ e.decrypt value = .ok "s1:é" ∧
        (deterministic "field secret").decrypt value = .error (.recovery .noSealedKey)) ∧
      ∃ value, (deterministic "field secret").encrypt (.ofNat 7) "s1:é" = .ok value ∧
        e.decrypt value = .ok "s1:é" := by
  obtain ⟨e, he⟩ : ∃ e, Encryptor.sealed "field secret" "field salt" {} = .ok e := ⟨_, rfl⟩
  have hfits : SealedBox.fits (Text.utf8 "s1:é").length = true := by decide
  obtain ⟨boxed, hboxed, hopened, -, hrefused⟩ :=
    round_trip (.sealed he) (.ofNat 7) fun _ => hfits
  have hplain : MadeOf "field secret" .deterministic (deterministic "field secret") :=
    .deterministic
  obtain ⟨stored, hstored, -, hread, -⟩ := round_trip hplain (.ofNat 7) fun _ => hfits
  exact ⟨e, he, hfits, ⟨boxed, hboxed, hopened, hrefused rfl (by decide) _ _ .deterministic⟩,
    stored, hstored, hread rfl _ _ (.sealed he)⟩

end TrustBoundary.Encryptor
