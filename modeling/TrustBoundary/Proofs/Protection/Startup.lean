import TrustBoundary.Proofs.Protection.PublicKeys

/-!
# Encryptors made at the start

At the start of a process an encryptor is made from named variables, in two steps: settings are read
from the variables, with something that stands for each that is missing, and refused if they would
protect nothing.  `KeySettings.Sufficient` says what the variables have to tell for this.  It is
necessary, and sufficient where a key for sealed values can be derived, and the encryptor that is
made has the mode and the keys that the variables ask for (`Encryptor.ofVariables_outcome`).
-/

namespace TrustBoundary

/-! ### Modes -/

theorem CipherMode.read_eq_ok_iff {text : String} {mode : CipherMode} :
    read text = .ok mode ↔
      String.ofList ((Text.trim text.toList).map Char.toLower) = mode.name := by
  unfold read
  split
  next h => rw [h]; cases mode <;> simp [name]
  next h => rw [h]; cases mode <;> simp [name]
  next hdeterministic hsealed =>
    cases mode
    · exact iff_of_false nofun hdeterministic
    · exact iff_of_false nofun hsealed

/-- The mode for which the variable with the mode asks, or that is taken where it is missing. -/
inductive CipherMode.AskedBy : Option String → CipherMode → Prop where
  | missing : AskedBy none .deterministic
  | deterministic {text : String} :
      String.ofList ((Text.trim text.toList).map Char.toLower) = "deterministic" →
        AskedBy (some text) .deterministic
  | sealed {text : String} :
      String.ofList ((Text.trim text.toList).map Char.toLower) = "sealed" →
        AskedBy (some text) .sealed

theorem CipherMode.askedBy_iff {text? : Option String} {mode : CipherMode} :
    AskedBy text? mode ↔ text?.elim (.ok .deterministic) read = .ok mode := by
  cases text? with
  | none =>
    rw [Option.elim_none, Except.ok.injEq, eq_comm]
    constructor
    · rintro ⟨⟩
      rfl
    · rintro rfl
      exact .missing
  | some text =>
    rw [Option.elim_some, read_eq_ok_iff]
    constructor
    · rintro (_ | h | h) <;> exact h
    · intro h
      cases mode with
      | deterministic => exact .deterministic h
      | sealed => exact .sealed h

/-! ### Settings -/

namespace KeySettings

section

variable (lookup : String → Option String)

/-- The secret that the variables tell, or that stands for none. -/
def secretTold : String := (lookup secretVariable).getD placeholderSecret

/-- The salt that the variables tell, or that stands for none. -/
def saltTold : String := (lookup saltVariable).getD placeholderSalt

/-- Whether the variables say that what stands for a secret and a salt is taken. -/
def AllowsPlaceholder : Prop :=
  ∃ text, lookup placeholderVariable = some text ∧
    String.ofList (Text.trim text.toList) ∈ ["1", "true", "yes"]

/-- What the variables have to tell for an encryptor in this mode. -/
structure Sufficient (mode : CipherMode) : Prop where
  mode_asked : CipherMode.AskedBy (lookup modeVariable) mode
  secret_ne_empty : secretTold lookup ≠ ""
  salt_size : mode = .sealed → 8 ≤ (Text.utf8 (saltTold lookup)).length
  /-- The secret and the salt are of one's own, unless others are allowed. -/
  own : ¬ AllowsPlaceholder lookup →
    (∃ secret, lookup secretVariable = some secret ∧ secret ≠ placeholderSecret) ∧
      ∃ salt, lookup saltVariable = some salt ∧ salt ≠ placeholderSalt

/-- The settings that the variables tell, in this mode. -/
def told (mode : CipherMode) : KeySettings where
  secret := secretTold lookup
  salt := saltTold lookup
  mode
  allowPlaceholder := (lookup placeholderVariable).elim false saysYes

end

section

variable {lookup : String → Option String} {mode : CipherMode}

theorem ofVariables_eq_ok_iff {s : KeySettings} :
    ofVariables lookup = .ok s ↔
      ∃ mode, CipherMode.AskedBy (lookup modeVariable) mode ∧ told lookup mode = s := by
  simp only [CipherMode.askedBy_iff]
  rw [ofVariables, bind_eq_ok_iff]
  exact exists_congr fun mode => and_congr_right fun _ => pure_eq_ok_iff

theorem allowPlaceholder_told :
    (told lookup mode).allowPlaceholder = false ↔ ¬ AllowsPlaceholder lookup := by
  rw [told, AllowsPlaceholder]
  cases lookup placeholderVariable with
  | none => simp
  | some text => simp [saysYes]

/-- What differs from the text that stands for a missing variable is told by the variable. -/
theorem getD_ne_iff {text? : Option String} {standard : String} :
    text?.getD standard ≠ standard ↔ ∃ text, text? = some text ∧ text ≠ standard := by
  cases text? <;> simp

theorem sufficient_iff :
    Sufficient lookup mode ↔
      CipherMode.AskedBy (lookup modeVariable) mode ∧ (told lookup mode).validate = .ok () := by
  rw [validate_eq_ok_iff, allowPlaceholder_told, ← Text.length_utf8]
  constructor
  · rintro ⟨hmode, hsecret, hsalt, hown⟩
    refine ⟨hmode, hsecret, hsalt, fun h => ?_⟩
    -- what differs from the placeholder has been told by a variable
    exact (hown h).imp getD_ne_iff.2 getD_ne_iff.2
  · rintro ⟨hmode, hsecret, hsalt, hown⟩
    refine ⟨hmode, hsecret, hsalt, fun h => ?_⟩
    exact (hown h).imp getD_ne_iff.1 getD_ne_iff.1

end

end KeySettings

/-! ### Encryptors -/

namespace Encryptor

open KeySettings

variable {lookup : String → Option String} {e : Encryptor}

/-- What is made from variables is made from the settings that they tell, if they suffice. -/
theorem ofVariables_eq_ok_iff :
    (KeySettings.ofVariables lookup >>= Encryptor.ofSettings) = .ok e ↔
      ∃ mode, Sufficient lookup mode ∧
        (mode = .deterministic ∧ e = .deterministic (secretTold lookup) ∨
          mode = .sealed ∧
            Encryptor.sealed (secretTold lookup) (saltTold lookup) {} = .ok e) := by
  rw [bind_eq_ok_iff]
  simp only [KeySettings.ofVariables_eq_ok_iff, ofSettings_eq_ok_iff, sufficient_iff]
  constructor
  · rintro ⟨_, ⟨mode, hasked, rfl⟩, hvalid, he⟩
    exact ⟨mode, ⟨hasked, hvalid⟩, he⟩
  · rintro ⟨mode, ⟨hasked, hvalid⟩, he⟩
    exact ⟨_, ⟨mode, hasked, rfl⟩, hvalid, he⟩

/-- An encryptor is made from variables only if these tell enough: a mode that there is, a secret
that is not empty, a salt that is long enough for sealed values, and both of one's own unless others
are allowed.  It has the mode that is asked for, the key of the secret, and in the sealed mode the
key that is derived at the standard cost.  If the variables tell enough and that key can be derived
where it is needed, the encryptor is made. -/
theorem ofVariables_outcome (lookup : String → Option String) :
    (∀ e, (KeySettings.ofVariables lookup >>= Encryptor.ofSettings) = .ok e →
      ∃ mode, Sufficient lookup mode ∧ e.mode = mode ∧
        e.fieldKey = .ofSecret (secretTold lookup) ∧
        (mode = .sealed → ∃ key,
          SealedKey.derive (secretTold lookup) (Text.utf8 (saltTold lookup)) {} = .ok key ∧
            e.sealedKey = some key)) ∧
    ∀ mode, Sufficient lookup mode →
      (mode = .sealed → ∃ key,
        SealedKey.derive (secretTold lookup) (Text.utf8 (saltTold lookup)) {} = .ok key) →
      ∃ e, (KeySettings.ofVariables lookup >>= Encryptor.ofSettings) = .ok e ∧ e.mode = mode ∧
        e.fieldKey = .ofSecret (secretTold lookup) := by
  constructor
  · intro e he
    obtain ⟨mode, hmode, ⟨rfl, rfl⟩ | ⟨rfl, hsealed⟩⟩ := ofVariables_eq_ok_iff.1 he
    · exact ⟨.deterministic, hmode, rfl, rfl, nofun⟩
    · -- in the sealed mode the derivation has succeeded as well
      obtain ⟨key, hkey, rfl⟩ := sealed_eq_ok_iff.1 hsealed
      exact ⟨.sealed, hmode, rfl, rfl, fun _ => ⟨key, hkey, rfl⟩⟩
  · intro mode hmode hderive
    cases mode with
    | deterministic =>
      exact ⟨_, ofVariables_eq_ok_iff.2 ⟨_, hmode, .inl ⟨rfl, rfl⟩⟩, rfl, rfl⟩
    | sealed =>
      obtain ⟨key, hkey⟩ := hderive rfl
      have hsealed := sealed_eq_ok_iff.2 ⟨key, hkey, rfl⟩
      exact ⟨_, ofVariables_eq_ok_iff.2 ⟨_, hmode, .inr ⟨rfl, hsealed⟩⟩, rfl, rfl⟩

/-- Variables that ask for sealed values in capital letters, with a salt of eight bytes. -/
def shouted (name : String) : Option String :=
  [(secretVariable, "s"), (saltVariable, "8 bytes!"), (modeVariable, " SEALED\n")].lookup name

/-- An encryptor is made from these variables, and none where no variable is there. -/
theorem ofVariables_outcome_shouted :
    Sufficient shouted .sealed ∧
      (∃ e, (KeySettings.ofVariables shouted >>= Encryptor.ofSettings) = .ok e ∧
        e.mode = .sealed ∧ e.fieldKey = .ofSecret "s") ∧
      ∀ e, (KeySettings.ofVariables (fun _ => none) >>= Encryptor.ofSettings) ≠ .ok e := by
  have hsufficient : Sufficient shouted .sealed :=
    ⟨.sealed (by decide), by decide, fun _ => by decide,
      fun _ => ⟨⟨"s", rfl, by decide⟩, "8 bytes!", rfl, by decide⟩⟩
  refine ⟨hsufficient,
    (ofVariables_outcome shouted).2 .sealed hsufficient fun _ => ⟨_, rfl⟩, fun e he => ?_⟩
  obtain ⟨mode, hmode, -⟩ := (ofVariables_outcome fun _ => none).1 e he
  obtain ⟨⟨secret, hsecret, -⟩, -⟩ := hmode.own fun ⟨_, htext, _⟩ => nomatch htext
  cases hsecret

end Encryptor

end TrustBoundary
