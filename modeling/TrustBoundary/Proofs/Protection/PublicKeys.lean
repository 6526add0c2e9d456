import Mathlib.Data.List.GetD
import TrustBoundary.Proofs.Protection.RoundTrip

/-!
# Keys that everybody knows

The key for deterministic values is the beginning of a secret, so that secrets with one beginning
have one key (`FieldKey.ofBytes_eq_iff`).  Settings, however, are refused by their whole secret: the
empty secret and the one that stands for none.  A secret that goes on where the latter has ended, or
that is nothing but zeros, is taken, and its key is the one of the secret that is refused
(`Encryptor.fieldKey_public_iff`).
-/

namespace TrustBoundary

/-! ### Secrets with one key -/

namespace FieldKey

/-- The number of bytes of a key. -/
def size : Nat := 16

/-- Bytes have the same key if they do not differ in its places, zeros being there where they have
ended. -/
theorem ofBytes_eq_iff {a b : List UInt8} :
    ofBytes a = ofBytes b ↔ ∀ i < size, a.getD i 0 = b.getD i 0 := by
  rw [ofBytes, ofBytes, FieldKey.mk.injEq, Aes.Block.ofBytes, Aes.Block.ofBytes,
    Quad.ofFn_eq_ofFn_iff]
  simp only [Quad.ofFn_eq_ofFn_iff]
  constructor
  · intro h i hi
    have hplace := h (i / 4) (Nat.div_lt_of_lt_mul hi) (i % 4) (Nat.mod_lt i (by decide))
    rwa [Nat.div_add_mod] at hplace
  · intro h i hi j hj
    exact h (4 * i + j) (by unfold size; omega)

/-- A byte that is none of the zeros that fill a key stands in the list itself. -/
theorem getElem?_eq_some_of_getD {a : List UInt8} {i : Nat} {b : UInt8} (h : a.getD i 0 = b)
    (hb : b ≠ 0) : a[i]? = some b := by
  rw [List.getD_eq_getElem?_getD] at h
  cases ha : a[i]? with
  | none =>
    rw [ha] at h
    exact absurd h.symm hb
  | some c =>
    rw [ha] at h
    exact congrArg some h

/-- A key without zeros is the key of what begins with its bytes. -/
theorem ofBytes_eq_iff_prefix {a b : List UInt8} (hsize : size ≤ b.length)
    (hzero : 0 ∉ b.take size) : ofBytes a = ofBytes b ↔ b.take size <+: a := by
  have hlength : (b.take size).length = size := List.length_take_of_le hsize
  rw [ofBytes_eq_iff]
  constructor
  · intro h
    refine List.prefix_iff_getElem?.2 fun i hi => ?_
    have hget : b.getD i 0 = (b.take size)[i] := by
      rw [List.getElem_take, List.getD_eq_getElem]
    refine getElem?_eq_some_of_getD ((h i (hlength ▸ hi)).trans hget) fun heq => hzero ?_
    exact heq ▸ List.getElem_mem hi
  · intro h i hi
    have hget := List.prefix_iff_getElem?.1 h i (hlength.symm ▸ hi)
    rw [List.getElem_take] at hget
    rw [List.getD_eq_getElem?_getD, hget, List.getD_eq_getElem b 0 (Nat.lt_of_lt_of_le hi hsize)]
    rfl

/-- Nothing but zeros have the key of no bytes at all. -/
theorem ofBytes_eq_nil_iff {a : List UInt8} :
    ofBytes a = ofBytes [] ↔ ∀ b ∈ a.take size, b = 0 := by
  rw [ofBytes_eq_iff]
  constructor
  · intro h b hb
    obtain ⟨i, hi, rfl⟩ := List.mem_take_iff_getElem.1 hb
    have hzero := h i (Nat.lt_min.1 hi).1
    rwa [List.getD_eq_getElem a 0 (Nat.lt_min.1 hi).2] at hzero
  · intro h i hi
    rw [List.getD_nil, List.getD_eq_getElem?_getD]
    cases ha : a[i]? with
    | none => rfl
    | some b =>
      refine h b (List.mem_of_getElem? (i := i) ?_)
      rw [List.getElem?_take_of_lt hi, ha]

end FieldKey

/-! ### Settings that are taken -/

/-- Which settings are not refused. -/
theorem KeySettings.validate_eq_ok_iff {s : KeySettings} :
    s.validate = .ok () ↔ s.secret ≠ "" ∧
      (s.mode = .sealed → SealedKey.minSaltSize ≤ s.salt.utf8ByteSize) ∧
      (s.allowPlaceholder = false → s.secret ≠ placeholderSecret ∧ s.salt ≠ placeholderSalt) := by
  rw [validate]
  simp only [throw_bind, ite_throw_eq_ok_iff, String.isEmpty_iff]
  refine and_congr Iff.rfl (and_congr ?_ ?_)
  · rw [not_and, Nat.not_lt]
  · cases s.allowPlaceholder with
    | true => simp [pure_eq_ok_iff]
    | false => simp [ite_throw_eq_ok_iff, pure_eq_ok_iff]

/-! ### Encryptors with a key that everybody knows -/

namespace Encryptor

section

variable {s : KeySettings} {e : Encryptor}

/-- Whoever has a secret with the same key reads what is stored in the deterministic mode. -/
theorem exists_decrypt_of_fieldKey_eq {known : String} (he : Encryptor.ofSettings s = .ok e)
    (hmode : s.mode = .deterministic) (hkey : e.fieldKey = .ofSecret known) (nonce : Nonce)
    (text : String) :
    ∃ value, e.encrypt nonce text = .ok value ∧
      (deterministic known).decrypt value = .ok text := by
  obtain ⟨-, rfl⟩ | ⟨hsealed, -⟩ := (MadeOf.ofSettings rfl he).keys
  · have hread := decrypt_deterministic_encrypt (deterministic known) text
    refine ⟨_, rfl, ?_⟩
    rwa [show (deterministic known).fieldKey = _ from hkey.symm] at hread
  · rw [hmode] at hsealed
    cases hsealed

/-- Settings are taken only if their secret is neither empty nor the one that stands for none.
Their key is still that of the latter exactly if the secret begins with the same sixteen bytes, and
that of the empty secret exactly if its first sixteen bytes are zeros. -/
theorem fieldKey_public_iff (he : Encryptor.ofSettings s = .ok e)
    (hown : s.allowPlaceholder = false) :
    (e.fieldKey = .ofSecret placeholderSecret ↔ s.secret ≠ placeholderSecret ∧
      (Text.utf8 placeholderSecret).take FieldKey.size <+: Text.utf8 s.secret) ∧
    (e.fieldKey = .ofSecret "" ↔
      s.secret ≠ "" ∧ ∀ b ∈ (Text.utf8 s.secret).take FieldKey.size, b = 0) := by
  have hkey : e.fieldKey = .ofSecret s.secret := (MadeOf.ofSettings rfl he).fieldKey_eq
  obtain ⟨hempty, -, hplaceholder⟩ :=
    KeySettings.validate_eq_ok_iff.1 (ofSettings_eq_ok_iff.1 he).1
  rw [hkey]
  constructor
  · rw [and_iff_right (hplaceholder hown).1]
    exact FieldKey.ofBytes_eq_iff_prefix (by decide) (by decide)
  · rw [and_iff_right hempty]
    exact FieldKey.ofBytes_eq_nil_iff

end

/-- Settings whose secret is the one that stands for none, and a line break. -/
def brokenLine : KeySettings where
  secret := "change-me-pii-secret\n"
  salt := "field salt"

/-- What is stored under these settings can be read by everybody. -/
theorem fieldKey_public_iff_brokenLine :
    ∃ e, Encryptor.ofSettings brokenLine = .ok e ∧ brokenLine.allowPlaceholder = false ∧
      e.fieldKey = .ofSecret placeholderSecret ∧ e.fieldKey ≠ .ofSecret "" ∧
      ∀ nonce text, ∃ value, e.encrypt nonce text = .ok value ∧
        (deterministic placeholderSecret).decrypt value = .ok text := by
  obtain ⟨e, he⟩ : ∃ e, Encryptor.ofSettings brokenLine = .ok e := ⟨_, rfl⟩
  obtain ⟨hplaceholder, hempty⟩ := fieldKey_public_iff he rfl
  have hkey : e.fieldKey = .ofSecret placeholderSecret :=
    hplaceholder.2 ⟨by decide, by decide⟩
  exact ⟨e, he, rfl, hkey, mt hempty.1 (by decide), exists_decrypt_of_fieldKey_eq he rfl hkey⟩

theorem not_forall_fieldKey_ne_public :
    ¬ ∀ s e, s.allowPlaceholder = false → Encryptor.ofSettings s = .ok e →
      e.fieldKey ≠ .ofSecret placeholderSecret ∧ e.fieldKey ≠ .ofSecret "" := by
  intro h
  have hne := (h brokenLine (deterministic brokenLine.secret) rfl rfl).1
  exact hne (by decide)

end Encryptor

end TrustBoundary
