import TrustBoundary.Proofs.Protection.Deterministic
import TrustBoundary.Proofs.Protection.Sealed
import TrustBoundary.Text.Base64.Size

/-!
# The size of stored values

How many bytes a value has depends on the number of bytes of its text alone, in either mode
(`length_utf8_encrypt`, `length_utf8_of_encrypt`).  A value is ASCII, so it has as many characters,
and a longer text never has a shorter value (`length_stored`).  The empty text stays empty.
-/

namespace TrustBoundary

/-- A text in base64 has one byte for each character. -/
theorem Base64.length_utf8_encodeText (bytes : List UInt8) :
    (Text.utf8 (encodeText bytes)).length = (encodeText bytes).length := by
  rw [utf8_encodeText, length_encode, length_encodeText]

namespace Deterministic

/-- The number of bytes of the value that is stored for so many bytes. -/
def storedSize (size : Nat) : Nat :=
  if size = 0 then 0 else 4 * ((size + padSize size + 2) / 3)

theorem length_utf8_encrypt (key : FieldKey) (text : String) :
    (Text.utf8 (encrypt key text)).length = storedSize (Text.utf8 text).length := by
  by_cases hempty : text = ""
  · rw [hempty]
    rfl
  · rw [encrypt_of_ne_empty key hempty, Base64.utf8_encodeText, Base64.length_encode,
      length_encryptBytes, length_pad, storedSize, if_neg (Text.length_utf8_ne_zero hempty)]

/-- Bytes are filled up to one block more than there are whole blocks of them. -/
theorem add_padSize (size : Nat) : size + padSize size = 16 * (size / 16 + 1) := by
  unfold padSize blockSize
  omega

theorem storedSize_eq {size : Nat} (h : size ≠ 0) :
    storedSize size = 4 * ((16 * (size / 16 + 1) + 2) / 3) := by
  rw [storedSize, if_neg h, add_padSize]

theorem storedSize_mono {a b : Nat} (h : a ≤ b) : storedSize a ≤ storedSize b := by
  unfold storedSize padSize blockSize
  split <;> split <;> omega

/-- A value has one byte for each character. -/
theorem length_encrypt (key : FieldKey) (text : String) :
    (encrypt key text).length = storedSize (Text.utf8 text).length := by
  rw [← length_utf8_encrypt key, encrypt]
  split
  · rfl
  · exact (Base64.length_utf8_encodeText _).symm

end Deterministic

namespace Sealed

/-- The number of bytes of a value that is sealed of so many bytes: the mark, and in base64 the
nonce, the bytes and the tag. -/
def storedSize (size : Nat) : Nat :=
  if size = 0 then 0 else mark.length + 4 * ((size + minSize + 2) / 3)

theorem length_utf8_of_encrypt {key : SealedKey} {nonce : Nonce} {text value : String}
    (h : encrypt key nonce text = .ok value) :
    (Text.utf8 value).length = storedSize (Text.utf8 text).length := by
  obtain ⟨rfl, rfl⟩ | ⟨hne, box, hclose, rfl⟩ := encrypt_eq_ok_iff.1 h
  · rfl
  · have hraw : (nonce.bytes ++ box).length = (Text.utf8 text).length + minSize := by
      rw [List.length_append, nonce.length_eq, SealedBox.length_of_close? hclose, minSize]
      omega
    rw [Text.utf8_append, List.length_append, Base64.utf8_encodeText, Base64.length_encode, hraw,
      storedSize, if_neg (Text.length_utf8_ne_zero hne)]
    rfl

theorem storedSize_eq {size : Nat} (h : size ≠ 0) :
    storedSize size = 3 + 4 * ((size + 28 + 2) / 3) := by
  rw [storedSize, if_neg h]
  rfl

theorem storedSize_mono {a b : Nat} (h : a ≤ b) : storedSize a ≤ storedSize b := by
  unfold storedSize minSize SealedBox.tagSize
  split <;> split <;> omega

section

variable {key : SealedKey} {nonce : Nonce} {text value : String}

/-- A value has one byte for each character. -/
theorem length_of_encrypt (h : encrypt key nonce text = .ok value) :
    value.length = storedSize (Text.utf8 text).length := by
  rw [← length_utf8_of_encrypt h]
  obtain ⟨-, rfl⟩ | ⟨-, box, -, rfl⟩ := encrypt_eq_ok_iff.1 h
  · rfl
  · rw [Text.utf8_append, List.length_append, Base64.length_utf8_encodeText, String.length_append]
    rfl

/-- The body of a value holds the nonce, the hidden bytes and the tag. -/
theorem exists_body_of_encrypt (h : encrypt key nonce text = .ok value) (hne : text ≠ "") :
    ∃ body raw, value = "s1:" ++ body ∧ Base64.decodeText body = .ok raw ∧
      raw.length = (Text.utf8 text).length + 28 := by
  obtain ⟨hempty, -⟩ | ⟨-, box, hclose, rfl⟩ := encrypt_eq_ok_iff.1 h
  · exact absurd hempty hne
  · refine ⟨_, _, rfl, Base64.decodeText_encodeText _, ?_⟩
    rw [List.length_append, nonce.length_eq, SealedBox.length_of_close? hclose, SealedBox.tagSize]
    omega

/-- Only a text that is too long is not stored. -/
theorem encrypt_of_not_fits (hne : text ≠ "")
    (h : SealedBox.fits (Text.utf8 text).length = false) :
    encrypt key nonce text = .error .tooLong := by
  rw [encrypt, if_neg (mt String.isEmpty_iff.1 hne), SealedBox.close?, h]
  rfl

end

end Sealed

/-! ### Both modes -/

/-- A deterministic value is base64 of its text's whole blocks and has no mark; a sealed value is
the mark and base64 of twenty-eight bytes more than its text has, and there is one unless the text
is too long.  Base64 has four symbols for every three bytes, the last three being begun or full.  So
the number of bytes of a text tells how long its values are, whatever the keys and the nonces, and
of two texts the longer one has no shorter values. -/
theorem length_stored {text : String} {n : Nat} (hne : text ≠ "")
    (hn : (Text.utf8 text).length = n) (fieldKey : FieldKey) (key : SealedKey) (nonce : Nonce) :
    ((Deterministic.encrypt fieldKey text).length = 4 * ((16 * (n / 16 + 1) + 2) / 3) ∧
      (∀ c ∈ (Deterministic.encrypt fieldKey text).toList,
        c.toNat < 128 ∧ Base64.isSymbol c = true) ∧
      (∃ raw, Base64.decodeText (Deterministic.encrypt fieldKey text) = .ok raw ∧
        raw.length = 16 * (n / 16 + 1)) ∧
      Sealed.isSealed (Deterministic.encrypt fieldKey text) = false) ∧
    ((SealedBox.fits n = true →
        ∃ body raw, Sealed.encrypt key nonce text = .ok ("s1:" ++ body) ∧
          ("s1:" ++ body).length = 3 + 4 * ((n + 28 + 2) / 3) ∧
          Base64.decodeText body = .ok raw ∧ raw.length = n + 28) ∧
      (SealedBox.fits n = false → Sealed.encrypt key nonce text = .error .tooLong)) ∧
    (Deterministic.encrypt fieldKey "" = "" ∧ Sealed.encrypt key nonce "" = .ok "") ∧
    ∀ longer, n ≤ (Text.utf8 longer).length → ∀ fieldKey' key' nonce',
      (Deterministic.encrypt fieldKey text).length ≤
        (Deterministic.encrypt fieldKey' longer).length ∧
      ∀ value value', Sealed.encrypt key nonce text = .ok value →
        Sealed.encrypt key' nonce' longer = .ok value' → value.length ≤ value'.length := by
  subst hn
  have hsize := Text.length_utf8_ne_zero hne
  refine ⟨⟨?_, ?_, ?_, ?_⟩, ⟨fun hfits => ?_, Sealed.encrypt_of_not_fits hne⟩, ⟨rfl, rfl⟩,
    fun longer hlonger fieldKey' key' nonce' => ⟨?_, fun value value' h h' => ?_⟩⟩
  · rw [Deterministic.length_encrypt, Deterministic.storedSize_eq hsize]
  · rw [Deterministic.encrypt_of_ne_empty fieldKey hne]
    exact fun c => Base64.isSymbol_of_mem_encodeText
  · refine ⟨_, Deterministic.decodeText_encrypt fieldKey hne, ?_⟩
    rw [Deterministic.length_encryptBytes, Deterministic.length_pad, Deterministic.add_padSize]
  · -- the mark has a colon in it, and base64 has none
    exact Sealed.isSealed_eq_false (Deterministic.colon_notMem_encrypt fieldKey text)
  · obtain ⟨value, hvalue⟩ := Sealed.exists_encrypt key nonce hfits
    obtain ⟨body, raw, rfl, hbody, hraw⟩ := Sealed.exists_body_of_encrypt hvalue hne
    refine ⟨body, raw, hvalue, ?_, hbody, hraw⟩
    rw [Sealed.length_of_encrypt hvalue, Sealed.storedSize_eq hsize]
  · rw [Deterministic.length_encrypt, Deterministic.length_encrypt]
    exact Deterministic.storedSize_mono hlonger
  · rw [Sealed.length_of_encrypt h, Sealed.length_of_encrypt h']
    exact Sealed.storedSize_mono hlonger

/-- A text of one whole block, whose last character has two bytes. -/
theorem length_stored_wholeBlock :
    "0123456789abcd\u00e9" ≠ "" ∧ (Text.utf8 "0123456789abcd\u00e9").length = 16 ∧
      (Deterministic.encrypt (.ofSecret "field secret") "0123456789abcd\u00e9").length = 44 ∧
      ∃ key : SealedKey, key.bytes = List.replicate 32 7 ∧ ∃ body raw,
        Sealed.encrypt key (.ofNat 7) "0123456789abcd\u00e9" = .ok ("s1:" ++ body) ∧
          ("s1:" ++ body).length = 63 ∧ Base64.decodeText body = .ok raw ∧ raw.length = 44 := by
  have hne : "0123456789abcd\u00e9" ≠ "" := by decide
  have hn : (Text.utf8 "0123456789abcd\u00e9").length = 16 := by decide
  let key : SealedKey := ⟨List.replicate 32 7, rfl⟩
  obtain ⟨⟨hlength, -⟩, ⟨hsealed, -⟩, -⟩ :=
    length_stored hne hn (.ofSecret "field secret") key (.ofNat 7)
  exact ⟨hne, hn, hlength, key, rfl, hsealed (by decide)⟩

end TrustBoundary
