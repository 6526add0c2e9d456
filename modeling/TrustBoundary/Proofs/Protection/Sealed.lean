import TrustBoundary.Protection.Sealed
import TrustBoundary.Text.Base64.Inverse

/-!
# Sealed values are recovered

A sealed value has the mark, and what follows it gives back the nonce and the box.  So the text
comes back from every value that is made of it, whatever the nonce (`decrypt_of_encrypt`).
-/

namespace TrustBoundary.Sealed

/-! ### The mark -/

theorem isSealed_mark_append (body : String) : isSealed (String.ofList mark ++ body) = true := by
  rw [isSealed, String.toList_append, String.toList_ofList, List.isPrefixOf_iff_prefix]
  exact List.prefix_append mark body.toList

theorem body?_mark_append (body : String) : body? (String.ofList mark ++ body) = some body := by
  rw [body?, if_pos (isSealed_mark_append body), String.toList_append, String.toList_ofList,
    List.drop_left, String.ofList_toList]

theorem mark_append_ne_empty (body : String) : String.ofList mark ++ body ≠ "" := by
  intro hempty
  have hmark := isSealed_mark_append body
  rw [hempty] at hmark
  cases hmark

/-- A value without a colon has not the mark. -/
theorem isSealed_eq_false {value : String} (h : ':' ∉ value.toList) : isSealed value = false := by
  rw [isSealed, Bool.eq_false_iff, ne_eq, List.isPrefixOf_iff_prefix]
  intro hmark
  exact h (hmark.subset (by decide))

/-! ### Values -/

/-- What is stored for a text. -/
theorem encrypt_eq_ok_iff {key : SealedKey} {nonce : Nonce} {text value : String} :
    encrypt key nonce text = .ok value ↔ text = "" ∧ value = "" ∨
      text ≠ "" ∧ ∃ box, SealedBox.close? key.bytes nonce.bytes (Text.utf8 text) = some box ∧
        value = String.ofList mark ++ Base64.encodeText (nonce.bytes ++ box) := by
  unfold encrypt
  by_cases hempty : text = ""
  · rw [if_pos (String.isEmpty_iff.2 hempty), Except.ok.injEq]
    simp [hempty, eq_comm]
  · rw [if_neg (mt String.isEmpty_iff.1 hempty)]
    cases SealedBox.close? key.bytes nonce.bytes (Text.utf8 text) with
    | none => simp [hempty]
    | some box => simp [hempty, eq_comm]

/-- Every text is stored that is not too long for the cipher. -/
theorem exists_encrypt (key : SealedKey) (nonce : Nonce) {text : String}
    (hfits : SealedBox.fits (Text.utf8 text).length = true) :
    ∃ value, encrypt key nonce text = .ok value := by
  by_cases hempty : text = ""
  · exact ⟨"", encrypt_eq_ok_iff.2 (.inl ⟨hempty, rfl⟩)⟩
  · obtain ⟨box, hclose⟩ : ∃ box,
        SealedBox.close? key.bytes nonce.bytes (Text.utf8 text) = some box := ⟨_, if_pos hfits⟩
    exact ⟨_, encrypt_eq_ok_iff.2 (.inr ⟨hempty, box, hclose, rfl⟩)⟩

/-- What is read behind the mark: a nonce and a box. -/
theorem decrypt_mark_append (key : SealedKey) (nonce : Nonce) {box bytes : List UInt8}
    {text : String} (hopen : SealedBox.open? key.bytes nonce.bytes box = some bytes)
    (htext : Text.ofUtf8? bytes = some text) :
    decrypt key (String.ofList mark ++ Base64.encodeText (nonce.bytes ++ box)) = .ok text := by
  have hbox := SealedBox.length_of_close? (SealedBox.open?_eq_some_iff.1 hopen)
  have hsize : ¬ (nonce.bytes ++ box).length < minSize := by
    rw [List.length_append, nonce.length_eq, hbox, minSize]
    omega
  have htake : (nonce.bytes ++ box).take 12 = nonce.bytes := List.take_left' nonce.length_eq
  have hdrop : (nonce.bytes ++ box).drop 12 = box := List.drop_left' nonce.length_eq
  rw [decrypt, if_neg (mt String.isEmpty_iff.1 (mark_append_ne_empty _)), body?_mark_append]
  simp only [Base64.decodeText_encodeText]
  show Except.ok (nonce.bytes ++ box) >>= _ = _
  simp only [bind, Except.bind, if_neg hsize, htake, hdrop, hopen, htext]
  rfl

/-- The text comes back from every value that is stored for it. -/
theorem decrypt_of_encrypt {key : SealedKey} {nonce : Nonce} {text value : String}
    (h : encrypt key nonce text = .ok value) : decrypt key value = .ok text := by
  obtain ⟨rfl, rfl⟩ | ⟨-, box, hclose, rfl⟩ := encrypt_eq_ok_iff.1 h
  · rfl
  · exact decrypt_mark_append key nonce (SealedBox.open?_eq_some_iff.2 hclose)
      (Text.ofUtf8?_eq_some_iff.2 rfl)

theorem isSealed_of_encrypt {key : SealedKey} {nonce : Nonce} {text value : String}
    (h : encrypt key nonce text = .ok value) (hne : text ≠ "") : isSealed value = true := by
  obtain ⟨hempty, -⟩ | ⟨-, box, -, rfl⟩ := encrypt_eq_ok_iff.1 h
  · exact absurd hempty hne
  · exact isSealed_mark_append _

end TrustBoundary.Sealed
