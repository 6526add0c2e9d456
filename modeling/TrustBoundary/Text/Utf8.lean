/-!
# Texts as bytes

`utf8` gives the bytes of a text and `ofUtf8?` the text of bytes, if they are the bytes of one.
Each undoes the other (`ofUtf8?_eq_some_iff`).
-/

namespace TrustBoundary.Text

/-- The UTF-8 bytes of a text. -/
def utf8 (text : String) : List UInt8 := text.toByteArray.data.toList

/-- The text with the given UTF-8 bytes, if there is one. -/
def ofUtf8? (bytes : List UInt8) : Option String := String.fromUTF8? bytes.toByteArray

theorem length_utf8 (text : String) : (utf8 text).length = text.utf8ByteSize := rfl

theorem utf8_toByteArray (text : String) : (utf8 text).toByteArray = text.toByteArray := by
  apply ByteArray.ext
  simp [utf8]

theorem utf8_injective {s t : String} (h : utf8 s = utf8 t) : s = t := by
  rw [← String.toByteArray_inj, ← utf8_toByteArray, ← utf8_toByteArray t, h]

@[simp]
theorem utf8_eq_nil_iff {text : String} : utf8 text = [] ↔ text = "" :=
  ⟨fun h => utf8_injective (h.trans rfl), fun h => h ▸ rfl⟩

theorem length_utf8_ne_zero {text : String} (h : text ≠ "") : (utf8 text).length ≠ 0 := by
  rwa [ne_eq, List.length_eq_zero_iff, utf8_eq_nil_iff]

theorem utf8_append (s t : String) : utf8 (s ++ t) = utf8 s ++ utf8 t := by
  simp [utf8, String.toByteArray_append]

theorem ofUtf8?_eq_some_iff {bytes : List UInt8} {text : String} :
    ofUtf8? bytes = some text ↔ utf8 text = bytes := by
  unfold ofUtf8? String.fromUTF8?
  constructor
  · intro h
    split at h
    · rw [Option.some.injEq] at h
      subst h
      simp [utf8, String.fromUTF8]
    · simp at h
  · rintro rfl
    rw [dif_pos (by rw [utf8_toByteArray]; exact text.isValidUTF8), Option.some.injEq,
      ← String.toByteArray_inj]
    exact utf8_toByteArray text

/-! ### ASCII texts -/

theorem utf8EncodeChar_of_ascii {b : UInt8} (h : b < 128) :
    String.utf8EncodeChar (Char.ofNat b.toNat) = [b] := by
  have h' : ∀ n : Fin 256, UInt8.ofFin n < 128 →
      String.utf8EncodeChar (Char.ofNat (UInt8.ofFin n).toNat) = [.ofFin n] := by
    decide +kernel
  exact h' b.toFin h

/-- A text of ASCII characters has one byte for each. -/
theorem utf8_ofList_of_ascii {bytes : List UInt8} (h : ∀ b ∈ bytes, b < 128) :
    utf8 (String.ofList (bytes.map fun b => Char.ofNat b.toNat)) = bytes := by
  have hlist : utf8 (String.ofList (bytes.map fun b => Char.ofNat b.toNat)) =
      bytes.flatMap fun b => String.utf8EncodeChar (Char.ofNat b.toNat) := by
    simp [utf8, String.toByteArray_ofList, List.utf8Encode, List.flatMap_map]
  rw [hlist]
  clear hlist
  induction bytes with
  | nil => rfl
  | cons b bytes ih =>
    rw [List.flatMap_cons, utf8EncodeChar_of_ascii (h b List.mem_cons_self),
      ih fun x hx => h x (List.mem_cons_of_mem b hx)]
    rfl

end TrustBoundary.Text
