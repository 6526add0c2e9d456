import TrustBoundary.Proofs.Protection.Recovery
import TrustBoundary.Proofs.Protection.Sealed
import TrustBoundary.Text.Base64.Size

/-!
# Sealed values are what can be sealed, and nothing else

A value that is not empty gives a text exactly if it is the mark and, in base64, a nonce and the box
that closes on the text under this nonce (`decrypt_eq_ok_iff`); every other value is refused, for a
reason that says where it leaves this form (`Refused`, `decrypt_eq_error_iff`).  In particular no
value is left readable by another tag, by a body without room for nonce and tag, or by another
filling of its base64 (`exact_opening`).
-/

namespace TrustBoundary.Sealed

/-! ### The form of values -/

/-- The mark, and in base64 a nonce and a box. -/
def frame (nonce : Nonce) (box : List UInt8) : String :=
  String.ofList mark ++ Base64.encodeText (nonce.bytes ++ box)

/-- A value with the mark is the mark and something behind it. -/
theorem exists_of_isSealed {value : String} (h : isSealed value = true) :
    ∃ body, value = String.ofList mark ++ body := by
  rw [isSealed, List.isPrefixOf_iff_prefix] at h
  obtain ⟨rest, hrest⟩ := h
  refine ⟨String.ofList rest, ?_⟩
  rw [← String.ofList_append, hrest, String.ofList_toList]

/-- Bytes that have room for a nonce and a tag are a nonce and what may be a box. -/
theorem exists_nonce_append {raw : List UInt8} (h : minSize ≤ raw.length) :
    ∃ (nonce : Nonce) (box : List UInt8),
      raw = nonce.bytes ++ box ∧ SealedBox.tagSize ≤ box.length := by
  unfold minSize at h
  have hnonce : (raw.take 12).length = 12 := by
    rw [List.length_take]
    omega
  refine ⟨⟨raw.take 12, hnonce⟩, raw.drop 12, (List.take_append_drop 12 raw).symm, ?_⟩
  rw [List.length_drop]
  omega

/-- The forms that values have. -/
theorem cases_of_value (value : String) :
    value = "" ∨ value ≠ "" ∧ isSealed value = false ∨
      (∃ body e, value = String.ofList mark ++ body ∧ Base64.decodeText body = .error e) ∨
      (∃ raw, value = String.ofList mark ++ Base64.encodeText raw ∧ raw.length < minSize) ∨
      ∃ nonce box, value = frame nonce box ∧ SealedBox.tagSize ≤ box.length := by
  by_cases hempty : value = ""
  · exact .inl hempty
  cases hmark : isSealed value with
  | false => exact .inr (.inl ⟨hempty, rfl⟩)
  | true =>
    obtain ⟨body, rfl⟩ := exists_of_isSealed hmark
    cases hbody : Base64.decodeText body with
    | error e => exact .inr (.inr (.inl ⟨body, e, rfl, hbody⟩))
    | ok raw =>
      obtain rfl := Base64.decodeText_eq_ok_iff.1 hbody
      rcases Nat.lt_or_ge raw.length minSize with hshort | hroom
      · exact .inr (.inr (.inr (.inl ⟨raw, rfl, hshort⟩)))
      · obtain ⟨nonce, box, rfl, hbox⟩ := exists_nonce_append hroom
        exact .inr (.inr (.inr (.inr ⟨nonce, box, rfl, hbox⟩)))

/-! ### Each form is read -/

section

variable {key : SealedKey} {value text : String} {fault : RecoveryFault}

theorem decrypt_of_isSealed_eq_false (hne : value ≠ "") (h : isSealed value = false) :
    decrypt key value = .error .notSealed := by
  have hbody : body? value = none := by
    rw [body?, h, if_neg Bool.false_ne_true]
  rw [decrypt, if_neg (mt String.isEmpty_iff.1 hne), hbody]

theorem decrypt_of_decodeText_eq_error {body : String} {e : Base64.Error}
    (h : Base64.decodeText body = .error e) :
    decrypt key (String.ofList mark ++ body) = .error (.notBase64 e) := by
  rw [decrypt, if_neg (mt String.isEmpty_iff.1 (mark_append_ne_empty _)), body?_mark_append]
  simp only [h]
  rfl

theorem decrypt_of_length_lt {raw : List UInt8} (h : raw.length < minSize) :
    decrypt key (String.ofList mark ++ Base64.encodeText raw) = .error (.tooShort raw.length) := by
  rw [decrypt, if_neg (mt String.isEmpty_iff.1 (mark_append_ne_empty _)), body?_mark_append]
  simp only [Base64.decodeText_encodeText]
  show Except.ok raw >>= _ = _
  simp only [bind, Except.bind, if_pos h]
  rfl

theorem decrypt_frame (key : SealedKey) (nonce : Nonce) {box : List UInt8}
    (hbox : SealedBox.tagSize ≤ box.length) :
    decrypt key (frame nonce box) =
      match SealedBox.open? key.bytes nonce.bytes box with
      | none => .error .notAuthentic
      | some bytes => recoverText bytes := by
  have hsize : ¬ (nonce.bytes ++ box).length < minSize := by
    rw [List.length_append, nonce.length_eq, minSize]
    omega
  have htake : (nonce.bytes ++ box).take 12 = nonce.bytes := List.take_left' nonce.length_eq
  have hdrop : (nonce.bytes ++ box).drop 12 = box := List.drop_left' nonce.length_eq
  rw [decrypt, frame, if_neg (mt String.isEmpty_iff.1 (mark_append_ne_empty _)), body?_mark_append]
  simp only [Base64.decodeText_encodeText]
  show Except.ok (nonce.bytes ++ box) >>= _ = _
  simp only [bind, Except.bind, if_neg hsize, htake, hdrop]
  cases SealedBox.open? key.bytes nonce.bytes box with
  | none => rfl
  | some bytes => cases htext : Text.ofUtf8? bytes <;> simp only [recoverText, htext] <;> rfl

/-- What is read back: the empty value as the empty text, and a nonce with the box that closes on a
text under it as this text. -/
theorem decrypt_eq_ok_iff :
    decrypt key value = .ok text ↔ value = "" ∧ text = "" ∨
      ∃ nonce box, SealedBox.close? key.bytes nonce.bytes (Text.utf8 text) = some box ∧
        value = frame nonce box := by
  constructor
  · intro h
    obtain rfl | ⟨hne, hmark⟩ | ⟨body, e, rfl, hbody⟩ | ⟨raw, rfl, hshort⟩ |
      ⟨nonce, box, rfl, hbox⟩ := cases_of_value value
    · exact .inl ⟨rfl, (Except.ok.inj h).symm⟩
    · rw [decrypt_of_isSealed_eq_false hne hmark] at h
      cases h
    · rw [decrypt_of_decodeText_eq_error hbody] at h
      cases h
    · rw [decrypt_of_length_lt hshort] at h
      cases h
    · -- just the last of the five forms can be read
      rw [decrypt_frame key nonce hbox] at h
      split at h
      · cases h
      · rename_i bytes hopen
        obtain rfl := recoverText_eq_ok_iff.1 h
        exact .inr ⟨nonce, box, SealedBox.open?_eq_some_iff.1 hopen, rfl⟩
  · rintro (⟨rfl, rfl⟩ | ⟨nonce, box, hclose, rfl⟩)
    · rfl
    · exact decrypt_mark_append key nonce (SealedBox.open?_eq_some_iff.2 hclose)
        (Text.ofUtf8?_eq_some_iff.2 rfl)

/-! ### Refusals -/

/-- Why a value is refused, said by what can be sealed and not by how it is read. -/
inductive Refused (key : SealedKey) : String → RecoveryFault → Prop where
  /-- The value is not empty and has not the mark. -/
  | notSealed {value : String} :
      value ≠ "" → isSealed value = false → Refused key value .notSealed
  /-- What is behind the mark is no base64. -/
  | notBase64 {body : String} {e : Base64.Error} :
      Base64.decodeText body = .error e → Refused key (String.ofList mark ++ body) (.notBase64 e)
  /-- Behind the mark there is no room for a nonce and a tag. -/
  | tooShort {raw : List UInt8} :
      raw.length < minSize →
        Refused key (String.ofList mark ++ Base64.encodeText raw) (.tooShort raw.length)
  /-- The box closes on no bytes under the nonce. -/
  | notAuthentic {nonce : Nonce} {box : List UInt8} :
      SealedBox.tagSize ≤ box.length →
        (∀ bytes, SealedBox.close? key.bytes nonce.bytes bytes ≠ some box) →
        Refused key (frame nonce box) .notAuthentic
  /-- The box closes on some bytes, but they are not those of a text. -/
  | notText {nonce : Nonce} {box bytes : List UInt8} :
      SealedBox.close? key.bytes nonce.bytes bytes = some box → Text.ofUtf8? bytes = none →
        Refused key (frame nonce box) .notText

theorem tagSize_le_of_close? {nonce box bytes : List UInt8}
    (h : SealedBox.close? key.bytes nonce bytes = some box) :
    SealedBox.tagSize ≤ box.length := by
  rw [SealedBox.length_of_close? h]
  exact Nat.le_add_left _ _

/-- A value is refused exactly if there is a reason for it. -/
theorem decrypt_eq_error_iff : decrypt key value = .error fault ↔ Refused key value fault := by
  constructor
  · intro h
    -- one reason for each form but the empty value, and two for a box
    obtain rfl | ⟨hne, hmark⟩ | ⟨body, e, rfl, hbody⟩ | ⟨raw, rfl, hshort⟩ |
      ⟨nonce, box, rfl, hbox⟩ := cases_of_value value
    · cases h
    · rw [decrypt_of_isSealed_eq_false hne hmark] at h
      obtain rfl := Except.error.inj h
      exact .notSealed hne hmark
    · rw [decrypt_of_decodeText_eq_error hbody] at h
      obtain rfl := Except.error.inj h
      exact .notBase64 hbody
    · rw [decrypt_of_length_lt hshort] at h
      obtain rfl := Except.error.inj h
      exact .tooShort hshort
    · rw [decrypt_frame key nonce hbox] at h
      split at h
      · rename_i hopen
        obtain rfl := Except.error.inj h
        refine .notAuthentic hbox fun bytes hclose => ?_
        rw [SealedBox.open?_eq_some_iff.2 hclose] at hopen
        cases hopen
      · rename_i bytes hopen
        obtain ⟨htext, rfl⟩ := recoverText_eq_error_iff.1 h
        exact .notText (SealedBox.open?_eq_some_iff.1 hopen) htext
  · intro h
    cases h with
    | notSealed hne hmark => exact decrypt_of_isSealed_eq_false hne hmark
    | notBase64 hbody => exact decrypt_of_decodeText_eq_error hbody
    | tooShort hshort => exact decrypt_of_length_lt hshort
    | @notAuthentic nonce box hbox hnone =>
      have hopen : SealedBox.open? key.bytes nonce.bytes box = none :=
        Option.eq_none_iff_forall_ne_some.2 fun bytes hopen =>
          hnone bytes (SealedBox.open?_eq_some_iff.1 hopen)
      rw [decrypt_frame key nonce hbox, hopen]
    | notText hclose htext =>
      rw [decrypt_frame key _ (tagSize_le_of_close? hclose), SealedBox.open?_eq_some_iff.2 hclose]
      exact recoverText_eq_error_iff.2 ⟨htext, rfl⟩

end

/-! ### What leaves a value unreadable -/

theorem mark_append_inj {a b : String} (h : String.ofList mark ++ a = String.ofList mark ++ b) :
    a = b := by
  have hbody := congrArg body? h
  rw [body?_mark_append, body?_mark_append] at hbody
  exact Option.some.inj hbody

section

variable {key : SealedKey} {text : String}

/-- A box closes with the tag of the hidden bytes in it. -/
theorem eq_tag_of_close? {nonce bytes hidden tag : List UInt8}
    (h : SealedBox.close? key.bytes nonce bytes = some (hidden ++ tag))
    (htag : tag.length = SealedBox.tagSize) : tag = SealedBox.tag key.bytes nonce hidden := by
  unfold SealedBox.close? at h
  split at h
  · have hlength : (SealedBox.tag key.bytes nonce (SealedBox.veil key.bytes nonce bytes)).length =
        tag.length := by
      rw [SealedBox.length_tag, htag]
    -- both tags have the same length, so they stand for the same end
    obtain ⟨hhidden, htail⟩ := List.append_inj' (Option.some.inj h) hlength
    rw [← htail, hhidden]
  · cases h

theorem exists_of_decrypt_frame {nonce : Nonce} {box : List UInt8}
    (h : decrypt key (frame nonce box) = .ok text) (hbox : SealedBox.tagSize ≤ box.length) :
    ∃ bytes, SealedBox.close? key.bytes nonce.bytes bytes = some box := by
  rw [decrypt_frame key nonce hbox] at h
  split at h
  · cases h
  · rename_i bytes hopen
    exact ⟨bytes, SealedBox.open?_eq_some_iff.1 hopen⟩

/-- With another tag a value is refused. -/
theorem decrypt_of_tag_ne {nonce : Nonce} {hidden tag other : List UInt8}
    (h : decrypt key (frame nonce (hidden ++ tag)) = .ok text)
    (htag : tag.length = SealedBox.tagSize) (hother : other.length = SealedBox.tagSize)
    (hne : other ≠ tag) :
    decrypt key (frame nonce (hidden ++ other)) = .error .notAuthentic := by
  have hroom : ∀ t : List UInt8, t.length = SealedBox.tagSize →
      SealedBox.tagSize ≤ (hidden ++ t).length := fun t ht => by
    rw [List.length_append, ht]
    exact Nat.le_add_left _ _
  obtain ⟨bytes, hclose⟩ := exists_of_decrypt_frame h (hroom tag htag)
  refine decrypt_eq_error_iff.2 (.notAuthentic (hroom other hother) fun bytes' hclose' => hne ?_)
  -- both tags are the tag of the same hidden bytes
  rw [eq_tag_of_close? hclose htag, eq_tag_of_close? hclose' hother]

/-- With its base64 filled up in another way a value is refused. -/
theorem exists_decrypt_of_fill_ne {stem : String} {m n : Nat} (hstem : '=' ∉ stem.toList)
    (h : decrypt key (String.ofList mark ++ (stem ++ String.ofList (List.replicate m '='))) =
      .ok text) (hne : n ≠ m) :
    ∃ e, decrypt key (String.ofList mark ++ (stem ++ String.ofList (List.replicate n '='))) =
      .error (.notBase64 e) := by
  obtain ⟨hempty, -⟩ | ⟨nonce, box, -, hvalue⟩ := decrypt_eq_ok_iff.1 h
  · exact absurd hempty (mark_append_ne_empty _)
  · -- base64 of some bytes is filled up in one way only
    cases hbody : Base64.decodeText (stem ++ String.ofList (List.replicate n '=')) with
    | error e => exact ⟨e, decrypt_of_decodeText_eq_error hbody⟩
    | ok raw =>
      have hother := Base64.decodeText_eq_ok_iff.1 hbody
      have hown := mark_append_inj hvalue
      exact absurd (Base64.eq_of_encodeText_eq_append hstem hother.symm hown.symm) hne

end

/-- A value gives a text exactly if both are empty or the value is the mark and, in base64, a nonce
and the box that closes on the text under it; a text that is not empty is read from exactly the
values that are sealed of it.  Everything else is refused for one of five reasons: so is a readable
value with another tag in place of its own, with fewer bytes than those of a nonce and a tag, or
with another filling of its base64. -/
theorem exact_opening (key : SealedKey) (value : String) :
    (∀ text, decrypt key value = .ok text ↔ value = "" ∧ text = "" ∨
      ∃ nonce box, SealedBox.close? key.bytes nonce.bytes (Text.utf8 text) = some box ∧
        value = frame nonce box) ∧
      (∀ text, text ≠ "" →
        (decrypt key value = .ok text ↔ ∃ nonce, encrypt key nonce text = .ok value)) ∧
      (value ≠ "" → (∀ text nonce box,
        SealedBox.close? key.bytes nonce.bytes (Text.utf8 text) = some box →
          value ≠ frame nonce box) → ∃ fault, decrypt key value = .error fault) ∧
      (∀ fault, decrypt key value = .error fault ↔ Refused key value fault) ∧
      (∀ text, decrypt key value = .ok text → ∀ nonce hidden tag other,
        value = frame nonce (hidden ++ tag) → tag.length = 16 → other.length = 16 → other ≠ tag →
          decrypt key (frame nonce (hidden ++ other)) = .error .notAuthentic) ∧
      (∀ raw, raw.length < 28 →
        decrypt key (String.ofList mark ++ Base64.encodeText raw) =
          .error (.tooShort raw.length)) ∧
      ∀ text, decrypt key value = .ok text → ∀ stem m n,
        value = String.ofList mark ++ (stem ++ String.ofList (List.replicate m '=')) →
          '=' ∉ stem.toList → n ≠ m →
            ∃ e, decrypt key (String.ofList mark ++
              (stem ++ String.ofList (List.replicate n '='))) = .error (.notBase64 e) := by
  refine ⟨fun text => decrypt_eq_ok_iff, fun text hne => ?_, fun hvalue hnone => ?_,
    fun fault => decrypt_eq_error_iff, ?_, fun raw hshort => decrypt_of_length_lt hshort, ?_⟩
  · simp only [decrypt_eq_ok_iff, encrypt_eq_ok_iff, hne, and_false, false_or, false_and, frame,
      not_false_eq_true, ne_eq, true_and]
  · cases h : decrypt key value with
    | error fault => exact ⟨fault, rfl⟩
    | ok text =>
      obtain ⟨hempty, -⟩ | ⟨nonce, box, hclose, hframe⟩ := decrypt_eq_ok_iff.1 h
      · exact absurd hempty hvalue
      · exact absurd hframe (hnone text nonce box hclose)
  · rintro text h nonce hidden tag other rfl htag hother hne
    exact decrypt_of_tag_ne h htag hother hne
  · rintro text h stem m n rfl hstem hne
    exact exists_decrypt_of_fill_ne hstem h hne

/-- A value and what it gives, with another tag, and without the filling of its base64. -/
theorem exact_opening_filled :
    ∃ key : SealedKey, key.bytes = List.replicate 32 7 ∧
      decrypt key "s1:BwAAAAAAAAAAAAAAlVz6wQ/GnssZ/TSWtZpeGJwdhm0=" = .ok "é12" ∧
      decrypt key (frame (.ofNat 7) ([149, 92, 250, 193] ++ List.replicate 16 0)) =
        .error .notAuthentic ∧
      ∃ e, decrypt key "s1:BwAAAAAAAAAAAAAAlVz6wQ/GnssZ/TSWtZpeGJwdhm0" =
        .error (.notBase64 e) := by
  let key : SealedKey := ⟨List.replicate 32 7, rfl⟩
  let tag : List UInt8 := [15, 198, 158, 203, 25, 253, 52, 150, 181, 154, 94, 24, 156, 29, 134, 109]
  obtain ⟨hread, -, -, -, htag, -, hfill⟩ :=
    exact_opening key "s1:BwAAAAAAAAAAAAAAlVz6wQ/GnssZ/TSWtZpeGJwdhm0="
  have hvalue : "s1:BwAAAAAAAAAAAAAAlVz6wQ/GnssZ/TSWtZpeGJwdhm0=" =
      frame (.ofNat 7) ([149, 92, 250, 193] ++ tag) := by decide +kernel
  have hclose : SealedBox.close? key.bytes (Nonce.ofNat 7).bytes (Text.utf8 "é12") =
      some ([149, 92, 250, 193] ++ tag) := by decide +kernel
  have htext := (hread "é12").2 (.inr ⟨_, _, hclose, hvalue⟩)
  exact ⟨key, rfl, htext, htag _ htext _ _ _ _ hvalue rfl rfl (by decide),
    hfill _ htext "BwAAAAAAAAAAAAAAlVz6wQ/GnssZ/TSWtZpeGJwdhm0" 1 0 rfl (by decide) (by decide)⟩

end TrustBoundary.Sealed
