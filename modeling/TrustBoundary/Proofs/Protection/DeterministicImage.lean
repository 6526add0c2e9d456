import TrustBoundary.Proofs.Protection.Deterministic
import TrustBoundary.Proofs.Protection.Recovery

/-!
# Deterministic values are what is stored, and nothing else

The other direction of `decrypt_encrypt`: whatever is read, was stored.  Taking a filling off
(`unpad?_eq_some_iff`), decrypting blocks and reading base64 succeed exactly on what their
counterparts give, so a value that gives a text is the value of that text (`decrypt_eq_ok_iff`), and
every other value is refused for a reason that says what it is not the value of (`Refused`,
`decrypt_eq_error_iff`).  Only the empty text has a second value, since it is stored as it is:
the one whose block is all filling (`exact_image`).
-/

namespace TrustBoundary.Deterministic

/-! ### Fillings -/

/-- Whatever is taken off is a filling. -/
theorem eq_append_of_unpad?_eq_some {bytes text : List UInt8} (h : unpad? bytes = some text) :
    ∃ count, 0 < count ∧ count ≤ blockSize ∧
      bytes = text ++ List.replicate count count.toUInt8 := by
  unfold unpad? at h
  obtain ⟨last, -, h⟩ := Option.bind_eq_some_iff.1 h
  dsimp only at h
  split at h
  · rename_i hfill
    obtain ⟨hpos, hle, -, hdrop⟩ := hfill
    obtain rfl := Option.some.inj h
    refine ⟨last.toNat, hpos, hle, ?_⟩
    rw [← hdrop, List.take_append_drop]
  · cases h

/-- The size of a filling is the one that fills the bytes up. -/
theorem eq_padSize {size count : Nat} (hpos : 0 < count) (hle : count ≤ blockSize)
    (hwhole : (size + count) % blockSize = 0) : count = padSize size := by
  unfold blockSize at hle hwhole
  unfold padSize blockSize
  omega

/-- From whole blocks exactly those bytes are taken that were filled up to them. -/
theorem unpad?_eq_some_iff {bytes text : List UInt8} (hwhole : bytes.length % blockSize = 0) :
    unpad? bytes = some text ↔ bytes = pad text := by
  constructor
  · intro h
    obtain ⟨count, hpos, hle, rfl⟩ := eq_append_of_unpad?_eq_some h
    rw [List.length_append, List.length_replicate] at hwhole
    rw [pad, ← eq_padSize hpos hle hwhole]
  · rintro rfl
    exact unpad?_pad text

/-! ### Blocks -/

/-- The bytes of whole blocks, decrypted. -/
def decipher (key : FieldKey) (raw : List UInt8) : List UInt8 :=
  unblocks ((blocks raw).map (Aes.decrypt key.block))

section

variable {key : FieldKey} {raw bytes : List UInt8}

theorem length_decipher (hwhole : raw.length % blockSize = 0) :
    (decipher key raw).length = raw.length := by
  have hblocks := congrArg List.length (unblocks_blocks hwhole)
  rw [decipher, length_unblocks, List.length_map, ← length_unblocks, hblocks]

theorem map_encrypt_map_decrypt (key : FieldKey) (bs : List Aes.Block) :
    (bs.map (Aes.decrypt key.block)).map (Aes.encrypt key.block) = bs := by
  rw [List.map_map]
  exact (List.map_congr_left fun b _ => Aes.encrypt_decrypt key.block b).trans (List.map_id bs)

/-- Whole blocks are decrypted to some bytes with their filling exactly if they are what is stored
for these bytes. -/
theorem decipher_eq_pad_iff (hwhole : raw.length % blockSize = 0) :
    decipher key raw = pad bytes ↔ raw = encryptBytes key bytes := by
  -- decrypting and encrypting the blocks undo each other, in both directions
  constructor
  · intro h
    rw [encryptBytes, ← h, decipher, blocks_unblocks, map_encrypt_map_decrypt,
      unblocks_blocks hwhole]
  · rintro rfl
    rw [decipher, encryptBytes, blocks_unblocks, map_decrypt_map_encrypt,
      unblocks_blocks (length_pad_mod bytes)]

/-- A count that stands at the end of whole blocks and is no more than a block leads to no place in
front of them. -/
theorem exists_getLast?_decipher (hne : raw ≠ []) (hwhole : raw.length % blockSize = 0) :
    ∃ count, (decipher key raw).getLast? = some count ∧
      (count.toNat ≤ blockSize → count.toNat ≤ (decipher key raw).length) := by
  have hlength : (decipher key raw).length = raw.length := length_decipher hwhole
  have hpos := List.length_pos_iff.2 hne
  have hplain : decipher key raw ≠ [] := by
    rw [← List.length_pos_iff, hlength]
    exact hpos
  -- whole blocks that are some bytes are at least one block
  refine ⟨_, List.getLast?_eq_some_getLast hplain, fun hle => ?_⟩
  rw [hlength]
  unfold blockSize at hle hwhole
  omega

theorem decryptBytes_of_whole (hne : raw ≠ []) (hwhole : raw.length % blockSize = 0) :
    decryptBytes key raw =
      match unpad? (decipher key raw) with
      | some text => .ok text
      | none => .error .badPadding := by
  rw [decryptBytes, if_neg (not_or.2 ⟨hne, not_not_intro hwhole⟩)]
  rfl

theorem decryptBytes_eq_ok_iff :
    decryptBytes key raw = .ok bytes ↔ raw = encryptBytes key bytes := by
  constructor
  · intro h
    by_cases hblocks : raw = [] ∨ raw.length % blockSize ≠ 0
    · rw [decryptBytes, if_pos hblocks] at h
      cases h
    · obtain ⟨hne, hwhole⟩ := not_or.1 hblocks
      replace hwhole := Decidable.not_not.1 hwhole
      rw [decryptBytes_of_whole hne hwhole] at h
      split at h
      · rename_i text htext
        obtain rfl := Except.ok.inj h
        rw [unpad?_eq_some_iff (by rw [length_decipher hwhole, hwhole])] at htext
        exact (decipher_eq_pad_iff hwhole).1 htext
      · cases h
  · rintro rfl
    exact decryptBytes_encryptBytes key bytes

/-- Bytes are refused if they are not some whole blocks, or if they are not stored for any bytes. -/
theorem decryptBytes_eq_error_iff {fault : RecoveryFault} :
    decryptBytes key raw = .error fault ↔
      (raw = [] ∨ raw.length % blockSize ≠ 0) ∧ fault = .notBlocks raw.length ∨
      raw ≠ [] ∧ raw.length % blockSize = 0 ∧ (∀ bytes, raw ≠ encryptBytes key bytes) ∧
        fault = .badPadding := by
  by_cases hblocks : raw = [] ∨ raw.length % blockSize ≠ 0
  · rw [decryptBytes, if_pos hblocks, Except.error.injEq, eq_comm]
    grind
  · obtain ⟨hne, hwhole⟩ := not_or.1 hblocks
    replace hwhole := Decidable.not_not.1 hwhole
    -- the filling can be taken off exactly if the bytes are those stored for some text
    have himage : (∃ text, unpad? (decipher key raw) = some text) ↔
        ∃ text, raw = encryptBytes key text := by
      refine exists_congr fun text => ?_
      rw [unpad?_eq_some_iff (by rw [length_decipher hwhole, hwhole]), decipher_eq_pad_iff hwhole]
    rw [decryptBytes_of_whole hne hwhole]
    cases h : unpad? (decipher key raw) with
    | some text =>
      obtain ⟨bytes, hbytes⟩ := himage.1 ⟨text, h⟩
      grind
    | none =>
      have hnone : ∀ bytes, raw ≠ encryptBytes key bytes := fun bytes hbytes => by
        obtain ⟨text, htext⟩ := himage.2 ⟨bytes, hbytes⟩
        rw [h] at htext
        cases htext
      rw [Except.error.injEq, eq_comm]
      grind

end

/-! ### Values -/

/-- Why a value is refused, said by what is stored and not by how it is read. -/
inductive Refused (key : FieldKey) : String → RecoveryFault → Prop where
  /-- The value is no base64. -/
  | notBase64 {value : String} {e : Base64.Error} :
      Base64.decodeText value = .error e → Refused key value (.notBase64 e)
  /-- The value has bytes, but they are not some whole blocks. -/
  | notBlocks {raw : List UInt8} :
      raw.length % blockSize ≠ 0 → Refused key (Base64.encodeText raw) (.notBlocks raw.length)
  /-- The value has whole blocks, but they are not stored for any bytes. -/
  | badPadding {raw : List UInt8} :
      raw ≠ [] → raw.length % blockSize = 0 → (∀ bytes, raw ≠ encryptBytes key bytes) →
        Refused key (Base64.encodeText raw) .badPadding
  /-- The value is stored for some bytes, but they are not those of a text. -/
  | notText {bytes : List UInt8} :
      Text.ofUtf8? bytes = none → Refused key (Base64.encodeText (encryptBytes key bytes)) .notText

section

variable {key : FieldKey} {value text : String} {fault : RecoveryFault}

theorem decrypt_of_decodeText_eq_error {e : Base64.Error} (h : Base64.decodeText value = .error e) :
    decrypt key value = .error (.notBase64 e) := by
  have hne : value ≠ "" := by
    rintro rfl
    cases h
  rw [decrypt, if_neg (mt String.isEmpty_iff.1 hne), h]
  rfl

theorem decrypt_encodeText (key : FieldKey) {raw : List UInt8} (hne : raw ≠ []) :
    decrypt key (Base64.encodeText raw) = decryptBytes key raw >>= recoverText := by
  rw [decrypt, if_neg (mt String.isEmpty_iff.1 (Base64.encodeText_ne_empty hne)),
    Base64.decodeText_encodeText]
  refine congrArg (decryptBytes key raw >>= ·) (funext fun bytes => ?_)
  rw [recoverText]
  cases Text.ofUtf8? bytes <;> rfl

theorem decrypt_encodeText_eq_ok_iff {raw : List UInt8} (hne : raw ≠ []) :
    decrypt key (Base64.encodeText raw) = .ok text ↔ raw = encryptBytes key (Text.utf8 text) := by
  rw [decrypt_encodeText key hne, bind_eq_ok_iff]
  simp only [decryptBytes_eq_ok_iff, recoverText_eq_ok_iff, exists_eq_right']

/-- What is read back: the empty value as the empty text, and what is stored for the bytes of a
text as this text. -/
theorem decrypt_eq_ok_iff :
    decrypt key value = .ok text ↔ value = "" ∧ text = "" ∨
      value = Base64.encodeText (encryptBytes key (Text.utf8 text)) := by
  constructor
  · intro h
    cases hraw : Base64.decodeText value with
    | error e =>
      rw [decrypt_of_decodeText_eq_error hraw] at h
      cases h
    | ok raw =>
      obtain rfl := Base64.decodeText_eq_ok_iff.1 hraw
      by_cases hne : raw = []
      · -- no bytes at all are the base64 of the empty value
        subst hne
        exact .inl ⟨rfl, (Except.ok.inj h).symm⟩
      · rw [(decrypt_encodeText_eq_ok_iff hne).1 h]
        exact .inr rfl
  · rintro (⟨rfl, rfl⟩ | rfl)
    · rfl
    · exact (decrypt_encodeText_eq_ok_iff (encryptBytes_ne_nil key _)).2 rfl

theorem decrypt_encodeText_eq_error_iff {raw : List UInt8} (hne : raw ≠ []) :
    decrypt key (Base64.encodeText raw) = .error fault ↔
      raw.length % blockSize ≠ 0 ∧ fault = .notBlocks raw.length ∨
      raw.length % blockSize = 0 ∧ (∀ bytes, raw ≠ encryptBytes key bytes) ∧
        fault = .badPadding ∨
      ∃ bytes, raw = encryptBytes key bytes ∧ Text.ofUtf8? bytes = none ∧ fault = .notText := by
  rw [decrypt_encodeText key hne, bind_eq_error_iff, decryptBytes_eq_error_iff, or_assoc]
  simp only [decryptBytes_eq_ok_iff, recoverText_eq_error_iff, hne, false_or, not_false_eq_true,
    true_and, ne_eq]

/-- A value is refused exactly if there is a reason for it. -/
theorem decrypt_eq_error_iff : decrypt key value = .error fault ↔ Refused key value fault := by
  constructor
  · intro h
    cases hraw : Base64.decodeText value with
    | error e =>
      rw [decrypt_of_decodeText_eq_error hraw] at h
      obtain rfl := Except.error.inj h
      exact .notBase64 hraw
    | ok raw =>
      obtain rfl := Base64.decodeText_eq_ok_iff.1 hraw
      have hne : raw ≠ [] := by
        rintro rfl
        cases h
      obtain ⟨hrest, rfl⟩ | ⟨hwhole, hnone, rfl⟩ | ⟨bytes, rfl, hutf8, rfl⟩ :=
        (decrypt_encodeText_eq_error_iff hne).1 h
      · exact .notBlocks hrest
      · exact .badPadding hne hwhole hnone
      · exact .notText hutf8
  · intro h
    cases h with
    | notBase64 he => exact decrypt_of_decodeText_eq_error he
    | @notBlocks raw hrest =>
      have hne : raw ≠ [] := by
        rintro rfl
        exact hrest rfl
      exact (decrypt_encodeText_eq_error_iff hne).2 (.inl ⟨hrest, rfl⟩)
    | badPadding hne hwhole hnone =>
      exact (decrypt_encodeText_eq_error_iff hne).2 (.inr (.inl ⟨hwhole, hnone, rfl⟩))
    | notText hutf8 =>
      exact (decrypt_encodeText_eq_error_iff (encryptBytes_ne_nil key _)).2
        (.inr (.inr ⟨_, rfl, hutf8, rfl⟩))

end

/-! ### The image -/

/-- The value whose one block is all filling: sixteen times the byte sixteen, encrypted. -/
def fillingValue (key : FieldKey) : String :=
  Base64.encodeText
    (Aes.encrypt key.block (Aes.Block.ofBytes (List.replicate 16 0x10))).toBytes

/-- It is what would be stored for no bytes at all. -/
theorem encodeText_encryptBytes_nil (key : FieldKey) :
    Base64.encodeText (encryptBytes key []) = fillingValue key := by
  have hblocks : blocks (pad []) = [Aes.Block.ofBytes (List.replicate 16 0x10)] := by decide
  rw [encryptBytes, hblocks]
  rfl

theorem decrypt_eq_ok_empty_iff {key : FieldKey} {value : String} :
    decrypt key value = .ok "" ↔ value = "" ∨ value = fillingValue key := by
  rw [decrypt_eq_ok_iff, ← encodeText_encryptBytes_nil]
  exact or_congr_left (and_iff_left rfl)

theorem decrypt_eq_ok_iff_of_ne_empty {key : FieldKey} {value text : String} (hne : text ≠ "") :
    decrypt key value = .ok text ↔ encrypt key text = value := by
  rw [decrypt_eq_ok_iff, encrypt_of_ne_empty key hne]
  exact (or_iff_right fun hempty => hne hempty.2).trans eq_comm

/-- A text that is not empty is read from its own value only, and the empty text from the empty
value and from one other, whose block is all filling.  Every other value is refused for one of four
reasons, and the filling that a value tells of is never longer than what was decrypted.  So no two
values give one text that is not empty. -/
theorem exact_image (key : FieldKey) (value : String) :
    (∀ text, text ≠ "" → (decrypt key value = .ok text ↔ encrypt key text = value)) ∧
      (value ≠ "" → (decrypt key value = .ok "" ↔ value = fillingValue key)) ∧
      ((∀ text, encrypt key text ≠ value) → value ≠ fillingValue key →
        ∃ fault, decrypt key value = .error fault) ∧
      (∀ fault, decrypt key value = .error fault ↔ Refused key value fault) ∧
      (∀ raw, raw ≠ [] → raw.length % blockSize = 0 →
        ∃ count, (decipher key raw).getLast? = some count ∧
          (count.toNat ≤ blockSize → count.toNat ≤ (decipher key raw).length)) ∧
      ∀ text, text ≠ "" → decrypt key value = .ok text →
        ∀ other, decrypt key other = .ok text → other = value := by
  refine ⟨fun text hne => decrypt_eq_ok_iff_of_ne_empty hne,
    fun hvalue => decrypt_eq_ok_empty_iff.trans (or_iff_right hvalue), fun hnone hfilling => ?_,
    fun fault => decrypt_eq_error_iff, fun raw hne hwhole => exists_getLast?_decipher hne hwhole,
    fun text hne hread other hother => ?_⟩
  · cases h : decrypt key value with
    | error fault => exact ⟨fault, rfl⟩
    | ok text =>
      by_cases hempty : text = ""
      · -- the empty text is read from no other value than these two
        subst hempty
        obtain rfl | rfl := decrypt_eq_ok_empty_iff.1 h
        · exact absurd rfl (hnone "")
        · exact absurd rfl hfilling
      · exact absurd ((decrypt_eq_ok_iff_of_ne_empty hempty).1 h) (hnone text)
  · -- both values are the one that is stored for the text
    rw [decrypt_eq_ok_iff_of_ne_empty hne] at hread hother
    rw [← hother, hread]

/-- The one value of a text, and a value of the empty text that is not empty itself. -/
theorem exact_image_fieldSecret :
    decrypt (.ofSecret "field secret") "ePcqgK6SVvPOq+rAbfz8WQ==" = .ok "é" ∧
      (∀ other, decrypt (.ofSecret "field secret") other = .ok "é" →
        other = "ePcqgK6SVvPOq+rAbfz8WQ==") ∧
      decrypt (.ofSecret "field secret") "W8R2g3Mod7weBD06gRrkgg==" = .ok "" := by
  obtain ⟨htext, -, -, -, -, hone⟩ :=
    exact_image (.ofSecret "field secret") "ePcqgK6SVvPOq+rAbfz8WQ=="
  obtain ⟨-, hfilling, -⟩ := exact_image (.ofSecret "field secret") "W8R2g3Mod7weBD06gRrkgg=="
  have hne : "é" ≠ "" := by decide
  have hread := (htext "é" hne).2 (by decide +kernel)
  exact ⟨hread, hone "é" hne hread, (hfilling (by decide)).2 (by decide +kernel)⟩

end TrustBoundary.Deterministic
