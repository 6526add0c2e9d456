import TrustBoundary.Cipher.Aes.Inverse
import TrustBoundary.Protection.Deterministic
import TrustBoundary.Text.Base64.Inverse

/-!
# Deterministic values are recovered

Every part of the protection is undone by its counterpart: the filling (`unpad?_pad`), the cutting
into blocks (`unblocks_blocks`), the encryption of each block, and the writing in base64.  So the
text comes back from the value that is stored for it (`decrypt_encrypt`).
-/

namespace TrustBoundary.Deterministic

/-! ### Filling -/

theorem padSize_bounds (size : Nat) : 0 < padSize size ∧ padSize size ≤ blockSize := by
  unfold padSize blockSize
  omega

theorem toNat_padSize (size : Nat) : (padSize size).toUInt8.toNat = padSize size := by
  have hle := (padSize_bounds size).2
  rw [Nat.toUInt8_eq, UInt8.toNat_ofNat']
  unfold blockSize at hle
  omega

theorem length_pad (bytes : List UInt8) :
    (pad bytes).length = bytes.length + padSize bytes.length := by
  rw [pad, List.length_append, List.length_replicate]

/-- Filled up, bytes are some whole blocks. -/
theorem length_pad_mod (bytes : List UInt8) : (pad bytes).length % blockSize = 0 := by
  rw [length_pad]
  unfold padSize blockSize
  omega

theorem pad_ne_nil (bytes : List UInt8) : pad bytes ≠ [] := by
  have hpos := (padSize_bounds bytes.length).1
  have hlength := length_pad bytes
  intro hnil
  rw [hnil, List.length_nil] at hlength
  omega

theorem getLast?_pad (bytes : List UInt8) :
    (pad bytes).getLast? = some (padSize bytes.length).toUInt8 := by
  have hpos := (padSize_bounds bytes.length).1
  rw [pad, List.getLast?_append, List.getLast?_replicate, if_neg (Nat.ne_of_gt hpos)]
  rfl

theorem unpad?_pad (bytes : List UInt8) : unpad? (pad bytes) = some bytes := by
  obtain ⟨hpos, hle⟩ := padSize_bounds bytes.length
  have hsize : (pad bytes).length - padSize bytes.length = bytes.length := by
    rw [length_pad, Nat.add_sub_cancel]
  have hfits : padSize bytes.length ≤ (pad bytes).length := by
    rw [length_pad]
    exact Nat.le_add_left _ _
  have hdrop : (pad bytes).drop bytes.length =
      List.replicate (padSize bytes.length) (padSize bytes.length).toUInt8 := List.drop_left
  have htake : (pad bytes).take bytes.length = bytes := List.take_left
  simp only [unpad?, getLast?_pad, Option.bind_eq_bind, Option.bind_some, toNat_padSize, hsize]
  rw [if_pos ⟨hpos, hle, hfits, hdrop⟩, htake]

/-! ### Blocks -/

theorem unblocks_blocks {bytes : List UInt8} (h : bytes.length % blockSize = 0) :
    unblocks (blocks bytes) = bytes := by
  unfold blockSize at h
  have hrows : (Quad.group bytes).length % 4 = 0 := by
    rw [Quad.length_group]
    omega
  -- the rows of a block come from whole groups of bytes, its blocks from whole groups of rows
  rw [unblocks, blocks, Quad.ungroup_group _ hrows, Quad.ungroup_group _ (by omega)]

theorem blocks_unblocks (bs : List Aes.Block) : blocks (unblocks bs) = bs := by
  rw [blocks, unblocks, Quad.group_ungroup, Quad.group_ungroup]

theorem length_unblocks (bs : List Aes.Block) :
    (unblocks bs).length = blockSize * bs.length := by
  rw [unblocks, Quad.length_ungroup, Quad.length_ungroup]
  unfold blockSize
  omega

theorem map_decrypt_map_encrypt (key : FieldKey) (bs : List Aes.Block) :
    (bs.map (Aes.encrypt key.block)).map (Aes.decrypt key.block) = bs := by
  rw [List.map_map]
  exact (List.map_congr_left fun b _ => Aes.decrypt_encrypt key.block b).trans (List.map_id bs)

/-! ### Bytes and texts -/

theorem length_encryptBytes (key : FieldKey) (bytes : List UInt8) :
    (encryptBytes key bytes).length = (pad bytes).length := by
  have hblocks := congrArg List.length (unblocks_blocks (length_pad_mod bytes))
  rw [encryptBytes, length_unblocks, List.length_map, ← length_unblocks, hblocks]

theorem encryptBytes_ne_nil (key : FieldKey) (bytes : List UInt8) :
    encryptBytes key bytes ≠ [] := by
  rw [← List.length_pos_iff, length_encryptBytes, List.length_pos_iff]
  exact pad_ne_nil bytes

theorem decryptBytes_encryptBytes (key : FieldKey) (bytes : List UInt8) :
    decryptBytes key (encryptBytes key bytes) = .ok bytes := by
  have hwhole : ¬ (encryptBytes key bytes = [] ∨
      (encryptBytes key bytes).length % blockSize ≠ 0) := by
    rw [length_encryptBytes]
    rintro (hnil | hrest)
    · exact encryptBytes_ne_nil key bytes hnil
    · exact hrest (length_pad_mod bytes)
  -- what is decrypted is the text with its filling
  have hplain : unblocks ((blocks (encryptBytes key bytes)).map (Aes.decrypt key.block)) =
      pad bytes := by
    rw [encryptBytes, blocks_unblocks, map_decrypt_map_encrypt,
      unblocks_blocks (length_pad_mod bytes)]
  rw [decryptBytes, if_neg hwhole, hplain, unpad?_pad]

theorem encrypt_of_ne_empty (key : FieldKey) {text : String} (hne : text ≠ "") :
    encrypt key text = Base64.encodeText (encryptBytes key (Text.utf8 text)) :=
  if_neg (mt String.isEmpty_iff.1 hne)

/-- The bytes behind the value of a text that is not empty. -/
theorem decodeText_encrypt (key : FieldKey) {text : String} (hne : text ≠ "") :
    Base64.decodeText (encrypt key text) = .ok (encryptBytes key (Text.utf8 text)) := by
  rw [encrypt_of_ne_empty key hne, Base64.decodeText_encodeText]

/-- Under every key the text comes back from the value that is stored for it. -/
theorem decrypt_encrypt (key : FieldKey) (text : String) :
    decrypt key (encrypt key text) = .ok text := by
  unfold encrypt
  split
  · -- the empty text is its own value
    rename_i hempty
    rw [String.isEmpty_iff.1 hempty]
    rfl
  · have hne := Base64.encodeText_ne_empty (encryptBytes_ne_nil key (Text.utf8 text))
    have htext : Text.ofUtf8? (Text.utf8 text) = some text := Text.ofUtf8?_eq_some_iff.2 rfl
    rw [decrypt, if_neg (mt String.isEmpty_iff.1 hne), Base64.decodeText_encodeText]
    show decryptBytes key (encryptBytes key (Text.utf8 text)) >>= _ = _
    simp only [decryptBytes_encryptBytes, bind, Except.bind, htext]
    rfl

/-- A deterministic value has no colon. -/
theorem colon_notMem_encrypt (key : FieldKey) (text : String) :
    ':' ∉ (encrypt key text).toList := by
  unfold encrypt
  split
  · exact List.not_mem_nil
  · exact Base64.colon_notMem_encodeText _

end TrustBoundary.Deterministic
