import TrustBoundary.Proofs.Protection.Deterministic

/-!
# What deterministic values show

Every block of a text is encrypted on its own and always alike, so whoever sees two values sees
which blocks of their texts are equal, filled up as they are stored: the blocks of the values are
equal at the same places (`blockAt_stored_eq_iff`).  Values begin alike as far as their texts do in
whole blocks, and two values are equal only if their texts are.  Encryption under one key never
takes two blocks to one (`Aes.encrypt_inj`), so no other blocks look equal.
-/

namespace TrustBoundary

/-! ### Blocks -/

theorem Quad.toList_inj {α : Type} {p q : Quad α} : p.toList = q.toList ↔ p = q := by
  obtain ⟨a, b, c, d⟩ := p
  obtain ⟨a', b', c', d'⟩ := q
  simp [toList]

namespace Aes

theorem Block.toBytes_inj {b c : Block} : b.toBytes = c.toBytes ↔ b = c := by
  constructor
  · intro h
    have hrows := congrArg Quad.group h
    rw [Block.toBytes, Block.toBytes, Quad.group_ungroup, Quad.group_ungroup] at hrows
    exact Quad.toList_inj.1 hrows
  · exact congrArg Block.toBytes

theorem Block.length_toBytes (b : Block) : b.toBytes.length = 16 := by
  rw [Block.toBytes, Quad.length_ungroup, Quad.length_toList]

/-- Under one key no two blocks are encrypted alike. -/
theorem encrypt_inj {key b c : Block} : encrypt key b = encrypt key c ↔ b = c := by
  constructor
  · intro h
    rw [← decrypt_encrypt key b, h, decrypt_encrypt]
  · exact congrArg (encrypt key)

end Aes

namespace Deterministic

/-! ### Places -/

/-- The bytes of the block at a place; past the last block there are none. -/
def blockAt (bytes : List UInt8) (i : Nat) : List UInt8 :=
  (bytes.drop (blockSize * i)).take blockSize

theorem unblocks_cons (b : Aes.Block) (bs : List Aes.Block) :
    unblocks (b :: bs) = b.toBytes ++ unblocks bs := by
  simp only [unblocks, Aes.Block.toBytes, Quad.ungroup, List.flatMap_cons, List.flatMap_append]

theorem blockAt_unblocks (bs : List Aes.Block) (i : Nat) :
    blockAt (unblocks bs) i = bs[i]?.elim [] Aes.Block.toBytes := by
  induction bs generalizing i with
  | nil => simp [blockAt, unblocks, Quad.ungroup]
  | cons b bs ih =>
    rw [unblocks_cons, blockAt]
    cases i with
    | zero =>
      exact List.take_left' b.length_toBytes
    | succ i =>
      have hplace : blockSize * (i + 1) = b.toBytes.length + blockSize * i := by
        rw [b.length_toBytes, blockSize]
        omega
      rw [hplace, List.drop_length_add_append, ← blockAt, ih, List.getElem?_cons_succ]

/-- Two places show the same bytes exactly if the same block stands there, or none at both. -/
theorem blockAt_unblocks_eq_iff {bs cs : List Aes.Block} {i j : Nat} :
    blockAt (unblocks bs) i = blockAt (unblocks cs) j ↔ bs[i]? = cs[j]? := by
  have hne (b : Aes.Block) : b.toBytes ≠ [] := by
    rw [← List.length_pos_iff, b.length_toBytes]
    decide
  rw [blockAt_unblocks, blockAt_unblocks]
  cases bs[i]? with
  | none => cases cs[j]? with
    | none => simp
    | some c => simp [(hne c).symm]
  | some b => cases cs[j]? with
    | none => simp [hne b]
    | some c => simp [Aes.Block.toBytes_inj]

theorem blockAt_eq_iff {a b : List UInt8} (ha : a.length % blockSize = 0)
    (hb : b.length % blockSize = 0) {i j : Nat} :
    blockAt a i = blockAt b j ↔ (blocks a)[i]? = (blocks b)[j]? := by
  rw [← blockAt_unblocks_eq_iff, unblocks_blocks ha, unblocks_blocks hb]

/-- The blocks in front are the same exactly if the blocks at each of their places are. -/
theorem take_eq_take_iff {a b : List UInt8} {n : Nat} :
    a.take (blockSize * n) = b.take (blockSize * n) ↔ ∀ i < n, blockAt a i = blockAt b i := by
  have hfront (bytes : List UInt8) {i : Nat} (hi : i < n) :
      blockAt (bytes.take (blockSize * n)) i = blockAt bytes i := by
    have hroom : blockSize ≤ blockSize * n - blockSize * i := by
      have hle := Nat.mul_le_mul_left blockSize hi
      rw [Nat.mul_succ] at hle
      omega
    rw [blockAt, List.drop_take, List.take_take, Nat.min_eq_left hroom, blockAt]
  constructor
  · intro h i hi
    rw [← hfront a hi, h, hfront b hi]
  · clear hfront
    intro h
    induction n with
    | zero => rfl
    | succ n ih =>
      have hbefore := ih fun i hi => h i (Nat.lt_succ_of_lt hi)
      have hlast := h n (Nat.lt_succ_self n)
      rw [blockAt, blockAt] at hlast
      rw [Nat.mul_succ, List.take_add, List.take_add, hbefore, hlast]

/-! ### Stored bytes -/

section

variable (key : FieldKey) (a b : List UInt8)

theorem blockAt_encryptBytes_eq_iff (i j : Nat) :
    blockAt (encryptBytes key a) i = blockAt (encryptBytes key b) j ↔
      blockAt (pad a) i = blockAt (pad b) j := by
  rw [blockAt_eq_iff (length_pad_mod a) (length_pad_mod b), encryptBytes, encryptBytes,
    blockAt_unblocks_eq_iff, List.getElem?_map, List.getElem?_map]
  exact Option.map_inj_right fun _ _ => Aes.encrypt_inj.1

/-- In front of the filling, stored bytes are the same as far as the bytes are. -/
theorem take_encryptBytes_eq_iff {n : Nat} (ha : blockSize * n ≤ a.length)
    (hb : blockSize * n ≤ b.length) :
    (encryptBytes key a).take (blockSize * n) = (encryptBytes key b).take (blockSize * n) ↔
      a.take (blockSize * n) = b.take (blockSize * n) := by
  have hpad {bytes : List UInt8} (h : blockSize * n ≤ bytes.length) :
      (pad bytes).take (blockSize * n) = bytes.take (blockSize * n) := by
    rw [pad, List.take_append_of_le_length h]
  rw [← hpad ha, ← hpad hb, take_eq_take_iff, take_eq_take_iff]
  exact forall₂_congr fun i _ => blockAt_encryptBytes_eq_iff key a b i i

end

/-! ### Stored values -/

theorem encrypt_inj {key : FieldKey} {t u : String} : encrypt key t = encrypt key u ↔ t = u := by
  constructor
  · intro h
    have hread := decrypt_encrypt key t
    rw [h, decrypt_encrypt] at hread
    exact (Except.ok.inj hread).symm
  · exact congrArg (encrypt key)

/-- Two values show at which places of their texts, filled up to whole blocks, equal blocks stand:
blocks of the values are equal exactly if the blocks of the texts at their places are, be it in two
texts or twice in one.  So the values begin with as many equal blocks as the texts do, and are equal
only if the texts are. -/
theorem blockAt_stored_eq_iff (key : FieldKey) {t u : String} (ht : t ≠ "") (hu : u ≠ "") :
    ∃ a b, Base64.decodeText (encrypt key t) = .ok a ∧ Base64.decodeText (encrypt key u) = .ok b ∧
      a.length = (pad (Text.utf8 t)).length ∧ b.length = (pad (Text.utf8 u)).length ∧
      (∀ i j, blockAt a i = blockAt b j ↔
        blockAt (pad (Text.utf8 t)) i = blockAt (pad (Text.utf8 u)) j) ∧
      (∀ n, blockSize * n ≤ (Text.utf8 t).length → blockSize * n ≤ (Text.utf8 u).length →
        (a.take (blockSize * n) = b.take (blockSize * n) ↔
          (Text.utf8 t).take (blockSize * n) = (Text.utf8 u).take (blockSize * n))) ∧
      (encrypt key t = encrypt key u → t = u) :=
  ⟨_, _, decodeText_encrypt key ht, decodeText_encrypt key hu, length_encryptBytes key _,
    length_encryptBytes key _, blockAt_encryptBytes_eq_iff key _ _,
    fun _ => take_encryptBytes_eq_iff key _ _, encrypt_inj.1⟩

/-- Two texts that begin alike, one of which holds its first block twice. -/
theorem blockAt_stored_eq_iff_heldTwice :
    "0123456789abcdef0123456789abcdef!" ≠ "" ∧ "0123456789abcdef\u00e9" ≠ "" ∧
      ∃ a b,
        Base64.decodeText (encrypt (.ofSecret "field secret") "0123456789abcdef0123456789abcdef!") =
          .ok a ∧
        Base64.decodeText (encrypt (.ofSecret "field secret") "0123456789abcdef\u00e9") = .ok b ∧
        a.length = 48 ∧ b.length = 32 ∧ blockAt a 0 = blockAt b 0 ∧ blockAt a 1 = blockAt b 0 ∧
        blockAt a 2 ≠ blockAt b 1 ∧ a.take 16 = b.take 16 ∧ a.take 32 ≠ b.take 32 := by
  have ht : "0123456789abcdef0123456789abcdef!" ≠ "" := by decide
  have hu : "0123456789abcdef\u00e9" ≠ "" := by decide
  obtain ⟨a, b, ha, hb, hsize, hsize', hblock, hfront, -⟩ :=
    blockAt_stored_eq_iff (.ofSecret "field secret") ht hu
  have hsecond : blockAt a 1 ≠ blockAt b 1 := mt (hblock 1 1).1 (by decide)
  refine ⟨ht, hu, a, b, ha, hb, hsize.trans (by decide), hsize'.trans (by decide),
    (hblock 0 0).2 (by decide), (hblock 1 0).2 (by decide), mt (hblock 2 1).1 (by decide),
    (hfront 1 (by decide) (by decide)).2 (by decide), fun h => hsecond ?_⟩
  exact (take_eq_take_iff (n := 2)).1 h 1 (by decide)

end Deterministic

end TrustBoundary
