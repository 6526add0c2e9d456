import TrustBoundary.Cipher.Aes

/-!
# Decryption undoes encryption

`decrypt_encrypt` and `encrypt_decrypt` say that under one key the two functions of AES undo each
other.  Every part of a round is undone by its counterpart: the replacement of bytes by a table that
leads back, the mixing of columns because mixing four times changes nothing (`mix_four`), and the
addition of a key because it adds bit by bit.
-/

namespace TrustBoundary.Aes

/-! ### Bytes -/

theorem restore_substitute (b : UInt8) : restore (substitute b) = b := by
  have h : ∀ n : Fin 256, restore (substitute (.ofFin n)) = .ofFin n := by decide +kernel
  exact h b.toFin

theorem substitute_restore (b : UInt8) : substitute (restore b) = b := by
  have h : ∀ n : Fin 256, substitute (restore (.ofFin n)) = .ofFin n := by decide +kernel
  exact h b.toFin

theorem xor_xor_cancel (a b : UInt8) : a ^^^ (a ^^^ b) = b := by
  rw [← UInt8.xor_assoc, UInt8.xor_self, UInt8.zero_xor]

theorem xor_left_comm (a b c : UInt8) : a ^^^ (b ^^^ c) = b ^^^ (a ^^^ c) := by ac_rfl

theorem shiftRight_seven (b : UInt8) : b >>> 7 = 0 ∨ b >>> 7 = 1 := by
  have h : ∀ n : Fin 256, UInt8.ofFin n >>> 7 = 0 ∨ UInt8.ofFin n >>> 7 = 1 := by decide +kernel
  exact h b.toFin

/-- Doubling is linear. -/
theorem double_xor (a b : UInt8) : double (a ^^^ b) = double a ^^^ double b := by
  have h : (0x1b : UInt8) * ((a ^^^ b) >>> 7) =
      ((0x1b : UInt8) * (a >>> 7)) ^^^ ((0x1b : UInt8) * (b >>> 7)) := by
    rw [UInt8.shiftRight_xor]
    rcases shiftRight_seven a with ha | ha <;> rcases shiftRight_seven b with hb | hb <;>
      rw [ha, hb] <;> decide
  simp only [double, UInt8.shiftLeft_xor, h]
  ac_rfl

/-! ### Columns -/

/-- Mixing twice adds four times the sum of every second byte. -/
theorem mix_mix (q : Column) : mix (mix q) =
    ⟨q.a ^^^ double (double (q.a ^^^ q.c)), q.b ^^^ double (double (q.b ^^^ q.d)),
      q.c ^^^ double (double (q.a ^^^ q.c)), q.d ^^^ double (double (q.b ^^^ q.d))⟩ := by
  obtain ⟨a, b, c, d⟩ := q
  simp only [mix, double_xor, Quad.mk.injEq]
  refine ⟨?_, ?_, ?_, ?_⟩ <;>
    simp only [UInt8.xor_assoc, UInt8.xor_comm, xor_left_comm, xor_xor_cancel, UInt8.xor_self,
      UInt8.xor_zero, UInt8.zero_xor]

theorem mix_four (q : Column) : mix (mix (mix (mix q))) = q := by
  obtain ⟨a, b, c, d⟩ := q
  simp only [mix_mix, double_xor, Quad.mk.injEq]
  refine ⟨?_, ?_, ?_, ?_⟩ <;> simp [UInt8.xor_comm, xor_left_comm]

theorem Column.add_add (p q : Column) : Column.add p (Column.add p q) = q := by
  simp only [Column.add, Quad.zipWith, xor_xor_cancel]

/-! ### Blocks -/

theorem Block.add_add (p q : Block) : Block.add p (Block.add p q) = q := by
  simp [Block.add, Quad.zipWith, Column.add_add]

theorem unshift_shift (b : Block) : unshift (shift b) = b := rfl

theorem shift_unshift (b : Block) : shift (unshift b) = b := rfl

theorem map_map_of_forall {f g : UInt8 → UInt8} (h : ∀ x, g (f x) = x) (b : Block) :
    (b.map (·.map f)).map (·.map g) = b := by
  simp [Quad.map, h]

theorem map_unmix_map_mix (b : Block) : (b.map mix).map unmix = b := by
  simp [Quad.map, unmix, mix_four]

theorem map_mix_map_unmix (b : Block) : (b.map unmix).map mix = b := by
  simp [Quad.map, unmix, mix_four]

/-! ### Rounds -/

theorem unrounds_rounds (key : Block) (constants : List UInt8) (b : Block) :
    unrounds key constants (rounds key constants b) = b := by
  fun_induction rounds key constants b with
  | case1 => rfl
  | case2 key b constant =>
    rw [unrounds, Block.add_add, unshift_shift, map_map_of_forall restore_substitute]
  | case3 key constant rest b hrest next ih =>
    rw [unrounds, ih, Block.add_add, map_unmix_map_mix, unshift_shift,
      map_map_of_forall restore_substitute]
    exact hrest

theorem rounds_unrounds (key : Block) (constants : List UInt8) (b : Block) :
    rounds key constants (unrounds key constants b) = b := by
  fun_induction unrounds key constants b with
  | case1 => rfl
  | case2 key b constant =>
    rw [rounds, map_map_of_forall substitute_restore, shift_unshift, Block.add_add]
  | case3 key constant rest b hrest next ih =>
    rw [rounds, map_map_of_forall substitute_restore, shift_unshift, map_mix_map_unmix,
      Block.add_add, ih]
    exact hrest

theorem decrypt_encrypt (key b : Block) : decrypt key (encrypt key b) = b := by
  rw [decrypt, encrypt, unrounds_rounds, Block.add_add]

theorem encrypt_decrypt (key b : Block) : encrypt key (decrypt key b) = b := by
  rw [decrypt, encrypt, Block.add_add, rounds_unrounds]

end TrustBoundary.Aes
