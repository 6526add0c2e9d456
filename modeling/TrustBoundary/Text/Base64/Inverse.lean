import TrustBoundary.Steps
import TrustBoundary.Text.Base64

/-!
# Decoding undoes encoding

`decode_eq_ok_iff` says that a text is decoded to some bytes exactly if it is what they are encoded
as.  So no bytes have two texts.
-/

namespace TrustBoundary.Base64

/-! ### Symbols -/

theorem bits?_symbol {n : UInt8} (h : n < 64) : bits? (symbol n) = some n := by
  have h' : ∀ k : Fin 256, UInt8.ofFin k < 64 → bits? (symbol (.ofFin k)) = some (.ofFin k) := by
    decide +kernel
  exact h' n.toFin h

theorem symbol_of_bits? {s n : UInt8} (h : bits? s = some n) : symbol n = s ∧ n < 64 := by
  have h' : ∀ k : Fin 256, ∀ n ∈ bits? (.ofFin k), symbol n = .ofFin k ∧ n < 64 := by
    decide +kernel
  exact h' s.toFin n h

theorem symbol_ne_filler {n : UInt8} (h : n < 64) : symbol n ≠ filler := by
  have h' : ∀ k : Fin 256, UInt8.ofFin k < 64 → symbol (.ofFin k) ≠ filler := by decide +kernel
  exact h' n.toFin h

theorem bitsAt_symbol {n : UInt8} (h : n < 64) (offset : Nat) :
    bitsAt offset (symbol n) = .ok n := by
  rw [bitsAt, bits?_symbol h]

theorem bitsAt_eq_ok {offset : Nat} {s n : UInt8} (h : bitsAt offset s = .ok n) :
    symbol n = s ∧ n < 64 := by
  rw [bitsAt] at h
  split at h
  · rename_i m hbits
    rw [Except.ok.injEq] at h
    subst h
    exact symbol_of_bits? hbits
  · simp at h

/-! ### Groups -/

theorem head_lt (a : UInt8) : a / 4 < 64 := by
  have := a.toNat_lt
  simp only [UInt8.lt_iff_toNat_lt, UInt8.toNat_div, UInt8.reduceToNat]
  omega

theorem second_lt (a b : UInt8) : a % 4 * 16 + b / 16 < 64 := by
  have := b.toNat_lt
  simp only [UInt8.lt_iff_toNat_lt, UInt8.toNat_add, UInt8.toNat_mul, UInt8.toNat_mod,
    UInt8.toNat_div, UInt8.reduceToNat]
  omega

theorem third_lt (b c : UInt8) : b % 16 * 4 + c / 64 < 64 := by
  have := c.toNat_lt
  simp only [UInt8.lt_iff_toNat_lt, UInt8.toNat_add, UInt8.toNat_mul, UInt8.toNat_mod,
    UInt8.toNat_div, UInt8.reduceToNat]
  omega

theorem last_lt (c : UInt8) : c % 64 < 64 := by
  simp only [UInt8.lt_iff_toNat_lt, UInt8.toNat_mod, UInt8.reduceToNat]
  omega

theorem join_head (a b : UInt8) : a / 4 * 4 + (a % 4 * 16 + b / 16) / 16 = a := by
  have := a.toNat_lt
  have := b.toNat_lt
  apply UInt8.toNat_inj.1
  simp only [UInt8.toNat_add, UInt8.toNat_mul, UInt8.toNat_mod, UInt8.toNat_div, UInt8.reduceToNat]
  omega

theorem join_second (a b c : UInt8) :
    (a % 4 * 16 + b / 16) % 16 * 16 + (b % 16 * 4 + c / 64) / 4 = b := by
  have := b.toNat_lt
  have := c.toNat_lt
  apply UInt8.toNat_inj.1
  simp only [UInt8.toNat_add, UInt8.toNat_mul, UInt8.toNat_mod, UInt8.toNat_div, UInt8.reduceToNat]
  omega

theorem join_third (b c : UInt8) : (b % 16 * 4 + c / 64) % 4 * 64 + c % 64 = c := by
  have := c.toNat_lt
  apply UInt8.toNat_inj.1
  simp only [UInt8.toNat_add, UInt8.toNat_mul, UInt8.toNat_mod, UInt8.toNat_div, UInt8.reduceToNat]
  omega

theorem split_head {s t : UInt8} (hs : s < 64) (ht : t < 64) : (s * 4 + t / 16) / 4 = s := by
  simp only [UInt8.lt_iff_toNat_lt, UInt8.reduceToNat] at hs ht
  apply UInt8.toNat_inj.1
  simp only [UInt8.toNat_add, UInt8.toNat_mul, UInt8.toNat_div, UInt8.reduceToNat]
  omega

theorem split_second {s t u : UInt8} (ht : t < 64) (hu : u < 64) :
    (s * 4 + t / 16) % 4 * 16 + (t % 16 * 16 + u / 4) / 16 = t := by
  simp only [UInt8.lt_iff_toNat_lt, UInt8.reduceToNat] at ht hu
  apply UInt8.toNat_inj.1
  simp only [UInt8.toNat_add, UInt8.toNat_mul, UInt8.toNat_mod, UInt8.toNat_div, UInt8.reduceToNat]
  omega

theorem split_third {t u v : UInt8} (hu : u < 64) (hv : v < 64) :
    (t % 16 * 16 + u / 4) % 16 * 4 + (u % 4 * 64 + v) / 64 = u := by
  simp only [UInt8.lt_iff_toNat_lt, UInt8.reduceToNat] at hu hv
  apply UInt8.toNat_inj.1
  simp only [UInt8.toNat_add, UInt8.toNat_mul, UInt8.toNat_mod, UInt8.toNat_div, UInt8.reduceToNat]
  omega

theorem split_last {u v : UInt8} (hv : v < 64) : (u % 4 * 64 + v) % 64 = v := by
  simp only [UInt8.lt_iff_toNat_lt, UInt8.reduceToNat] at hv
  apply UInt8.toNat_inj.1
  simp only [UInt8.toNat_add, UInt8.toNat_mul, UInt8.toNat_mod, UInt8.reduceToNat]
  omega

theorem second_lt_of_last (a : UInt8) : a % 4 * 16 < 64 := by
  simp only [UInt8.lt_iff_toNat_lt, UInt8.toNat_mul, UInt8.toNat_mod, UInt8.reduceToNat]
  omega

theorem third_lt_of_last (b : UInt8) : b % 16 * 4 < 64 := by
  simp only [UInt8.lt_iff_toNat_lt, UInt8.toNat_mul, UInt8.toNat_mod, UInt8.reduceToNat]
  omega

theorem join_head_of_last (a : UInt8) : a / 4 * 4 + a % 4 * 16 / 16 = a := by
  have := a.toNat_lt
  apply UInt8.toNat_inj.1
  simp only [UInt8.toNat_add, UInt8.toNat_mul, UInt8.toNat_mod, UInt8.toNat_div, UInt8.reduceToNat]
  omega

theorem join_second_of_last (a b : UInt8) :
    (a % 4 * 16 + b / 16) % 16 * 16 + b % 16 * 4 / 4 = b := by
  have := b.toNat_lt
  apply UInt8.toNat_inj.1
  simp only [UInt8.toNat_add, UInt8.toNat_mul, UInt8.toNat_mod, UInt8.toNat_div, UInt8.reduceToNat]
  omega

theorem mul_sixteen_mod (a : UInt8) : a % 4 * 16 % 16 = 0 := by
  apply UInt8.toNat_inj.1
  simp only [UInt8.toNat_mul, UInt8.toNat_mod, UInt8.reduceToNat]
  omega

theorem mul_four_mod (b : UInt8) : b % 16 * 4 % 4 = 0 := by
  apply UInt8.toNat_inj.1
  simp only [UInt8.toNat_mul, UInt8.toNat_mod, UInt8.reduceToNat]
  omega

theorem split_second_of_last {s t : UInt8} (ht : t < 64) (h : t % 16 = 0) :
    (s * 4 + t / 16) % 4 * 16 = t := by
  replace h := congrArg UInt8.toNat h
  simp only [UInt8.lt_iff_toNat_lt, UInt8.toNat_mod, UInt8.reduceToNat] at ht h
  apply UInt8.toNat_inj.1
  simp only [UInt8.toNat_add, UInt8.toNat_mul, UInt8.toNat_mod, UInt8.toNat_div, UInt8.reduceToNat]
  omega

theorem split_third_of_last {t u : UInt8} (hu : u < 64) (h : u % 4 = 0) :
    (t % 16 * 16 + u / 4) % 16 * 4 = u := by
  replace h := congrArg UInt8.toNat h
  simp only [UInt8.lt_iff_toNat_lt, UInt8.toNat_mod, UInt8.reduceToNat] at hu h
  apply UInt8.toNat_inj.1
  simp only [UInt8.toNat_add, UInt8.toNat_mul, UInt8.toNat_mod, UInt8.toNat_div, UInt8.reduceToNat]
  omega

/-! ### Texts -/

@[simp]
theorem length_encode (bytes : List UInt8) :
    (encode bytes).length = 4 * ((bytes.length + 2) / 3) := by
  fun_induction encode bytes with
  | case1 a b c rest ih => simp only [List.length_cons, ih]; omega
  | case2 | case3 | case4 => simp

theorem decodeGroups_encode (offset : Nat) (bytes : List UInt8) :
    decodeGroups offset (encode bytes) = .ok bytes := by
  fun_induction encode bytes generalizing offset with
  | case1 a b c rest ih =>
    -- a group is read as the last one if and only if no symbols follow it
    cases h : encode rest with
    | nil =>
      have hrest : rest = [] := by
        have := length_encode rest
        rw [h, List.length_nil] at this
        exact List.eq_nil_of_length_eq_zero (by omega)
      simp [decodeGroups, decodeLast, bitsAt_symbol, symbol_ne_filler, head_lt, second_lt, third_lt,
        last_lt, join_head, join_second, join_third, hrest, bind, Except.bind]
    | cons w ws =>
      have := ih (offset + 4)
      rw [h] at this
      simp [decodeGroups, bitsAt_symbol, head_lt, second_lt, third_lt, last_lt, join_head,
        join_second, join_third, this, bind, Except.bind]
  | case2 a b =>
    simp [decodeGroups, decodeLast, bitsAt_symbol, symbol_ne_filler, head_lt, second_lt,
      third_lt_of_last, join_head, join_second_of_last, mul_four_mod, bind, Except.bind]
  | case3 a =>
    simp [decodeGroups, decodeLast, bitsAt_symbol, head_lt, second_lt_of_last, join_head_of_last,
      mul_sixteen_mod, bind, Except.bind]
  | case4 => rfl

theorem decode_encode (bytes : List UInt8) : decode (encode bytes) = .ok bytes := by
  rw [decode, if_neg (by rw [length_encode]; omega)]
  exact decodeGroups_encode 0 bytes

theorem eq_encode_of_decodeLast {offset : Nat} {s t u v : UInt8} {bytes : List UInt8}
    (h : decodeLast offset s t u v = .ok bytes) : [s, t, u, v] = encode bytes := by
  obtain ⟨a, ha, ht⟩ := bind_eq_ok_iff.1 h
  obtain ⟨b, hb, hu⟩ := bind_eq_ok_iff.1 ht
  obtain ⟨rfl, halt⟩ := bitsAt_eq_ok ha
  obtain ⟨rfl, hblt⟩ := bitsAt_eq_ok hb
  -- one byte, two bytes or three, according to the fillers; the bits left over have to be zero
  split at hu
  · rename_i hfill
    split at hu
    · simp at hu
    · rename_i hv
      split at hu
      · rename_i hmod
        rw [← Except.ok.inj hu, encode, split_head halt hblt, split_second_of_last hblt hmod, hfill,
          Decidable.not_not.1 hv]
      · simp at hu
  · obtain ⟨c, hc, hv⟩ := bind_eq_ok_iff.1 hu
    obtain ⟨rfl, hclt⟩ := bitsAt_eq_ok hc
    split at hv
    · rename_i hfill
      split at hv
      · rename_i hmod
        rw [← Except.ok.inj hv, encode, split_head halt hblt, split_second hblt hclt,
          split_third_of_last hclt hmod, hfill]
      · simp at hv
    · obtain ⟨d, hd, hbytes⟩ := bind_eq_ok_iff.1 hv
      obtain ⟨rfl, hdlt⟩ := bitsAt_eq_ok hd
      rw [← Except.ok.inj hbytes, encode, split_head halt hblt, split_second hblt hclt,
        split_third hclt hdlt, split_last hdlt, encode]

theorem eq_encode_of_decodeGroups {offset : Nat} {symbols bytes : List UInt8}
    (h : decodeGroups offset symbols = .ok bytes) : symbols = encode bytes := by
  fun_induction decodeGroups offset symbols generalizing bytes with
  | case1 => rw [← Except.ok.inj h, encode]
  | case2 offset s =>
    -- a group that breaks off is never decoded
    obtain ⟨a, -, hs⟩ := bind_eq_ok_iff.1 h
    simp at hs
  | case3 offset s t =>
    obtain ⟨a, -, ht⟩ := bind_eq_ok_iff.1 h
    obtain ⟨b, -, hlast⟩ := bind_eq_ok_iff.1 ht
    simp at hlast
  | case4 offset s t u =>
    obtain ⟨a, -, ht⟩ := bind_eq_ok_iff.1 h
    obtain ⟨b, -, hu⟩ := bind_eq_ok_iff.1 ht
    split at hu
    · simp at hu
    · obtain ⟨c, -, hlast⟩ := bind_eq_ok_iff.1 hu
      simp at hlast
  | case5 offset s t u v => exact eq_encode_of_decodeLast h
  | case6 offset s t u v rest hrest ih =>
    obtain ⟨a, ha, ht⟩ := bind_eq_ok_iff.1 h
    obtain ⟨b, hb, hu⟩ := bind_eq_ok_iff.1 ht
    obtain ⟨c, hc, hv⟩ := bind_eq_ok_iff.1 hu
    obtain ⟨d, hd, htail⟩ := bind_eq_ok_iff.1 hv
    obtain ⟨tail, htail, hbytes⟩ := bind_eq_ok_iff.1 htail
    obtain ⟨rfl, halt⟩ := bitsAt_eq_ok ha
    obtain ⟨rfl, hblt⟩ := bitsAt_eq_ok hb
    obtain ⟨rfl, hclt⟩ := bitsAt_eq_ok hc
    obtain ⟨rfl, hdlt⟩ := bitsAt_eq_ok hd
    rw [← Except.ok.inj hbytes, encode, split_head halt hblt, split_second hblt hclt,
      split_third hclt hdlt, split_last hdlt, ← ih htail]

theorem decode_eq_ok_iff {symbols bytes : List UInt8} :
    decode symbols = .ok bytes ↔ symbols = encode bytes := by
  constructor
  · intro h
    simp only [decode] at h
    split at h
    · split at h
      · simp at h
      · exact eq_encode_of_decodeGroups h
    · exact eq_encode_of_decodeGroups h
  · rintro rfl
    exact decode_encode bytes

/-! ### Texts of bytes -/

theorem symbol_lt (n : UInt8) : symbol n < 128 := by
  have h : ∀ k : Fin 256, symbol (.ofFin k) < 128 := by decide +kernel
  exact h n.toFin

/-- A colon is no symbol. -/
theorem symbol_ne_colon (n : UInt8) : symbol n ≠ 58 := by
  have h : ∀ k : Fin 256, symbol (.ofFin k) ≠ 58 := by decide +kernel
  exact h n.toFin

theorem eq_symbol_of_mem_encode {bytes : List UInt8} {s : UInt8} (h : s ∈ encode bytes) :
    s = filler ∨ ∃ n, s = symbol n := by
  fun_induction encode bytes with
  | case1 a b c rest ih =>
    simp only [List.mem_cons] at h
    obtain rfl | rfl | rfl | rfl | hrest := h
    · exact .inr ⟨_, rfl⟩
    · exact .inr ⟨_, rfl⟩
    · exact .inr ⟨_, rfl⟩
    · exact .inr ⟨_, rfl⟩
    · exact ih hrest
  | case2 a b =>
    simp only [List.mem_cons, List.not_mem_nil, or_false] at h
    obtain rfl | rfl | rfl | rfl := h
    · exact .inr ⟨_, rfl⟩
    · exact .inr ⟨_, rfl⟩
    · exact .inr ⟨_, rfl⟩
    · exact .inl rfl
  | case3 a =>
    simp only [List.mem_cons, List.not_mem_nil, or_false, or_self] at h
    obtain rfl | rfl | rfl := h
    · exact .inr ⟨_, rfl⟩
    · exact .inr ⟨_, rfl⟩
    · exact .inl rfl
  | case4 => cases h

theorem utf8_encodeText (bytes : List UInt8) : Text.utf8 (encodeText bytes) = encode bytes := by
  refine Text.utf8_ofList_of_ascii fun s hs => ?_
  obtain rfl | ⟨n, rfl⟩ := eq_symbol_of_mem_encode hs
  · decide
  · exact symbol_lt n

/-- A text is decoded to some bytes exactly if it is their text. -/
theorem decodeText_eq_ok_iff {text : String} {bytes : List UInt8} :
    decodeText text = .ok bytes ↔ text = encodeText bytes := by
  rw [decodeText, decode_eq_ok_iff, ← utf8_encodeText]
  exact ⟨Text.utf8_injective, congrArg Text.utf8⟩

theorem decodeText_encodeText (bytes : List UInt8) : decodeText (encodeText bytes) = .ok bytes :=
  decodeText_eq_ok_iff.2 rfl

/-- Only no bytes have the empty text. -/
theorem encodeText_ne_empty {bytes : List UInt8} (h : bytes ≠ []) : encodeText bytes ≠ "" := by
  intro hempty
  have hdecode := decodeText_encodeText bytes
  rw [hempty] at hdecode
  exact h (Except.ok.inj hdecode).symm

/-- There is no colon in the text of some bytes. -/
theorem colon_notMem_encodeText (bytes : List UInt8) : ':' ∉ (encodeText bytes).toList := by
  rw [encodeText, String.toList_ofList, List.mem_map]
  rintro ⟨s, hs, hcolon⟩
  have h : ∀ k : Fin 256, Char.ofNat (UInt8.ofFin k).toNat = ':' → UInt8.ofFin k = 58 := by
    decide +kernel
  have hs' : s = 58 := h s.toFin hcolon
  obtain rfl | ⟨n, rfl⟩ := eq_symbol_of_mem_encode hs
  · exact absurd hs' (by decide)
  · exact symbol_ne_colon n hs'

end TrustBoundary.Base64
