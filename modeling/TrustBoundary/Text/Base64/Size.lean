import TrustBoundary.Text.Base64.Inverse

/-!
# The size of texts in base64

Every three bytes take four symbols (`length_encodeText`), each of them an ASCII character
(`isSymbol_of_mem_encodeText`), and the last group is filled up with as many `=` as bytes are
missing to three (`count_filler_encodeText`).  So what stands in front of the
filling determines the filling: no text stays base64 when it is filled up in another way
(`eq_of_encodeText_eq_append`).
-/

namespace TrustBoundary.Base64

@[simp]
theorem length_encodeText (bytes : List UInt8) :
    (encodeText bytes).length = 4 * ((bytes.length + 2) / 3) := by
  rw [encodeText, String.length_ofList, List.length_map, length_encode]

/-- Whether a character may stand in base64. -/
def isSymbol (c : Char) : Bool := c.isAlphanum || c == '+' || c == '/' || c == '='

theorem isSymbol_of_mem_encodeText {bytes : List UInt8} {c : Char}
    (h : c ∈ (encodeText bytes).toList) : c.toNat < 128 ∧ isSymbol c = true := by
  have hsymbol : ∀ k : Fin 256, (Char.ofNat (symbol (.ofFin k)).toNat).toNat < 128 ∧
      isSymbol (Char.ofNat (symbol (.ofFin k)).toNat) = true := by decide +kernel
  rw [encodeText, String.toList_ofList, List.mem_map] at h
  obtain ⟨s, hs, rfl⟩ := h
  obtain rfl | ⟨n, rfl⟩ := eq_symbol_of_mem_encode hs
  · decide
  · exact hsymbol n.toFin

/-- Only the filler is written as `=`. -/
theorem ofNat_toNat_eq_filler_iff (s : UInt8) : Char.ofNat s.toNat = '=' ↔ s = filler := by
  have h : ∀ k : Fin 256, Char.ofNat (UInt8.ofFin k).toNat = '=' ↔ UInt8.ofFin k = filler := by
    decide +kernel
  exact h s.toFin

theorem count_filler_encode (bytes : List UInt8) :
    (encode bytes).count filler = (3 - bytes.length % 3) % 3 := by
  fun_induction encode bytes with
  | case1 a b c rest ih =>
    simp only [List.count_cons, List.length_cons, ih, beq_iff_eq, symbol_ne_filler (head_lt a),
      symbol_ne_filler (second_lt a b), symbol_ne_filler (third_lt b c),
      symbol_ne_filler (last_lt c), if_false]
    omega
  | case2 a b =>
    simp [symbol_ne_filler (head_lt a), symbol_ne_filler (second_lt a b),
      symbol_ne_filler (third_lt_of_last b)]
  | case3 a =>
    simp [symbol_ne_filler (head_lt a), symbol_ne_filler (second_lt_of_last a)]
  | case4 => rfl

theorem count_filler_encodeText (bytes : List UInt8) :
    (encodeText bytes).toList.count '=' = (3 - bytes.length % 3) % 3 := by
  rw [encodeText, String.toList_ofList, List.count, List.countP_map, ← count_filler_encode,
    List.count]
  refine List.countP_congr fun s _ => ?_
  simp only [Function.comp, beq_iff_eq, ofNat_toNat_eq_filler_iff]

/-- Of the ways to fill one text up, at most one gives base64. -/
theorem eq_of_encodeText_eq_append {stem : String} (hstem : '=' ∉ stem.toList) {a b : List UInt8}
    {m n : Nat} (ha : encodeText a = stem ++ String.ofList (List.replicate m '='))
    (hb : encodeText b = stem ++ String.ofList (List.replicate n '=')) : m = n := by
  have hcount : ∀ {bytes : List UInt8} {k : Nat},
      encodeText bytes = stem ++ String.ofList (List.replicate k '=') →
        k = (3 - bytes.length % 3) % 3 ∧ stem.length + k = 4 * ((bytes.length + 2) / 3) := by
    intro bytes k h
    constructor
    · rw [← count_filler_encodeText, h, String.toList_append, String.toList_ofList,
        List.count_append, List.count_eq_zero.2 hstem, List.count_replicate_self, Nat.zero_add]
    · rw [← length_encodeText, h, String.length_append, String.length_ofList,
        List.length_replicate]
  obtain ⟨hm, hma⟩ := hcount ha
  obtain ⟨hn, hnb⟩ := hcount hb
  -- both fillings are shorter than a group, and make whole groups of the same text
  omega

end TrustBoundary.Base64
