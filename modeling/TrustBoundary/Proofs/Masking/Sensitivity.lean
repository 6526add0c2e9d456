import TrustBoundary.Masking

/-!
# Which names are sensitive

A name is sensitive if and only if some piece of it is a marker but for the case of its ASCII
letters (`isSensitive_iff`).  The name is searched in its Unicode lower case, which makes ASCII
letters of two characters beyond ASCII as well, and two characters of one of them.  Neither takes
part in a marker: the Kelvin sign becomes a `k`, which no marker has, and the capital I with a dot
above becomes an `i` with a combining dot behind it, and no marker ends with an `i`.

A capital sigma has two small forms, one of them for the end of a word.  `Text.IsLowered` leaves
open which of them is taken where, so that what is shown of it holds of every rule for that.
-/

namespace TrustBoundary

/-! ### Lower case -/

namespace Text

theorem toNat_charOfNat {n : Nat} (h : n.isValidChar) : (Char.ofNat n).toNat = n := by
  rw [Char.ofNat, dif_pos h]
  rfl

/-- A capital letter of a range has its lower case beyond ASCII, but for the Kelvin sign. -/
theorem caseRanges_beyond_ascii : ∀ r ∈ caseRanges,
    r.first = 0x212a ∧ r.last = 0x212a ∧ r.offset = -8383 ∨
      128 ≤ (r.first : Int) + r.offset ∧
        ((r.last : Int) + r.offset < 0xd800 ∨
          0xdfff < (r.first : Int) + r.offset ∧ (r.last : Int) + r.offset < 0x110000) := by
  decide +kernel

/-- What lower case makes of a character beyond ASCII: an `i` with a combining dot, or one
character, which is a `k` or beyond ASCII too. -/
def IsForeign (cs : List Char) : Prop :=
  cs = ['i', Char.ofNat 0x307] ∨ ∃ d, cs = [d] ∧ (d = 'k' ∨ 128 ≤ d.toNat)

theorem isForeign_lowerChar {c : Char} (h : 128 ≤ c.toNat) : IsForeign (lowerChar c) := by
  rw [lowerChar, if_neg (by omega)]
  split
  · exact .inl rfl
  · split
    next r hr =>
      have hcovers := List.find?_some hr
      simp only [CaseRange.covers, Bool.and_eq_true, decide_eq_true_eq] at hcovers
      obtain ⟨⟨hfirst, hlast⟩, -⟩ := hcovers
      refine .inr ⟨_, rfl, ?_⟩
      rcases caseRanges_beyond_ascii r (List.mem_of_find?_eq_some hr) with hkelvin | hbeyond
      · left
        have hc : c.toNat = 0x212a := by omega
        rw [hc, hkelvin.2.2]
        rfl
      · right
        rw [toNat_charOfNat (by simp only [Nat.isValidChar]; omega)]
        omega
    next => exact .inr ⟨c, rfl, .inr h⟩

/-- A lower case of a text: that of its characters one after the other, where a capital sigma may
become the small sigma for the end of a word instead of the other one. -/
inductive IsLowered : List Char → List Char → Prop
  | nil : IsLowered [] []
  | cons (c : Char) {cs ds : List Char} : IsLowered cs ds → IsLowered (c :: cs) (lowerChar c ++ ds)
  | finalSigma {cs ds : List Char} : IsLowered cs ds → IsLowered ('Σ' :: cs) ('ς' :: ds)

theorem isLowered_lower (cs : List Char) : IsLowered cs (lower cs) := by
  induction cs with
  | nil => exact .nil
  | cons c cs ih =>
    rw [lower, List.flatMap_cons]
    exact .cons c ih

/-- The first character stands for its ASCII lower case, or for something foreign if it is beyond
ASCII. -/
theorem IsLowered.exists_append {c : Char} {cs ds : List Char} (h : IsLowered (c :: cs) ds) :
    ∃ head rest, ds = head ++ rest ∧ IsLowered cs rest ∧
      (head = [c.toLower] ∨ 128 ≤ c.toNat ∧ IsForeign head) := by
  cases h with
  | @cons _ _ rest hrest =>
    refine ⟨lowerChar c, rest, rfl, hrest, ?_⟩
    by_cases hc : c.toNat < 128
    · exact .inl (by rw [lowerChar, if_pos hc])
    · exact .inr ⟨Nat.not_lt.1 hc, isForeign_lowerChar (Nat.not_lt.1 hc)⟩
  | @finalSigma _ rest hrest =>
    exact ⟨['ς'], rest, rfl, hrest, .inr ⟨by decide, .inr ⟨'ς', rfl, .inr (by decide)⟩⟩⟩

/-- Only ASCII letters have an ASCII lower case that is another character. -/
theorem toLower_of_le {c : Char} (h : 128 ≤ c.toNat) : c.toLower = c := by
  refine dif_neg ?_
  rintro ⟨-, hle⟩
  have hle' : c.toNat ≤ 90 := hle
  omega

/-- The lower case of ASCII characters is what it is in ASCII. -/
theorem IsLowered.exists_append_ascii {piece cs ds : List Char} (h : IsLowered (piece ++ cs) ds)
    (hascii : ∀ c ∈ piece, c.toNat < 128) :
    ∃ rest, ds = piece.map Char.toLower ++ rest ∧ IsLowered cs rest := by
  induction piece generalizing ds with
  | nil => exact ⟨ds, rfl, h⟩
  | cons c piece ih =>
    obtain ⟨head, rest, rfl, hrest, hhead⟩ := h.exists_append
    obtain ⟨hc, hpiece⟩ := List.forall_mem_cons.1 hascii
    obtain rfl : head = [c.toLower] := hhead.resolve_right fun hforeign => by omega
    obtain ⟨rest', rfl, hrest'⟩ := ih hrest hpiece
    exact ⟨rest', rfl, hrest'⟩

/-- The lower case of a text has that of its end at its end. -/
theorem IsLowered.exists_of_append {before cs ds : List Char} (h : IsLowered (before ++ cs) ds) :
    ∃ head rest, ds = head ++ rest ∧ IsLowered cs rest := by
  induction before generalizing ds with
  | nil => exact ⟨[], ds, rfl, h⟩
  | cons c before ih =>
    obtain ⟨head, rest, rfl, hrest, -⟩ := h.exists_append
    obtain ⟨head', rest', rfl, hrest'⟩ := ih hrest
    exact ⟨head ++ head', rest', (List.append_assoc ..).symm, hrest'⟩

end Text

/-! ### Pieces -/

theorem hasPiece_iff {marker cs : List Char} : hasPiece marker cs = true ↔ marker <:+: cs := by
  induction cs with
  | nil => rw [hasPiece, List.isEmpty_iff, List.infix_nil]
  | cons c cs ih =>
    rw [hasPiece, Bool.or_eq_true, List.isPrefixOf_iff_prefix, ih, List.infix_cons_iff]

/-- What all markers have in common: ASCII characters, no `k` among them and no `i` at the end. -/
structure IsMarker (marker : List Char) : Prop where
  ascii : ∀ c ∈ marker, c.toNat < 128
  ne_k : ∀ c ∈ marker, c ≠ 'k'
  getLast?_ne : marker.getLast? ≠ some 'i'

theorem isMarker_of_mem {marker : String} (hmarker : marker ∈ sensitiveMarkers) :
    IsMarker marker.toList := by
  have hall : sensitiveMarkers.all (fun marker => marker.toList.all (fun c =>
      c.toNat < 128 && c != 'k') && marker.toList.getLast? != some 'i') = true := by decide
  have h := List.all_eq_true.1 hall marker hmarker
  simp only [Bool.and_eq_true, List.all_eq_true, decide_eq_true_eq, bne_iff_ne] at h
  exact ⟨fun c hc => (h.1 c hc).1, fun c hc => (h.1 c hc).2, h.2⟩

namespace IsMarker

open Text

variable {marker cs ds rest : List Char} {c : Char}

theorem tail (h : IsMarker (c :: marker)) : IsMarker marker where
  ascii d hd := h.ascii d (List.mem_cons_of_mem c hd)
  ne_k d hd := h.ne_k d (List.mem_cons_of_mem c hd)
  getLast?_ne hlast := by
    refine h.getLast?_ne ?_
    rw [List.getLast?_cons, hlast]
    rfl

/-- No marker begins with a combining dot. -/
theorem eq_nil_of_prefix_dot (h : IsMarker marker) (hp : marker <+: Char.ofNat 0x307 :: rest) :
    marker = [] := by
  cases marker with
  | nil => rfl
  | cons d marker =>
    obtain ⟨rfl, -⟩ := List.cons_prefix_cons.1 hp
    exact absurd (h.ascii _ List.mem_cons_self) (by decide)

/-- No marker begins with something foreign, unless it ends there. -/
theorem eq_nil_of_prefix_foreign (h : IsMarker marker) {head : List Char} (hhead : IsForeign head)
    (hp : marker <+: head ++ rest) : marker = [] := by
  cases marker with
  | nil => rfl
  | cons d marker =>
    obtain rfl | ⟨e, rfl, he⟩ := hhead
    · -- behind the `i` only a combining dot could follow, and the marker would end with the `i`
      obtain ⟨rfl, hrest⟩ := List.cons_prefix_cons.1 hp
      obtain rfl := h.tail.eq_nil_of_prefix_dot hrest
      exact absurd rfl h.getLast?_ne
    · obtain ⟨rfl, -⟩ := List.cons_prefix_cons.1 hp
      have hascii := h.ascii d List.mem_cons_self
      obtain rfl | hbeyond := he
      · exact absurd rfl (h.ne_k 'k' List.mem_cons_self)
      · omega

/-- A marker at the beginning of a lower case stands at the beginning of the text. -/
theorem exists_piece_in_front (h : IsMarker marker) (hlower : IsLowered cs ds)
    (hp : marker <+: ds) : ∃ piece, piece <+: cs ∧ piece.map Char.toLower = marker := by
  induction cs generalizing marker ds with
  | nil =>
    cases hlower
    exact ⟨[], List.nil_prefix, (List.prefix_nil.1 hp).symm⟩
  | cons c cs ih =>
    obtain ⟨head, rest, rfl, hrest, hhead⟩ := hlower.exists_append
    obtain rfl | ⟨-, hforeign⟩ := hhead
    · cases marker with
      | nil => exact ⟨[], List.nil_prefix, rfl⟩
      | cons d marker =>
        obtain ⟨rfl, hmarker⟩ := List.cons_prefix_cons.1 hp
        obtain ⟨piece, hpiece, hmap⟩ := ih h.tail hrest hmarker
        exact ⟨c :: piece, List.cons_prefix_cons.2 ⟨rfl, hpiece⟩, by rw [List.map_cons, hmap]⟩
    · exact ⟨[], List.nil_prefix, (h.eq_nil_of_prefix_foreign hforeign hp).symm⟩

/-- A marker in a lower case stands in the text. -/
theorem exists_piece (h : IsMarker marker) (hlower : IsLowered cs ds) (hp : marker <:+: ds) :
    ∃ piece, piece <:+: cs ∧ piece.map Char.toLower = marker := by
  induction cs generalizing ds with
  | nil =>
    cases hlower
    exact ⟨[], List.nil_infix, (List.infix_nil.1 hp).symm⟩
  | cons c cs ih =>
    have hfront (hfront : marker <+: ds) :
        ∃ piece, piece <:+: c :: cs ∧ piece.map Char.toLower = marker := by
      obtain ⟨piece, hpiece, hmap⟩ := h.exists_piece_in_front hlower hfront
      exact ⟨piece, hpiece.isInfix, hmap⟩
    obtain ⟨head, rest, rfl, hrest, hhead⟩ := hlower.exists_append
    have hback (hback : marker <:+: rest) :
        ∃ piece, piece <:+: c :: cs ∧ piece.map Char.toLower = marker := by
      obtain ⟨piece, hpiece, hmap⟩ := ih hrest hback
      exact ⟨piece, List.infix_cons hpiece, hmap⟩
    -- behind the `i` of a dotted capital stands its dot, where no marker begins
    obtain rfl | ⟨-, rfl | ⟨d, rfl, -⟩⟩ := hhead
    · exact (List.infix_cons_iff.1 hp).elim hfront hback
    · refine (List.infix_cons_iff.1 hp).elim hfront fun hp => ?_
      refine (List.infix_cons_iff.1 hp).elim (fun hdot => ?_) hback
      exact ⟨[], List.nil_infix, (h.eq_nil_of_prefix_dot hdot).symm⟩
    · exact (List.infix_cons_iff.1 hp).elim hfront hback

/-- A piece of a text that is a marker in ASCII lower case is that marker in every lower case. -/
theorem infix_of_isLowered (h : IsMarker (cs.map Char.toLower)) {before after : List Char}
    (hlower : IsLowered (before ++ (cs ++ after)) ds) : cs.map Char.toLower <:+: ds := by
  -- a character beyond ASCII is its own ASCII lower case, and no marker contains one
  have hascii : ∀ c ∈ cs, c.toNat < 128 := by
    intro c hc
    refine Nat.lt_of_not_le fun hbeyond => ?_
    have hlt := h.ascii _ (List.mem_map_of_mem hc)
    rw [toLower_of_le hbeyond] at hlt
    omega
  obtain ⟨head, rest, rfl, hrest⟩ := hlower.exists_of_append
  obtain ⟨rest', rfl, -⟩ := hrest.exists_append_ascii hascii
  exact ⟨head, rest', List.append_assoc ..⟩

end IsMarker

/-! ### Names -/

/-- Whether a piece of a name is a marker but for the case of its ASCII letters. -/
def HasMarker (name : String) : Prop :=
  ∃ before piece after : String, name = before ++ piece ++ after ∧
    piece.toLower ∈ ["email", "phone", "ssn", "bvn", "card"]

/-- In every lower case of a name stands a marker if one stands in the name. -/
theorem any_hasPiece_iff {name : String} {lowered : List Char}
    (h : Text.IsLowered name.toList lowered) :
    sensitiveMarkers.any (fun marker => hasPiece marker.toList lowered) = true ↔
      HasMarker name := by
  simp only [List.any_eq_true, hasPiece_iff]
  constructor
  · rintro ⟨marker, hmarker, hinfix⟩
    obtain ⟨piece, ⟨before, after, hname⟩, hpiece⟩ :=
      (isMarker_of_mem hmarker).exists_piece h hinfix
    refine ⟨.ofList before, .ofList piece, .ofList after, ?_, ?_⟩
    · rw [← String.toList_inj]
      simp [← hname]
    · have hlower : (String.ofList piece).toLower = marker := by
        rw [← String.toList_inj, ← hpiece]
        change (String.map Char.toLower (String.ofList piece)).toList = _
        rw [String.toList_map, String.toList_ofList]
      rw [hlower]
      exact hmarker
  · rintro ⟨before, piece, after, rfl, hmarker⟩
    have hlist : piece.toLower.toList = piece.toList.map Char.toLower := String.toList_map
    refine ⟨piece.toLower, hmarker, ?_⟩
    rw [String.toList_append, String.toList_append, List.append_assoc] at h
    rw [hlist]
    exact (hlist ▸ isMarker_of_mem hmarker).infix_of_isLowered h

/-- A name is sensitive if and only if a piece of it is a marker but for the case of its ASCII
letters, whatever stands around that piece, and in whichever way lower case treats a sigma. -/
theorem isSensitive_iff (name : String) :
    (isSensitive name = true ↔ HasMarker name) ∧
      ∀ lowered, Text.IsLowered name.toList lowered →
        sensitiveMarkers.any (fun marker => hasPiece marker.toList lowered) = isSensitive name := by
  have hsensitive : isSensitive name = true ↔ HasMarker name :=
    any_hasPiece_iff (Text.isLowered_lower name.toList)
  refine ⟨hsensitive, fun lowered h => ?_⟩
  rw [Bool.eq_iff_iff, hsensitive]
  exact any_hasPiece_iff h

/-- Sigmas around a marker change nothing, and a dotted capital in its place makes it none. -/
example : isSensitive "ΣeMaiLΣ" = true ∧ isSensitive "emaİl" = false := by decide +kernel

end TrustBoundary
