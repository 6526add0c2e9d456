import TrustBoundary.Proofs.Json.Ends
import TrustBoundary.Proofs.Record.Reading

/-!
# Objects with one member

An object with one member is read if the value of that member is, up to the brace behind it
(`members_singleMember`), and so is an object inside such an object
(`Value.decoder_singleMember`).
-/

namespace TrustBoundary.Json

open Numeral

variable {α σ : Type} {inner : Decoder α} {name : String} {value rest : List Char}

/-- The text of an object with one member, of which the value is written in some way. -/
def singleMember (name : String) (value : List Char) : List Char :=
  '\x7b' :: (stringText name ++ ':' :: (value ++ ['\x7d']))

/-- A content in quotation marks. -/
def quoted (content : List Char) : List Char := '"' :: (content ++ ['"'])

theorem quoted_append (content rest : List Char) :
    quoted content ++ rest = '"' :: (content ++ '"' :: rest) := by
  simp [quoted]

/-- Whether a decoder of a text with a brace behind it reads as far as the brace, but for characters
of numerals that it may leave. -/
def Decoder.ReachesBrace (d : Decoder α) (cs : List Char) : Prop :=
  ∀ ⦃rest a tail⦄, d (cs ++ '\x7d' :: rest) = .ok (a, tail) → NumeralBefore ('\x7d' :: rest) tail

theorem memberStep_colon (inner : Decoder α) (keep : σ → String → α → σ) (s : σ) (name : String)
    (cs : List Char) :
    memberStep inner keep s name (':' :: cs) = Decoder.map (keep s name) inner cs := by
  rw [Decoder.map]
  change (inner cs >>= _) = _
  cases inner cs with
  | error fault => rfl
  | ok read => rfl

theorem foldObject_singleMember (h : inner.ReachesBrace value) (keep : σ → String → α → σ) {s t : σ}
    {tail : List Char} :
    foldObject (memberStep inner keep) s (stringText name ++ ':' :: (value ++ '\x7d' :: rest)) =
        .ok (t, tail) ↔
      ∃ v, inner (value ++ '\x7d' :: rest) = .ok (v, '\x7d' :: rest) ∧ keep s name v = t ∧
        rest = tail := by
  have hname : stringText name ++ ':' :: (value ++ '\x7d' :: rest) =
      '"' :: (name.toList.flatMap escapedChar ++ '"' :: ':' :: (value ++ '\x7d' :: rest)) := by
    rw [stringText, List.cons_append, List.append_assoc]
    rfl
  have hnext (cs : List Char) : nextMember true ('"' :: cs) = .ok (.more cs) := rfl
  -- the reader comes to the value through the quotation mark, the name and the colon
  rw [hname, foldObject, foldMembers, hnext]
  dsimp only
  rw [readString_escaped]
  dsimp only
  rw [memberStep_colon, Decoder.map, List.length_cons]
  cases hv : inner (value ++ '\x7d' :: rest) with
  | error fault => simp
  | ok read =>
    obtain ⟨v, left⟩ := read
    dsimp only
    constructor
    · intro hfold
      obtain ⟨word, hword, rfl⟩ := h hv
      obtain ⟨next, hnext⟩ := exists_next_of_foldMembers hfold
      -- the object does not go on with a part of a numeral, so none is left
      obtain rfl := eq_nil_of_nextMember hword hnext
      obtain ⟨rfl, rfl⟩ := Prod.mk.inj (Except.ok.inj hfold)
      exact ⟨v, rfl, rfl, rfl⟩
    · rintro ⟨w, hw, rfl, rfl⟩
      obtain ⟨rfl, rfl⟩ := Prod.mk.inj (Except.ok.inj hw)
      rfl

namespace Value

variable {depth : Nat} {v : Value} {tail : List Char}

/-- An object with one member is read if the value of the member is. -/
theorem decoder_singleMember (h : (decoder depth).ReachesBrace value) :
    decoder (depth + 1) (singleMember name value ++ rest) = .ok (v, tail) ↔
      ∃ w, decoder depth (value ++ '\x7d' :: rest) = .ok (w, '\x7d' :: rest) ∧
        v = .object [(name, w)] ∧ tail = rest := by
  have htext : singleMember name value ++ rest =
      '\x7b' :: (stringText name ++ ':' :: (value ++ '\x7d' :: rest)) := by
    simp [singleMember]
  rw [htext]
  change Decoder.map Value.ofFields
    (foldObject (memberStep (decoder depth) Fields.insert) Fields.empty) _ = _ ↔ _
  rw [Decoder.map_eq_ok_iff]
  constructor
  · rintro ⟨fs, hfs, rfl⟩
    obtain ⟨w, hw, rfl, rfl⟩ := (foldObject_singleMember h _).1 hfs
    exact ⟨w, hw, rfl, rfl⟩
  · rintro ⟨w, hw, rfl, rfl⟩
    exact ⟨_, (foldObject_singleMember h _).2 ⟨w, hw, rfl, rfl⟩, rfl⟩

theorem decoder_quote (depth : Nat) (cs : List Char) :
    decoder depth ('"' :: cs) = Decoder.map .string readString cs := by
  cases depth <;> rfl

theorem decoder_text (depth : Nat) (n : SignedNumeral) (rest : List Char) :
    decoder depth (n.text ++ rest) =
      Decoder.map .number (readNumeral n.isNegative) (n.numeral.text ++ rest) := by
  cases depth with
  | zero => exact decoderWith_text none n rest
  | succ depth => exact decoderWith_text (some (decoder depth)) n rest

theorem reachesBrace_quoted {content : List Char} (h : StringContent content) :
    (decoder depth).ReachesBrace (quoted content) := by
  intro rest v tail hread
  rw [quoted_append, decoder_quote] at hread
  obtain ⟨s, hs, -⟩ := Decoder.map_eq_ok_iff.1 hread
  -- the reader ends at a quotation mark, and there is only the one behind the content
  obtain ⟨content', hcontent', heq, -⟩ := exists_of_readString hs
  obtain ⟨-, rfl⟩ := h.append_inj hcontent' heq
  exact .refl _

theorem reachesBrace_text (n : SignedNumeral) : (decoder depth).ReachesBrace n.text := by
  intro rest v tail hread
  rw [decoder_text] at hread
  obtain ⟨m, hm, -⟩ := Decoder.map_eq_ok_iff.1 hread
  obtain ⟨left, hleft, rfl⟩ := (numeralBefore_of_readNumeral hm).exists_of_append
    (fun d hd => SignedNumeral.isNumeralChar_of_mem_text (List.mem_append_right _ hd)) rfl
  exact ⟨left, hleft, rfl⟩

theorem reachesBrace_singleMember (h : (decoder depth).ReachesBrace value) :
    (decoder (depth + 1)).ReachesBrace (singleMember name value) := by
  intro rest v tail hread
  obtain ⟨w, -, -, rfl⟩ := (decoder_singleMember h).1 hread
  exact .refl _

end Value

/-- The member of an object with one member. -/
theorem members_singleMember (h : (Value.decoder (Value.maxDepth - 1)).ReachesBrace value)
    {ms : List (String × Value)} : members (String.ofList (singleMember name value)) = .ok ms ↔
      ∃ w, Value.decoder (Value.maxDepth - 1) (value ++ ['\x7d']) = .ok (w, ['\x7d']) ∧
        ms = [(name, w)] := by
  have hread : membersDecoder (Value.decoder (Value.maxDepth - 1))
      (String.ofList (singleMember name value)).toList = Decoder.map List.reverse
        (foldObject (memberStep (Value.decoder (Value.maxDepth - 1)) consMember) [])
        (stringText name ++ ':' :: (value ++ ['\x7d'])) := by
    rw [String.toList_ofList, singleMember, membersDecoder_brace]
  rw [members, Decoder.run_eq_ok_iff, hread]
  constructor
  · rintro ⟨left, hleft, -⟩
    obtain ⟨ms', hfold, rfl⟩ := Decoder.map_eq_ok_iff.1 hleft
    obtain ⟨w, hw, rfl, -⟩ := (foldObject_singleMember h consMember).1 hfold
    exact ⟨w, hw, rfl⟩
  · rintro ⟨w, hw, rfl⟩
    exact ⟨[], Decoder.map_eq_ok_iff.2
      ⟨_, (foldObject_singleMember h consMember).2 ⟨w, hw, rfl, rfl⟩, rfl⟩, rfl⟩

end TrustBoundary.Json
