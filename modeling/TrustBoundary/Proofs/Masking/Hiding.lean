import TrustBoundary.Proofs.Masking.Objects
import TrustBoundary.Proofs.Record.Reading

/-!
# What masking hides

Two texts are masked alike if and only if both have no more than four characters, or both have more
and end with the same four (`mask_eq_mask_iff`).  So a masked record tells of a sensitive field
whether it is null, and otherwise no more than these four characters (`Record.mask_eq_mask_iff`):
neither how long the hidden part is nor whether it was a string, a number or something nested.  The
same holds of what is printed for the record of a text (`Record.maskText_eq_maskText`), in which the
order of the members and the blanks between them are lost as well.
-/

namespace TrustBoundary

open Json

/-! ### Texts -/

/-- Both texts have no more than four characters, or both have more and end with the same four. -/
def EndAlike (a b : String) : Prop :=
  a.length ≤ 4 ∧ b.length ≤ 4 ∨
    4 < a.length ∧ 4 < b.length ∧
      ∃ shown : List Char, shown.length = 4 ∧ shown <:+ a.toList ∧ shown <:+ b.toList

/-- What a masked text shows behind the token. -/
def shownPart (cs : List Char) : List Char :=
  if cs.length ≤ 4 then [] else cs.drop (cs.length - 4)

theorem mask_eq (a : String) : mask a = maskToken ++ String.ofList (shownPart a.toList) := by
  unfold mask shownPart visibleSuffix
  dsimp only
  split <;> rfl

theorem mask_eq_mask_iff_shownPart {a b : String} :
    mask a = mask b ↔ shownPart a.toList = shownPart b.toList := by
  rw [mask_eq, mask_eq, ← String.toList_inj, String.toList_append, String.toList_append,
    List.append_cancel_left_eq, String.toList_ofList, String.toList_ofList]

/-- What is shown of a text is nothing, or the last four of more characters. -/
theorem shownPart_eq_nil_iff {cs : List Char} : shownPart cs = [] ↔ cs.length ≤ 4 := by
  unfold shownPart
  split
  next h => simp [h]
  next h =>
    simp only [List.drop_eq_nil_iff, h, iff_false]
    omega

theorem shownPart_eq_iff {cs shown : List Char} (h : 4 < cs.length) :
    shownPart cs = shown ↔ shown.length = 4 ∧ shown <:+ cs := by
  unfold shownPart
  rw [if_neg (by omega)]
  constructor
  · rintro rfl
    refine ⟨?_, List.drop_suffix _ _⟩
    rw [List.length_drop]
    omega
  · rintro ⟨hlength, hsuffix⟩
    rw [← hlength]
    exact (List.suffix_iff_eq_drop.1 hsuffix).symm

/-- Texts are masked alike if and only if they end alike. -/
theorem mask_eq_mask_iff {a b : String} : mask a = mask b ↔ EndAlike a b := by
  rw [mask_eq_mask_iff_shownPart]
  unfold EndAlike
  rw [← String.length_toList, ← String.length_toList]
  -- a text of no more than four characters shows nothing, and a longer one does show something
  by_cases ha : a.toList.length ≤ 4 <;> by_cases hb : b.toList.length ≤ 4
  · simp [shownPart_eq_nil_iff.2 ha, shownPart_eq_nil_iff.2 hb, ha, hb]
  · rw [shownPart_eq_nil_iff.2 ha, eq_comm, shownPart_eq_nil_iff]
    omega
  · rw [shownPart_eq_nil_iff.2 hb, shownPart_eq_nil_iff]
    omega
  · rw [shownPart_eq_iff (by omega)]
    constructor
    · rintro ⟨hlength, hsuffix⟩
      obtain ⟨-, hsuffixb⟩ := (shownPart_eq_iff (Nat.not_le.1 hb)).1 rfl
      exact .inr ⟨Nat.not_le.1 ha, Nat.not_le.1 hb, shownPart b.toList, hlength, hsuffix, hsuffixb⟩
    · rintro (⟨ha', -⟩ | ⟨-, -, shown, hlength, hsuffixa, hsuffixb⟩)
      · exact absurd ha' ha
      · rw [(shownPart_eq_iff (Nat.not_le.1 hb)).2 ⟨hlength, hsuffixb⟩]
        exact ⟨hlength, hsuffixa⟩

instance (a b : String) : Decidable (EndAlike a b) := decidable_of_iff _ mask_eq_mask_iff

/-! ### Records -/

/-- Two values that masking shows alike under `name`: the same value or, if the field is sensitive,
null twice or two values that are displayed with the same end. -/
def Scalar.AlikeUnder (name : String) (v w : Scalar) : Prop :=
  if isSensitive name then
    v = .null ∧ w = .null ∨ v ≠ .null ∧ w ≠ .null ∧ EndAlike v.display w.display
  else v = w

/-- Two records of the same fields, in which masking shows the same. -/
structure Record.LooksLike (r s : Record) : Prop where
  /-- The names are the same. -/
  names : r.names = s.names
  /-- Under each name stand two values that are shown alike. -/
  values : ∀ name v w, r.get? name = some v → s.get? name = some w → v.AlikeUnder name w

namespace Record

theorem masked_of_not_isSensitive {name : String} (h : ¬ isSensitive name) (v : Scalar) :
    masked name v = v := by
  simp [masked, isMasked, h]

@[simp] theorem masked_null (name : String) : masked name .null = .null := rfl

theorem masked_of_isSensitive {name : String} {v : Scalar} (h : isSensitive name)
    (hv : v ≠ .null) : masked name v = .text (TrustBoundary.mask v.display) := by
  have hnull : v.isNull = false := by
    rw [← Bool.not_eq_true, Scalar.isNull_iff]
    exact hv
  simp [masked, isMasked, h, hnull]

/-- Values are masked alike if and only if masking shows them alike. -/
theorem masked_eq_masked_iff {name : String} {v w : Scalar} :
    masked name v = masked name w ↔ v.AlikeUnder name w := by
  unfold Scalar.AlikeUnder
  split
  next hname =>
    -- null stays as it is, and it is no mask
    by_cases hv : v = .null <;> by_cases hw : w = .null
    · simp [hv, hw]
    · simp [hv, hw, masked_of_isSensitive hname hw]
    · simp [hv, hw, masked_of_isSensitive hname hv]
    · simp [hv, hw, masked_of_isSensitive hname, mask_eq_mask_iff]
  next hname => rw [masked_of_not_isSensitive hname, masked_of_not_isSensitive hname]

instance (name : String) (v w : Scalar) : Decidable (v.AlikeUnder name w) :=
  decidable_of_iff _ masked_eq_masked_iff

/-- Records are masked alike if and only if they look alike. -/
theorem mask_eq_mask_iff {r s : Record} : r.mask = s.mask ↔ r.LooksLike s := by
  constructor
  · intro h
    refine ⟨by rw [← names_mask r, h, names_mask], fun name v w hv hw => ?_⟩
    have hget := congrArg (fun m : Record => m.get? name) h
    rw [get?_mask, get?_mask, hv, hw] at hget
    exact masked_eq_masked_iff.1 (Option.some.inj hget)
  · intro h
    apply Fields.ext_get?
    intro name
    rw [get?_mask, get?_mask]
    -- the names are the same, so no field of one record is missing in the other
    match hv : r.get? name, hw : s.get? name with
    | none, none => rfl
    | none, some w =>
      rw [Fields.get?_eq_none_iff, h.names, ← Fields.get?_eq_none_iff, hw] at hv
      cases hv
    | some v, none =>
      rw [Fields.get?_eq_none_iff, ← h.names, ← Fields.get?_eq_none_iff, hv] at hw
      cases hw
    | some v, some w => exact congrArg some (masked_eq_masked_iff.2 (h.values name v w hv hw))

/-- A masked value is not null, so masking a second time would replace it again. -/
theorem isMasked_masked (name : String) (v : Scalar) :
    isMasked name (masked name v) = isMasked name v := by
  unfold masked
  split
  next h =>
    have hname : isSensitive name = true := (Bool.and_eq_true_iff.1 h).2
    rw [h, isMasked, hname]
    rfl
  next => rfl

/-- Masking replaces as many values in a masked record as in the record itself. -/
theorem maskCount_mask (r : Record) : r.mask.maskCount = r.maskCount := by
  unfold maskCount
  rw [toList_mask, List.countP_map]
  apply List.countP_congr
  intro e _
  rw [Function.comp_apply, isMasked_masked]

/-! ### Texts of records -/

/-- What is printed for the text of a record: the text of the masked record, and how many values are
replaced in it. -/
def maskText (text : String) : Except Error (String × Nat) :=
  (read text).map fun r => (r.mask.text, r.maskCount)

/-- The same is printed for the texts of two records that look alike, in whatever order the members
stand there and wherever there are blanks. -/
theorem maskText_eq_maskText {a b : String} {r s : Record} (ha : read a = .ok r)
    (hb : read b = .ok s) (h : r.LooksLike s) :
    ∃ shown, maskText a = .ok shown ∧ maskText b = .ok shown := by
  have hmask : r.mask = s.mask := mask_eq_mask_iff.2 h
  have hcount : r.maskCount = s.maskCount := by rw [← maskCount_mask, hmask, maskCount_mask]
  refine ⟨(r.mask.text, r.maskCount), ?_, ?_⟩
  · rw [maskText, ha]
    rfl
  · rw [maskText, hb, hmask, hcount]
    rfl

/-- The text of a record in which the card is a number and the BVN a truth value. -/
def plainCustomer : String :=
  "\x7b\"name\":\"Ada\",\"card\":4111111111111111,\"phone\":null,\"bvn\":true\x7d"

/-- The text of a record of the same fields, in which the card is a string and the BVN a list. -/
def nestedCustomer : String :=
  " \x7b \"bvn\": [7], \"card\": \"55-00 1111\", \"phone\": null, \"name\": \"Ada\" \x7d"

/-- The record of `plainCustomer`. -/
def plainCustomerRecord : Record := .ofList [
  ("name", .text "Ada"), ("card", .number (.whole 4111111111111111 (by decide))),
  ("phone", .null), ("bvn", .bool true)]

/-- The record of `nestedCustomer`. -/
def nestedCustomerRecord : Record := .ofList [
  ("name", .text "Ada"), ("card", .text "55-00 1111"), ("phone", .null), ("bvn", .text "[7]")]

theorem maskText_eq_maskText_customers :
    plainCustomerRecord ≠ nestedCustomerRecord ∧
    ∃ shown, maskText plainCustomer = .ok shown ∧ maskText nestedCustomer = .ok shown := by
  have hplain : read plainCustomer = .ok plainCustomerRecord := by decide +kernel
  have hnested : read nestedCustomer = .ok nestedCustomerRecord := by decide +kernel
  have hvalues : ∀ e ∈ plainCustomerRecord.toList, ∀ f ∈ nestedCustomerRecord.toList,
      e.1 = f.1 → e.2.AlikeUnder e.1 f.2 := by decide +kernel
  have halike : plainCustomerRecord.LooksLike nestedCustomerRecord := by
    refine ⟨by decide +kernel, fun name v w hv hw => ?_⟩
    rw [Fields.get?_eq_some_iff] at hv hw
    exact hvalues _ hv _ hw rfl
  exact ⟨by decide +kernel, maskText_eq_maskText hplain hnested halike⟩

end Record

end TrustBoundary
