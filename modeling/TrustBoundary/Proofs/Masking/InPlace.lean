import TrustBoundary.Proofs.Masking.Hiding

/-!
# Masking in place

A record is masked where it stands by going through its fields one after the other and counting the
values that are replaced (`Record.maskInPlace`).  A field is looked at only in its own turn, so the
changes made on the way do not meddle with each other, and the run leaves the masked record
(`Record.maskFields_eq`, `Record.maskInPlace_eq`).  What has been masked is masked again to what it
is (`mask_mask`), so that a second run changes nothing; but it counts the same values once more.
-/

namespace TrustBoundary

/-! ### Masked texts -/

/-- What is shown for a value: the token alone for up to four characters, and otherwise the token
and the last four. -/
def ShownAs (value shown : String) : Prop :=
  value.length ≤ 4 ∧ shown = "****" ∨
    4 < value.length ∧ ∃ suffix : String, suffix.length = 4 ∧ suffix.toList <:+ value.toList ∧
      shown = "****" ++ suffix

theorem shownAs_mask (value : String) : ShownAs value (mask value) := by
  rw [ShownAs, mask_eq, ← String.length_toList]
  by_cases hshort : value.toList.length ≤ 4
  · exact .inl ⟨hshort, by rw [shownPart_eq_nil_iff.2 hshort]; rfl⟩
  · obtain ⟨hlength, hsuffix⟩ := (shownPart_eq_iff (Nat.not_le.1 hshort)).1 rfl
    refine .inr ⟨Nat.not_le.1 hshort, .ofList (shownPart value.toList), ?_, ?_, rfl⟩
    · rw [← String.length_toList, String.toList_ofList, hlength]
    · rw [String.toList_ofList]
      exact hsuffix

/-- A masked text shows of itself what it shows already. -/
theorem mask_mask (value : String) : mask (mask value) = mask value := by
  rw [mask_eq_mask_iff_shownPart]
  have hlist : (mask value).toList = maskToken.toList ++ shownPart value.toList := by
    rw [mask_eq, String.toList_append, String.toList_ofList]
  rw [hlist]
  by_cases hshort : value.toList.length ≤ 4
  · rw [shownPart_eq_nil_iff.2 hshort]
    rfl
  · obtain ⟨hlength, -⟩ := (shownPart_eq_iff (Nat.not_le.1 hshort)).1 rfl
    -- the token is four characters long, so the last four are those that are shown already
    have htoken : maskToken.toList.length = 4 := rfl
    rw [shownPart_eq_iff (by rw [List.length_append]; omega)]
    exact ⟨hlength, List.suffix_append _ _⟩

/-- No name stands twice. -/
theorem Fields.nodup_names {α : Type} (fs : Fields α) : fs.names.Nodup := by
  rw [names, List.nodup_iff_pairwise_ne, List.pairwise_map]
  refine fs.ascending.imp ?_
  intro e e' hlt heq
  rw [heq] at hlt
  exact String.lt_irrefl _ hlt

namespace Record

/-! ### Runs over the fields -/

/-- Masks the value of one field where it stands, and tells how many values that replaces. -/
def maskField (name : String) : StateM Record Nat := fun r =>
  match r.get? name with
  | some v =>
    if isMasked name v then (1, r.modify name fun _ => .text (TrustBoundary.mask v.display))
    else (0, r)
  | none => (0, r)

/-- Masks the values of fields where they stand, one after the other, and counts those that are
replaced. -/
def maskFields : List String → StateM Record Nat
  | [] => return 0
  | name :: names => do
    let first ← maskField name
    let others ← maskFields names
    return first + others

/-- Masks a record in place, and tells how many values have been replaced. -/
def maskInPlace : StateM Record Nat := do
  let r ← get
  maskFields r.names

/-- A masked copy of a record. -/
def maskedCopy : StateM Record Record := do
  let r ← get
  return (maskInPlace.run r).2

/-- Whether masking replaces the value under a name. -/
def replacesAt (r : Record) (name : String) : Bool := (r.get? name).any (isMasked name)

theorem maskFields_cons (name : String) (names : List String) (r : Record) :
    maskFields (name :: names) r =
      ((maskField name r).1 + (maskFields names (maskField name r).2).1,
        (maskFields names (maskField name r).2).2) := rfl

theorem modify_congr {r : Record} {name : String} {f g : Scalar → Scalar}
    (h : (r.get? name).map f = (r.get? name).map g) : r.modify name f = r.modify name g := by
  apply Fields.ext_get?
  intro key
  rw [Fields.get?_modify, Fields.get?_modify]
  split
  next heq => rw [heq, h]
  next => rfl

theorem modify_id (r : Record) (name : String) : r.modify name id = r := by
  apply Fields.ext_get?
  intro key
  rw [Fields.get?_modify, Option.map_id, id, ite_self]

theorem modify_eq_self {r : Record} {name : String} {f : Scalar → Scalar}
    (h : (r.get? name).map f = r.get? name) : r.modify name f = r :=
  (modify_congr (h.trans Option.map_id'.symm)).trans (r.modify_id name)

/-- A step counts one value if it replaces one, and masks the field of that name. -/
theorem maskField_eq (name : String) (r : Record) :
    maskField name r = (if r.replacesAt name then 1 else 0, r.modify name (masked name)) := by
  cases hv : r.get? name with
  | none =>
    have hself : r.modify name (masked name) = r := modify_eq_self (by rw [hv, Option.map_none])
    simp only [maskField, replacesAt, hv, hself, Option.any_none, Bool.false_eq_true, if_false]
  | some v =>
    simp only [maskField, replacesAt, hv, Option.any_some]
    by_cases h : isMasked name v = true
    · rw [if_pos h, if_pos h]
      refine congrArg (Prod.mk 1) (modify_congr ?_)
      rw [hv, Option.map_some, Option.map_some, masked, if_pos h]
    · rw [if_neg h, if_neg h]
      refine congrArg (Prod.mk 0) (modify_eq_self ?_).symm
      rw [hv, Option.map_some, masked, if_neg h]

/-- A run masks the fields that it goes through, if it goes through each of them once, and leaves
the others as they are. -/
theorem maskFields_eq {names : List String} (hnodup : names.Nodup) (r : Record) :
    (maskFields names r).1 = names.countP r.replacesAt ∧
      ∀ key, (maskFields names r).2.get? key =
        if key ∈ names then (r.get? key).map (masked key) else r.get? key := by
  induction names generalizing r with
  | nil => exact ⟨rfl, fun key => rfl⟩
  | cons name names ih =>
    obtain ⟨hname, hnodup⟩ := List.nodup_cons.1 hnodup
    -- the other fields are found in their turn as they have been at first
    have hother (key : String) (hkey : key ∈ names) :
        (r.modify name (masked name)).get? key = r.get? key := by
      rw [Fields.get?_modify, if_neg]
      rintro rfl
      exact hname hkey
    rw [maskFields_cons, maskField_eq]
    obtain ⟨hcount, hget⟩ := ih hnodup (r.modify name (masked name))
    constructor
    · have hcongr : names.countP (replacesAt (r.modify name (masked name))) =
          names.countP r.replacesAt :=
        List.countP_congr fun key hkey => by rw [replacesAt, hother key hkey, replacesAt]
      rw [hcount, hcongr, List.countP_cons, Nat.add_comm]
    · intro key
      rw [hget]
      by_cases hkey : key ∈ names
      · rw [if_pos hkey, if_pos (List.mem_cons_of_mem name hkey), hother key hkey]
      · rw [if_neg hkey, Fields.get?_modify]
        by_cases heq : key = name
        · rw [if_pos heq, if_pos (heq ▸ List.mem_cons_self), heq]
        · rw [if_neg heq, if_neg (by simp [heq, hkey])]

/-- The run over all fields leaves the masked record, and counts what masking replaces. -/
theorem maskInPlace_eq (r : Record) : maskInPlace.run r = (r.maskCount, r.mask) := by
  obtain ⟨hcount, hget⟩ := maskFields_eq r.nodup_names r
  refine Prod.ext (hcount.trans ?_) (Fields.ext_get? fun key => (hget key).trans ?_)
  · -- counted over the names here and over the fields there
    rw [maskCount, Fields.names, List.countP_map]
    apply List.countP_congr
    rintro ⟨name, v⟩ he
    rw [Function.comp_apply, replacesAt, Fields.get?_eq_some_iff.2 he, Option.any_some]
  · rw [get?_mask]
    split
    next => rfl
    next hkey => rw [Fields.get?_eq_none_iff.2 hkey, Option.map_none]

/-! ### What masking does to a record -/

theorem masked_masked (name : String) (v : Scalar) :
    masked name (masked name v) = masked name v := by
  by_cases h : isMasked name v = true
  · have hmasked : masked name v = .text (TrustBoundary.mask v.display) := if_pos h
    have hagain : isMasked name (masked name v) = true := by rw [isMasked_masked, h]
    rw [masked, if_pos hagain, hmasked]
    exact congrArg Scalar.text (mask_mask v.display)
  · have hmasked : masked name v = v := if_neg h
    rw [hmasked, hmasked]

/-- Masking a masked record changes nothing. -/
theorem mask_mask (r : Record) : r.mask.mask = r.mask := by
  apply Fields.ext_get?
  intro name
  rw [get?_mask, get?_mask, Option.map_map]
  cases r.get? name with
  | none => rfl
  | some v => exact congrArg some (masked_masked name v)

theorem isMasked_iff {name : String} {v : Scalar} :
    isMasked name v = true ↔ v ≠ .null ∧ isSensitive name = true := by
  rw [isMasked, Bool.and_eq_true, Bool.not_eq_true', ← Bool.not_eq_true, Scalar.isNull_iff]

/-- Masking in place keeps the names, and the values that are null or whose names are not sensitive.
Each of the others is replaced by what is shown for it, and they are counted.  A second run changes
nothing and counts as many, and a masked copy leaves the record as it is. -/
theorem maskInPlace_outcome (r : Record) :
    ∃ n s, maskInPlace.run r = (n, s) ∧ n = r.maskCount ∧ s = r.mask ∧
      s.names = r.names ∧
      (∀ name v, r.get? name = some v → v = .null ∨ isSensitive name = false →
        s.get? name = some v) ∧
      (∀ name v, r.get? name = some v → v ≠ .null → isSensitive name = true →
        ∃ shown, s.get? name = some (.text shown) ∧ ShownAs v.display shown) ∧
      n = r.toList.countP (fun e => e.2 ≠ .null ∧ isSensitive e.1 = true) ∧
      maskInPlace.run s = (n, s) ∧ maskedCopy.run r = (s, r) := by
  refine ⟨_, _, maskInPlace_eq r, rfl, rfl, names_mask r, ?_, ?_, ?_, ?_, ?_⟩
  · rintro name v hv hkept
    have hplain : ¬ isMasked name v = true := by
      rw [isMasked_iff]
      rintro ⟨hnull, hname⟩
      exact hkept.elim hnull fun h => Bool.false_ne_true (h ▸ hname)
    rw [get?_mask, hv, Option.map_some, masked, if_neg hplain]
  · rintro name v hv hnull hname
    rw [get?_mask, hv, Option.map_some, masked, if_pos (isMasked_iff.2 ⟨hnull, hname⟩)]
    exact ⟨_, rfl, shownAs_mask v.display⟩
  · rw [maskCount]
    apply List.countP_congr
    intro e _
    rw [isMasked_iff, decide_eq_true_iff]
  · rw [maskInPlace_eq, maskCount_mask, mask_mask]
  · exact congrArg (·, r) (congrArg Prod.snd (maskInPlace_eq r))

end Record

end TrustBoundary
