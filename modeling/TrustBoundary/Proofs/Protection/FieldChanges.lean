import TrustBoundary.Protection.Encryptor
import TrustBoundary.Steps

/-!
# Fields of a record changed in place

Changing named fields one after the other goes through what the changes of the first names leave
(`changeFields_append`), and leaves every other field as it is, also if a change fails
(`untouched_changeFields`).  The fields do not meddle with each other: what becomes of one depends
on the changes at its own places in the list alone (`changesAt`), so that all of them succeed if
they do so for each field by itself (`exists_changeFields_eq_ok`).
-/

namespace TrustBoundary.Encryptor

variable {ε : Type}

/-! ### The fields that are texts -/

/-- The text of a field, if it is there and holds one. -/
def textAt? (r : Record) (name : String) : Option String := (r.get? name).bind Scalar.text?

/-- At how many places of a list the name of a text stands. -/
def countTexts (r : Record) (names : List String) : Nat :=
  names.countP fun name => (textAt? r name).isSome

theorem textAt?_eq_some_iff {r : Record} {name text : String} :
    textAt? r name = some text ↔ r.get? name = some (.text text) := by
  rw [textAt?]
  cases r.get? name with
  | none => simp
  | some value => cases value <;> simp [Scalar.text?]

theorem textAt?_insert (r : Record) (name key text : String) :
    textAt? (r.insert name (.text text)) key =
      if name = key then some text else textAt? r key := by
  rw [textAt?, Fields.get?_insert]
  split <;> rfl

/-- A field that is there is changed in its place. -/
theorem insert_eq_modify {r : Record} {name : String} {value : Scalar}
    (h : r.get? name ≠ none) : r.insert name value = r.modify name fun _ => value := by
  refine Fields.ext_get? fun key => ?_
  rw [Fields.get?_insert, Fields.get?_modify]
  by_cases hkey : name = key
  · subst hkey
    rw [if_pos rfl, if_pos rfl]
    obtain ⟨old, hold⟩ := Option.ne_none_iff_exists'.1 h
    rw [hold]
    rfl
  · rw [if_neg hkey, if_neg (Ne.symm hkey)]

/-! ### One step -/

section

variable {change : Nat → String → Except ε String} {names : List String} {r : Record}
  {name old new : String}

theorem changeFields_cons_of_none (h : textAt? r name = none) :
    changeFields change (name :: names) r = changeFields (fun i => change (i + 1)) names r := by
  rw [changeFields]
  split
  · rename_i text hget
    rw [textAt?_eq_some_iff.2 hget] at h
    cases h
  · rfl

theorem changeFields_cons_of_error {e : ε} (h : textAt? r name = some old)
    (he : change 0 old = .error e) :
    changeFields change (name :: names) r = (.error e, r) := by
  rw [changeFields, textAt?_eq_some_iff.1 h]
  simp only [he]

theorem changeFields_cons_of_ok (h : textAt? r name = some old) (hnew : change 0 old = .ok new) :
    changeFields change (name :: names) r =
      ((changeFields (fun i => change (i + 1)) names (r.insert name (.text new))).1.map (· + 1),
        (changeFields (fun i => change (i + 1)) names (r.insert name (.text new))).2) := by
  rw [changeFields, textAt?_eq_some_iff.1 h]
  simp only [hnew]

end

/-- The changes of one list and then of another are those of both: what the first ones leave is what
the others begin with, unless there has been a failure. -/
theorem changeFields_append (change : Nat → String → Except ε String) (names more : List String)
    (r : Record) :
    changeFields change (names ++ more) r =
      match changeFields change names r with
      | (.error e, s) => (.error e, s)
      | (.ok count, s) =>
        ((changeFields (fun i => change (i + names.length)) more s).1.map (· + count),
          (changeFields (fun i => change (i + names.length)) more s).2) := by
  induction names generalizing change r with
  | nil =>
    show changeFields change more r = ((changeFields change more r).1.map id, _)
    rw [Except.map_id]
    rfl
  | cons name names ih =>
    rw [List.cons_append]
    cases h : textAt? r name with
    | none =>
      rw [changeFields_cons_of_none h, changeFields_cons_of_none h, ih]
      rfl
    | some old =>
      -- a failure at the first place ends both runs with the record as it is
      cases hnew : change 0 old with
      | error e => rw [changeFields_cons_of_error h hnew, changeFields_cons_of_error h hnew]
      | ok new =>
        rw [changeFields_cons_of_ok h hnew, changeFields_cons_of_ok h hnew, ih]
        cases changeFields (fun i => change (i + 1)) names (r.insert name (.text new)) with
        | mk result s =>
          cases result with
          | error e => rfl
          | ok count =>
            refine Prod.ext ?_ rfl
            show Except.map (· + 1) (Except.map (· + count) _) =
              Except.map (· + (count + 1)) _
            cases (changeFields (fun i => change (i + names.length + 1)) more s).1 <;> rfl

/-! ### What stays as it is -/

/-- A record with the names of another one, in which only texts under given names may differ. -/
structure Untouched (names : List String) (r s : Record) : Prop where
  names_eq : s.names = r.names
  get?_eq : ∀ name, name ∉ names ∨ textAt? r name = none → s.get? name = r.get? name

namespace Untouched

variable {names more : List String} {r s t : Record}

theorem refl (names : List String) (r : Record) : Untouched names r r :=
  ⟨rfl, fun _ _ => rfl⟩

theorem mono (h : Untouched names r s) (hsub : names ⊆ more) : Untouched more r s where
  names_eq := h.names_eq
  get?_eq name hname := h.get?_eq name (hname.imp_left (mt (@hsub name)))

theorem trans (hrs : Untouched names r s) (hst : Untouched more s t) :
    Untouched (names ++ more) r t where
  names_eq := hst.names_eq.trans hrs.names_eq
  get?_eq name hname := by
    rw [List.mem_append, not_or] at hname
    have hsr : s.get? name = r.get? name := hrs.get?_eq name (hname.imp_left And.left)
    rw [← hsr]
    refine hst.get?_eq name (hname.imp And.right fun hnone => ?_)
    rwa [textAt?, hsr]

theorem insert {name old : String} (h : textAt? r name = some old) (new : String) :
    Untouched [name] r (r.insert name (.text new)) where
  names_eq := by
    rw [insert_eq_modify (by simp [textAt?_eq_some_iff.1 h]), Fields.names_modify]
  get?_eq key hkey := by
    rw [Fields.get?_insert, if_neg]
    rintro rfl
    -- the name is in the list, and a text stands under it
    obtain hkey | hkey := hkey
    · exact hkey (List.mem_singleton_self name)
    · rw [h] at hkey
      cases hkey

end Untouched

/-- Whatever the changes are and whether or not one of them fails, what is not named and what is no
text stays as it is, and so do the names. -/
theorem untouched_changeFields (change : Nat → String → Except ε String) (names : List String)
    (r : Record) : Untouched names r (changeFields change names r).2 := by
  induction names generalizing change r with
  | nil => exact .refl [] r
  | cons name names ih =>
    cases h : textAt? r name with
    | none =>
      rw [changeFields_cons_of_none h]
      exact (ih _ r).mono (List.subset_cons_self name names)
    | some old =>
      cases hnew : change 0 old with
      | error e =>
        rw [changeFields_cons_of_error h hnew]
        exact .refl _ r
      | ok new =>
        rw [changeFields_cons_of_ok h hnew]
        exact (Untouched.insert h new).trans (ih _ _)

/-! ### Each field by itself -/

/-- What stands at the places where a list has a name. -/
def changesAt {α : Type} (change : Nat → α) : List String → String → List α
  | [], _ => []
  | n :: names, name =>
    if n = name then change 0 :: changesAt (fun i => change (i + 1)) names name
    else changesAt (fun i => change (i + 1)) names name

section

variable {α β : Type}

theorem length_changesAt (change : Nat → α) (names : List String) (name : String) :
    (changesAt change names name).length = names.count name := by
  induction names generalizing change with
  | nil => rfl
  | cons n names ih =>
    rw [changesAt, List.count_cons]
    split
    · rename_i heq
      rw [List.length_cons, ih, if_pos (beq_iff_eq.2 heq)]
    · rename_i hne
      rw [ih, if_neg (mt beq_iff_eq.1 hne), Nat.add_zero]

theorem map_changesAt (f : α → β) (change : Nat → α) (names : List String) (name : String) :
    (changesAt change names name).map f = changesAt (fun i => f (change i)) names name := by
  induction names generalizing change with
  | nil => rfl
  | cons n names ih =>
    rw [changesAt, changesAt]
    split
    · rw [List.map_cons, ih]
    · exact ih _

/-- One and the same change is made as often as the field is named. -/
theorem changesAt_const (change : α) (names : List String) (name : String) :
    changesAt (fun _ => change) names name = List.replicate (names.count name) change := by
  refine List.eq_replicate_iff.2 ⟨length_changesAt _ names name, fun c hc => ?_⟩
  rw [← map_changesAt (fun _ => change) id, List.mem_map] at hc
  obtain ⟨-, -, rfl⟩ := hc
  rfl

end

/-- Changes of a text, one after the other. -/
def chain : List (String → Except ε String) → String → Except ε String
  | [], text => .ok text
  | change :: changes, text => change text >>= chain changes

theorem chain_append (changes more : List (String → Except ε String)) (text : String) :
    chain (changes ++ more) text = chain changes text >>= chain more := by
  induction changes generalizing text with
  | nil => rfl
  | cons change changes ih =>
    rw [List.cons_append, chain, chain]
    cases change text with
    | error e => rfl
    | ok new => exact ih new

/-- A record whose texts have come from those of another one by changes of their own, and which else
is the same. -/
structure Becomes (changes : String → List (String → Except ε String)) (r s : Record) :
    Prop where
  text : ∀ name old, textAt? r name = some old →
    ∃ new, chain (changes name) old = .ok new ∧ textAt? s name = some new
  other : ∀ name, textAt? r name = none → s.get? name = r.get? name

namespace Becomes

variable {changes more : String → List (String → Except ε String)} {r s t : Record}

theorem isSome_textAt? (h : Becomes changes r s) (name : String) :
    (textAt? s name).isSome = (textAt? r name).isSome := by
  cases hr : textAt? r name with
  | none => rw [textAt?, h.other name hr, ← textAt?, hr]
  | some old =>
    obtain ⟨new, -, hs⟩ := h.text name old hr
    rw [hs]
    rfl

theorem countTexts_eq (h : Becomes changes r s) (names : List String) :
    countTexts s names = countTexts r names :=
  List.countP_congr fun name _ => by rw [h.isSome_textAt? name]

/-- Where a text stands, one stood before, and the changes have led from one to the other. -/
theorem exists_of_textAt? (h : Becomes changes r s) {name new : String}
    (hs : textAt? s name = some new) :
    ∃ old, textAt? r name = some old ∧ chain (changes name) old = .ok new := by
  cases hr : textAt? r name with
  | none =>
    have hsome := h.isSome_textAt? name
    rw [hs, hr] at hsome
    cases hsome
  | some old =>
    obtain ⟨new', hchain, hs'⟩ := h.text name old hr
    obtain rfl := Option.some.inj (hs'.symm.trans hs)
    exact ⟨old, rfl, hchain⟩

theorem trans (hrs : Becomes changes r s) (hst : Becomes more s t) :
    Becomes (fun name => changes name ++ more name) r t where
  text name old hold := by
    obtain ⟨mid, hmid, hs⟩ := hrs.text name old hold
    obtain ⟨new, hnew, ht⟩ := hst.text name mid hs
    refine ⟨new, ?_, ht⟩
    rw [chain_append, hmid]
    exact hnew
  other name hnone := by
    have hsr := hrs.other name hnone
    rw [← hsr]
    refine hst.other name ?_
    rwa [textAt?, hsr]

/-- If every text has been led back to itself, the record is the same. -/
theorem eq_of_chain (h : Becomes changes r s)
    (hback : ∀ name old, textAt? r name = some old → chain (changes name) old = .ok old) :
    s = r := by
  refine Fields.ext_get? fun name => ?_
  cases hr : textAt? r name with
  | none => exact h.other name hr
  | some old =>
    obtain ⟨new, hchain, hs⟩ := h.text name old hr
    obtain rfl := Except.ok.inj ((hback name old hr).symm.trans hchain)
    rw [textAt?_eq_some_iff.1 hs, textAt?_eq_some_iff.1 hr]

end Becomes

/-- The place of a name is passed over or the change is made there, according to the field. -/
theorem exists_step (change : Nat → String → Except ε String) {n : String} (names : List String)
    {r : Record} (h : ∀ old, textAt? r n = some old → ∃ new, change 0 old = .ok new) :
    ∃ s, Becomes (fun name => if n = name then [change 0] else []) r s ∧
      ∀ count t, changeFields (fun i => change (i + 1)) names s = (.ok count, t) →
        changeFields change (n :: names) r =
          (.ok (count + if (textAt? r n).isSome then 1 else 0), t) := by
  cases hn : textAt? r n with
  | none =>
    refine ⟨r, ⟨fun name old hold => ⟨old, ?_, hold⟩, fun _ _ => rfl⟩, fun count t hrest => ?_⟩
    · rw [if_neg, chain]
      rintro rfl
      rw [hn] at hold
      cases hold
    · rw [changeFields_cons_of_none hn, hrest]
      rfl
  | some old =>
    obtain ⟨new, hnew⟩ := h old hn
    refine ⟨r.insert n (.text new), ⟨fun name text htext => ?_, fun name hnone => ?_⟩,
      fun count t hrest => ?_⟩
    · rw [textAt?_insert]
      by_cases hname : n = name
      · subst hname
        obtain rfl := Option.some.inj (hn.symm.trans htext)
        refine ⟨new, ?_, if_pos rfl⟩
        rw [if_pos rfl, chain, hnew]
        rfl
      · refine ⟨text, ?_, (if_neg hname).trans htext⟩
        rw [if_neg hname, chain]
    · exact (Untouched.insert hn new).get?_eq name (.inr hnone)
    · rw [changeFields_cons_of_ok hn hnew, hrest]
      rfl

/-- If for each text its own changes succeed one after the other, then all of them do, and every
place with the name of a text is counted. -/
theorem exists_changeFields_eq_ok {change : Nat → String → Except ε String} {names : List String}
    {r : Record} (h : ∀ name old, textAt? r name = some old →
      ∃ new, chain (changesAt change names name) old = .ok new) :
    ∃ s, changeFields change names r = (.ok (countTexts r names), s) ∧
      Becomes (changesAt change names) r s := by
  induction names generalizing change r with
  | nil => exact ⟨r, rfl, fun name old hold => ⟨old, rfl, hold⟩, fun _ _ => rfl⟩
  | cons n names ih =>
    have hsplit : changesAt change (n :: names) = fun name =>
        (if n = name then [change 0] else []) ++
          changesAt (fun i => change (i + 1)) names name := by
      funext name
      rw [changesAt]
      split <;> rfl
    have hfirst : ∀ old, textAt? r n = some old → ∃ new, change 0 old = .ok new := by
      intro old hold
      obtain ⟨last, hlast⟩ := h n old hold
      rw [changesAt, if_pos rfl, chain, bind_eq_ok_iff] at hlast
      exact hlast.imp fun new hnew => hnew.1
    -- the induction is on the list, with the first place as a step of its own
    obtain ⟨s, hstep, hrun⟩ := exists_step change names hfirst
    -- the changes that are left succeed on what the first step has made of each text
    have hleft : ∀ name mid, textAt? s name = some mid →
        ∃ new, chain (changesAt (fun i => change (i + 1)) names name) mid = .ok new := by
      intro name mid hmid
      obtain ⟨old, hold, hmade⟩ := hstep.exists_of_textAt? hmid
      obtain ⟨last, hlast⟩ := h name old hold
      rw [hsplit, chain_append, hmade] at hlast
      exact ⟨last, hlast⟩
    obtain ⟨t, hrest, hbecomes⟩ := ih hleft
    refine ⟨t, ?_, ?_⟩
    · rw [hrun _ _ hrest, hstep.countTexts_eq, countTexts, countTexts, List.countP_cons]
    · rw [hsplit]
      exact hstep.trans hbecomes

end TrustBoundary.Encryptor
