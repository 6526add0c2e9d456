/-!
# Values filed under names

`Fields α` keeps one value of type `α` under each of finitely many names, in ascending order of
the names.  Names compare code point by code point, which is also the order of their UTF-8 bytes.
The order is part of the type, so two collections that file the same values under the same names
are the same collection (`ext_get?`), whatever was done to build them.

The view is `get?`, which finds the value of an entry (`get?_eq_some_iff`): `get?_insert`,
`get?_erase`, `get?_map` and `get?_modify` say what each operation does to it.
-/

namespace TrustBoundary

/-- One value under each of finitely many names, in ascending order of the names. -/
@[ext]
structure Fields (α : Type) where
  /-- The names with their values. -/
  toList : List (String × α)
  /-- Each name is smaller than every name after it. -/
  ascending : toList.Pairwise fun a b => a.1 < b.1

namespace Fields

variable {α β : Type}

instance [DecidableEq α] : DecidableEq (Fields α) := fun a b =>
  decidable_of_iff (a.toList = b.toList) Fields.ext_iff.symm

instance [BEq α] : BEq (Fields α) := ⟨fun a b => a.toList == b.toList⟩

/-! ### Ascending lists of entries -/

/-- The value that stands under `name`. -/
def lookup (name : String) : List (String × α) → Option α
  | [] => none
  | (n, v) :: rest => if n = name then some v else lookup name rest

/-- Files `value` under `name`, in its place or instead of the value that stands there. -/
def insertEntry (name : String) (value : α) : List (String × α) → List (String × α)
  | [] => [(name, value)]
  | (n, v) :: rest =>
    if name < n then (name, value) :: (n, v) :: rest
    else if name = n then (name, value) :: rest
    else (n, v) :: insertEntry name value rest

/-- Takes the entry under `name` out. -/
def eraseEntry (name : String) : List (String × α) → List (String × α)
  | [] => []
  | (n, v) :: rest => if n = name then rest else (n, v) :: eraseEntry name rest

theorem mem_insertEntry {name : String} {value : α} {e : String × α} {l : List (String × α)}
    (h : e ∈ insertEntry name value l) : e = (name, value) ∨ e ∈ l := by
  induction l with
  | nil => exact .inl (by simpa [insertEntry] using h)
  | cons hd tl ih =>
    obtain ⟨n, v⟩ := hd
    rw [insertEntry] at h
    split at h
    · simpa using h
    · split at h
      · rcases List.mem_cons.1 h with h | h
        · exact .inl h
        · exact .inr (List.mem_cons_of_mem _ h)
      · rcases List.mem_cons.1 h with h | h
        · exact .inr (h ▸ List.mem_cons_self)
        · exact (ih h).imp id (List.mem_cons_of_mem _)

theorem mem_of_mem_eraseEntry {name : String} {e : String × α} {l : List (String × α)}
    (h : e ∈ eraseEntry name l) : e ∈ l := by
  induction l with
  | nil => simp [eraseEntry] at h
  | cons hd tl ih =>
    obtain ⟨n, v⟩ := hd
    rw [eraseEntry] at h
    split at h
    · exact List.mem_cons_of_mem _ h
    · rcases List.mem_cons.1 h with h | h
      · exact h ▸ List.mem_cons_self
      · exact List.mem_cons_of_mem _ (ih h)

/-- Of two names one is smaller, or they are the same. -/
theorem lt_of_not_lt_of_ne {a b : String} (h : ¬ a < b) (hne : a ≠ b) : b < a :=
  Decidable.byContradiction fun hn =>
    hne (String.le_antisymm (String.not_lt.1 hn) (String.not_lt.1 h))

theorem ascending_insertEntry (name : String) (value : α) {l : List (String × α)}
    (h : l.Pairwise fun a b => a.1 < b.1) :
    (insertEntry name value l).Pairwise fun a b => a.1 < b.1 := by
  induction l with
  | nil => simp [insertEntry]
  | cons hd tl ih =>
    obtain ⟨n, v⟩ := hd
    obtain ⟨hhead, htail⟩ := List.pairwise_cons.1 h
    rw [insertEntry]
    split
    · next hlt =>
      refine List.pairwise_cons.2 ⟨fun e he => ?_, h⟩
      rcases List.mem_cons.1 he with rfl | he
      · exact hlt
      · exact String.lt_trans hlt (hhead e he)
    · next hlt =>
      split
      · next heq =>
        subst heq
        exact List.pairwise_cons.2 ⟨hhead, htail⟩
      · next hne =>
        refine List.pairwise_cons.2 ⟨fun e he => ?_, ih htail⟩
        rcases mem_insertEntry he with rfl | he
        · exact lt_of_not_lt_of_ne hlt hne
        · exact hhead e he

theorem ascending_eraseEntry (name : String) {l : List (String × α)}
    (h : l.Pairwise fun a b => a.1 < b.1) :
    (eraseEntry name l).Pairwise fun a b => a.1 < b.1 := by
  induction l with
  | nil => simp [eraseEntry]
  | cons hd tl ih =>
    obtain ⟨n, v⟩ := hd
    obtain ⟨hhead, htail⟩ := List.pairwise_cons.1 h
    rw [eraseEntry]
    split
    · exact htail
    · exact List.pairwise_cons.2 ⟨fun e he => hhead e (mem_of_mem_eraseEntry he), ih htail⟩

theorem ascending_map (f : String → α → β) {l : List (String × α)}
    (h : l.Pairwise fun a b => a.1 < b.1) :
    (l.map fun e => (e.1, f e.1 e.2)).Pairwise fun a b => a.1 < b.1 :=
  List.pairwise_map.2 h

/-! ### Operations -/

/-- No names at all. -/
def empty : Fields α := ⟨[], .nil⟩

instance : Inhabited (Fields α) := ⟨empty⟩

/-- The number of names. -/
def size (fs : Fields α) : Nat := fs.toList.length

/-- Whether there are no names. -/
def isEmpty (fs : Fields α) : Bool := fs.toList.isEmpty

/-- The names, in ascending order. -/
def names (fs : Fields α) : List String := fs.toList.map (·.1)

/-- The value under `name`, if there is one. -/
def get? (fs : Fields α) (name : String) : Option α := lookup name fs.toList

/-- Whether something is filed under `name`. -/
def contains (fs : Fields α) (name : String) : Bool := (fs.get? name).isSome

/-- Files `value` under `name`, instead of what stands there. -/
def insert (fs : Fields α) (name : String) (value : α) : Fields α :=
  ⟨insertEntry name value fs.toList, ascending_insertEntry name value fs.ascending⟩

/-- Takes `name` out. -/
def erase (fs : Fields α) (name : String) : Fields α :=
  ⟨eraseEntry name fs.toList, ascending_eraseEntry name fs.ascending⟩

/-- Changes every value; the change may look at the name. -/
def map (f : String → α → β) (fs : Fields α) : Fields β :=
  ⟨fs.toList.map fun e => (e.1, f e.1 e.2), ascending_map f fs.ascending⟩

/-- Changes the value under `name`, if there is one. -/
def modify (fs : Fields α) (name : String) (f : α → α) : Fields α :=
  fs.map fun n v => if n = name then f v else v

/-- Files the entries one after the other, so that of two entries with one name the later stays. -/
def ofList (entries : List (String × α)) : Fields α :=
  entries.foldl (fun fs e => fs.insert e.1 e.2) empty

/-! ### The view -/

@[simp] theorem toList_empty : (empty : Fields α).toList = [] := rfl

@[simp] theorem toList_insert (fs : Fields α) (name : String) (value : α) :
    (fs.insert name value).toList = insertEntry name value fs.toList := rfl

@[simp] theorem toList_map (f : String → α → β) (fs : Fields α) :
    (fs.map f).toList = fs.toList.map fun e => (e.1, f e.1 e.2) := rfl

@[simp] theorem get?_empty (name : String) : (empty : Fields α).get? name = none := rfl

theorem lookup_insertEntry (name key : String) (value : α) (l : List (String × α)) :
    lookup key (insertEntry name value l) = if name = key then some value else lookup key l := by
  induction l with
  | nil => rfl
  | cons hd tl ih =>
    obtain ⟨n, v⟩ := hd
    rw [insertEntry]
    split
    · simp [lookup]
    · split
      · next heq =>
        subst heq
        by_cases hk : name = key <;> simp [lookup, hk]
      · next hne =>
        simp only [lookup, ih]
        by_cases hk : n = key
        · have : name ≠ key := fun h => hne (h.trans hk.symm)
          simp [hk, this]
        · simp [hk]

@[simp] theorem get?_insert (fs : Fields α) (name key : String) (value : α) :
    (fs.insert name value).get? key = if name = key then some value else fs.get? key :=
  lookup_insertEntry name key value fs.toList

theorem lookup_eq_none {name : String} {l : List (String × α)}
    (h : ∀ e ∈ l, name < e.1) : lookup name l = none := by
  induction l with
  | nil => rfl
  | cons hd tl ih =>
    have hne : hd.1 ≠ name := fun he =>
      String.lt_irrefl name (by simpa [he] using h hd List.mem_cons_self)
    simp [lookup, hne, ih fun e he => h e (List.mem_cons_of_mem _ he)]

theorem mem_of_lookup {name : String} {value : α} {l : List (String × α)}
    (h : lookup name l = some value) : (name, value) ∈ l := by
  induction l with
  | nil => simp [lookup] at h
  | cons hd tl ih =>
    obtain ⟨n, v⟩ := hd
    rw [lookup] at h
    split at h
    · next heq =>
      obtain rfl := Option.some.inj h
      exact heq ▸ List.mem_cons_self
    · exact List.mem_cons_of_mem _ (ih h)

theorem lookup_of_mem {name : String} {value : α} {l : List (String × α)}
    (hl : l.Pairwise fun a b => a.1 < b.1) (h : (name, value) ∈ l) :
    lookup name l = some value := by
  induction l with
  | nil => cases h
  | cons hd tl ih =>
    obtain ⟨hhead, htail⟩ := List.pairwise_cons.1 hl
    rcases List.mem_cons.1 h with rfl | h
    · simp [lookup]
    · have hne : hd.1 ≠ name := fun he =>
        String.lt_irrefl name (by simpa [he] using hhead _ h)
      simpa [lookup, hne] using ih htail h

/-- Under a name stands the value of its entry. -/
theorem get?_eq_some_iff {fs : Fields α} {name : String} {value : α} :
    fs.get? name = some value ↔ (name, value) ∈ fs.toList :=
  ⟨mem_of_lookup, lookup_of_mem fs.ascending⟩

theorem get?_eq_none_iff {fs : Fields α} {name : String} :
    fs.get? name = none ↔ name ∉ fs.names := by
  simp [Option.eq_none_iff_forall_ne_some, get?_eq_some_iff, names]

theorem lookup_eraseEntry (name key : String) {l : List (String × α)}
    (h : l.Pairwise fun a b => a.1 < b.1) :
    lookup key (eraseEntry name l) = if name = key then none else lookup key l := by
  induction l with
  | nil => simp [eraseEntry, lookup]
  | cons hd tl ih =>
    obtain ⟨n, v⟩ := hd
    obtain ⟨hhead, htail⟩ := List.pairwise_cons.1 h
    rw [eraseEntry]
    split
    · next heq =>
      subst heq
      -- the names behind the one taken out are greater, so it does not stand there again
      by_cases hk : n = key
      · subst hk
        simpa using lookup_eq_none hhead
      · simp [lookup, hk]
    · next hne =>
      by_cases hk : n = key
      · have : name ≠ key := fun h => hne (hk.trans h.symm)
        simp [lookup, hk, this]
      · simp [lookup, hk, ih htail]

@[simp] theorem get?_erase (fs : Fields α) (name key : String) :
    (fs.erase name).get? key = if name = key then none else fs.get? key :=
  lookup_eraseEntry name key fs.ascending

theorem lookup_map (f : String → α → β) (key : String) (l : List (String × α)) :
    lookup key (l.map fun e => (e.1, f e.1 e.2)) = (lookup key l).map (f key) := by
  induction l with
  | nil => rfl
  | cons hd tl ih =>
    obtain ⟨n, v⟩ := hd
    by_cases hk : n = key
    · subst hk
      simp [lookup]
    · simp [lookup, hk, ih]

@[simp] theorem get?_map (f : String → α → β) (fs : Fields α) (key : String) :
    (fs.map f).get? key = (fs.get? key).map (f key) :=
  lookup_map f key fs.toList

@[simp] theorem get?_modify (fs : Fields α) (name key : String) (f : α → α) :
    (fs.modify name f).get? key = if key = name then (fs.get? key).map f else fs.get? key := by
  rw [modify, get?_map]
  by_cases hk : key = name <;> simp [hk]

@[simp] theorem names_map (f : String → α → β) (fs : Fields α) : (fs.map f).names = fs.names := by
  simp [names]

@[simp] theorem names_modify (fs : Fields α) (name : String) (f : α → α) :
    (fs.modify name f).names = fs.names :=
  names_map _ fs

theorem ext_lookup {l k : List (String × α)} (hl : l.Pairwise fun a b => a.1 < b.1)
    (hk : k.Pairwise fun a b => a.1 < b.1) (h : ∀ name, lookup name l = lookup name k) : l = k := by
  induction l generalizing k with
  | nil =>
    cases k with
    | nil => rfl
    | cons hd tl => simpa [lookup] using h hd.1
  | cons a l ih =>
    obtain ⟨hla, hlt⟩ := List.pairwise_cons.1 hl
    cases k with
    | nil => simpa [lookup] using h a.1
    | cons b k =>
      obtain ⟨hkb, hkt⟩ := List.pairwise_cons.1 hk
      -- the smaller of the two first names would not be found in the other list
      have hab : a.1 = b.1 := by
        refine Decidable.byContradiction fun hne => ?_
        by_cases hlt' : a.1 < b.1
        · have := h a.1
          rw [lookup_eq_none (l := b :: k) fun e he => ?_] at this
          · simp [lookup] at this
          · rcases List.mem_cons.1 he with rfl | he
            · exact hlt'
            · exact String.lt_trans hlt' (hkb e he)
        · have hba := lt_of_not_lt_of_ne hlt' hne
          have := h b.1
          rw [lookup_eq_none (l := a :: l) fun e he => ?_] at this
          · simp [lookup] at this
          · rcases List.mem_cons.1 he with rfl | he
            · exact hba
            · exact String.lt_trans hba (hla e he)
      have hv : a.2 = b.2 := by simpa [lookup, hab] using h a.1
      have : a = b := Prod.ext hab hv
      subst this
      refine congrArg (a :: ·) (ih hlt hkt fun name => ?_)
      by_cases hn : a.1 = name
      · subst hn
        rw [lookup_eq_none hla, lookup_eq_none hkb]
      · simpa [lookup, hn] using h name

/-- What stands under each name determines the collection. -/
theorem ext_get? {fs gs : Fields α} (h : ∀ name, fs.get? name = gs.get? name) : fs = gs :=
  Fields.ext (ext_lookup fs.ascending gs.ascending h)

end Fields

end TrustBoundary
