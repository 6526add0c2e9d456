import TrustBoundary.Proofs.Masking.InPlace
import TrustBoundary.Proofs.Protection.FieldChanges

/-!
# Edits of a record

A record is edited field by field: a value is filed, replaced or taken out.  Who files or takes out
a value is given the one that stood there before (`Fields.put`, `Fields.take`).  It is found on the
same way through the entries on which the place for the new one is looked for, because they ascend
(`Fields.put_eq`, `Fields.take_eq`).  Several fields are edited at once by going through all of
them, by masking, and by protecting and recovering those that are named; an edit of the latter kind
may fail on the way, and the record is then left as it is at that moment (`Record.Edit.perform`).
-/

namespace TrustBoundary

/-! ### Giving back what is replaced -/

namespace Fields

variable {α : Type} {l : List (String × α)}

/-- Files `value` under `name` among ascending entries, and gives the value that it replaces. -/
def putEntry (name : String) (value : α) : List (String × α) → Option α × List (String × α)
  | [] => (none, [(name, value)])
  | (n, v) :: rest =>
    if name < n then (none, (name, value) :: (n, v) :: rest)
    else if name = n then (some v, (name, value) :: rest)
    else
      let (old, rest) := putEntry name value rest
      (old, (n, v) :: rest)

/-- Takes the entry under `name` out of ascending entries, and gives its value.  Behind the place of
the name nothing is looked for. -/
def takeEntry (name : String) : List (String × α) → Option α × List (String × α)
  | [] => (none, [])
  | (n, v) :: rest =>
    if name < n then (none, (n, v) :: rest)
    else if name = n then (some v, rest)
    else
      let (old, rest) := takeEntry name rest
      (old, (n, v) :: rest)

/-- A name in front of the first is not there. -/
theorem lookup_cons_of_lt {name n : String} {v : α}
    (h : ((n, v) :: l).Pairwise fun a b => a.1 < b.1) (hlt : name < n) :
    lookup name ((n, v) :: l) = none := by
  refine lookup_eq_none fun e he => ?_
  rcases List.mem_cons.1 he with rfl | he
  · exact hlt
  · exact String.lt_trans hlt ((List.pairwise_cons.1 h).1 e he)

theorem eraseEntry_eq_self {name : String} (h : lookup name l = none) : eraseEntry name l = l := by
  induction l with
  | nil => rfl
  | cons e l ih =>
    obtain ⟨n, v⟩ := e
    rw [lookup] at h
    split at h
    · cases h
    next hne => rw [eraseEntry, if_neg hne, ih h]

theorem putEntry_eq (name : String) (value : α) (h : l.Pairwise fun a b => a.1 < b.1) :
    putEntry name value l = (lookup name l, insertEntry name value l) := by
  induction l with
  | nil => rfl
  | cons e l ih =>
    obtain ⟨n, v⟩ := e
    rw [putEntry, insertEntry]
    by_cases hlt : name < n
    · rw [if_pos hlt, if_pos hlt, lookup_cons_of_lt h hlt]
    · rw [if_neg hlt, if_neg hlt, lookup]
      by_cases heq : name = n
      · rw [if_pos heq, if_pos heq, if_pos heq.symm]
      · rw [if_neg heq, if_neg heq, if_neg (Ne.symm heq), ih (List.pairwise_cons.1 h).2]

theorem takeEntry_eq (name : String) (h : l.Pairwise fun a b => a.1 < b.1) :
    takeEntry name l = (lookup name l, eraseEntry name l) := by
  induction l with
  | nil => rfl
  | cons e l ih =>
    obtain ⟨n, v⟩ := e
    rw [takeEntry]
    by_cases hlt : name < n
    · -- behind the place of the name it is nowhere
      have hnone := lookup_cons_of_lt h hlt
      rw [if_pos hlt, hnone, eraseEntry_eq_self hnone]
    · rw [if_neg hlt, lookup, eraseEntry]
      by_cases heq : name = n
      · rw [if_pos heq, if_pos heq.symm, if_pos heq.symm]
      · rw [if_neg heq, if_neg (Ne.symm heq), if_neg (Ne.symm heq),
          ih (List.pairwise_cons.1 h).2]

/-- Files a value, and gives the one that stood under the name. -/
def put (name : String) (value : α) : StateM (Fields α) (Option α) := fun fs =>
  ((putEntry name value fs.toList).1, ⟨(putEntry name value fs.toList).2, by
    rw [putEntry_eq name value fs.ascending]
    exact ascending_insertEntry name value fs.ascending⟩)

/-- Takes a name out, and gives the value that stood under it. -/
def take (name : String) : StateM (Fields α) (Option α) := fun fs =>
  ((takeEntry name fs.toList).1, ⟨(takeEntry name fs.toList).2, by
    rw [takeEntry_eq name fs.ascending]
    exact ascending_eraseEntry name fs.ascending⟩)

/-- Changes the value under a name, and tells whether there is one. -/
def assign (name : String) (change : α → α) : StateM (Fields α) Bool := fun fs =>
  (fs.contains name, fs.modify name change)

theorem put_eq (name : String) (value : α) (fs : Fields α) :
    put name value fs = (fs.get? name, fs.insert name value) := by
  obtain ⟨hvalue, hentries⟩ := Prod.ext_iff.1 (putEntry_eq name value fs.ascending)
  exact Prod.ext hvalue (Fields.ext hentries)

theorem take_eq (name : String) (fs : Fields α) :
    take name fs = (fs.get? name, fs.erase name) := by
  obtain ⟨hvalue, hentries⟩ := Prod.ext_iff.1 (takeEntry_eq name fs.ascending)
  exact Prod.ext hvalue (Fields.ext hentries)

end Fields

/-! ### Edits -/

namespace Record

/-- What is done to a record. -/
inductive Edit where
  /-- A value is filed under a name. -/
  | insert (name : String) (value : Scalar)
  /-- The value under a name is replaced, if there is one. -/
  | assign (name : String) (change : Scalar → Scalar)
  /-- A name is taken out. -/
  | remove (name : String)
  /-- All fields are gone through, and some of their values are replaced. -/
  | assignEach (change : String → Scalar → Option Scalar)
  /-- The sensitive values are masked. -/
  | mask
  /-- Some fields are protected. -/
  | encrypt (e : Encryptor) (nonces : Nat → Nonce) (names : List String)
  /-- Some fields are recovered. -/
  | decrypt (e : Encryptor) (names : List String)

/-- What is told of an edit. -/
inductive Reply where
  /-- The value that stood under the name. -/
  | previous (value : Option Scalar)
  /-- Whether there is a field of the name. -/
  | found (isThere : Bool)
  | done
  /-- How many fields have been changed, or why not all of them. -/
  | changed (result : Except ProtectionError Nat)

/-- Edits a record. -/
def Edit.perform : Edit → StateM Record Reply
  | insert name value => Reply.previous <$> Fields.put name value
  | assign name change => Reply.found <$> Fields.assign name change
  | remove name => Reply.previous <$> Fields.take name
  | assignEach change => fun r => (.done, r.map fun name v => (change name v).getD v)
  | mask => (fun count => .changed (.ok count)) <$> maskInPlace
  | encrypt e nonces names => Reply.changed <$> e.encryptFields nonces names
  | decrypt e names => Reply.changed <$> e.decryptFields names

namespace Edit

theorem perform_insert (name : String) (value : Scalar) (r : Record) :
    (insert name value).perform r = (.previous (r.get? name), Fields.insert r name value) := by
  change (Reply.previous (Fields.put name value r).1, (Fields.put name value r).2) = _
  rw [Fields.put_eq]

theorem perform_remove (name : String) (r : Record) :
    (remove name).perform r = (.previous (r.get? name), Fields.erase r name) := by
  change (Reply.previous (Fields.take name r).1, (Fields.take name r).2) = _
  rw [Fields.take_eq]

theorem perform_mask (r : Record) :
    mask.perform r = (.changed (.ok r.maskCount), Record.mask r) := by
  change (Reply.changed (.ok (maskInPlace.run r).1), (maskInPlace.run r).2) = _
  rw [maskInPlace_eq]

end Edit

end Record

end TrustBoundary
