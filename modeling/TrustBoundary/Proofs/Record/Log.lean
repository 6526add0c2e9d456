import Mathlib.Data.List.Dedup
import TrustBoundary.Proofs.Record.Edits

/-!
# A log of what is written

Instead of a record one may keep a log: every value that is written is noted behind those before it,
and so is every name that is taken out.  Nothing is ever changed in a log, and nothing in it has an
order but that of time.  What stands under a name is what has been written there last, unless it has
been taken out since (`lastWritten?`).  Edits can be made in a log as well (`Edit.note`), and a
record and a log in which the same stands under every name cannot be told apart by edits: the same
is told of each of them, and again the same stands under every name (`Follows.perform`).
-/

namespace TrustBoundary.Record

/-- What is written under a name: a value, or that there is none any more. -/
structure Write where
  name : String
  value? : Option Scalar
deriving DecidableEq

/-! ### What stands under a name -/

/-- What stands under a name according to a log, in which the oldest writes come first. -/
def lastWritten? (log : List Write) (name : String) : Option Scalar :=
  (log.reverse.find? (·.name = name)).bind Write.value?

section

variable {log more : List Write} {name : String} {v : Scalar}

/-- What is written later counts, if there is anything. -/
theorem lastWritten?_append (log more : List Write) (name : String) :
    lastWritten? (log ++ more) name =
      ((more.reverse.find? (·.name = name)).or (log.reverse.find? (·.name = name))).bind
        Write.value? := by
  rw [lastWritten?, List.reverse_append, List.find?_append]

theorem lastWritten?_concat (log : List Write) (w : Write) (name : String) :
    lastWritten? (log ++ [w]) name = if w.name = name then w.value? else lastWritten? log name := by
  rw [lastWritten?_append, List.reverse_singleton, List.find?_singleton, lastWritten?]
  by_cases h : w.name = name
  · simp [h]
  · simp [h]

/-- A value stands under a name if it has been written there and nothing has been written there
since. -/
theorem lastWritten?_eq_some_iff : lastWritten? log name = some v ↔
    ∃ before later, log = before ++ ⟨name, some v⟩ :: later ∧ ∀ w ∈ later, w.name ≠ name := by
  rw [lastWritten?, Option.bind_eq_some_iff]
  constructor
  · rintro ⟨⟨written, value?⟩, hfind, hvalue⟩
    -- what is found first from the end has nothing of that name behind it
    obtain ⟨hname, later, before, hlog, hlater⟩ := List.find?_eq_some_iff_append.1 hfind
    obtain rfl : written = name := of_decide_eq_true hname
    obtain rfl : value? = some v := hvalue
    refine ⟨before.reverse, later.reverse, ?_, fun w hw => ?_⟩
    · rw [← List.reverse_reverse log, hlog]
      simp
    · simpa using hlater w (List.mem_reverse.1 hw)
  · rintro ⟨before, later, rfl, hlater⟩
    refine ⟨⟨name, some v⟩, List.find?_eq_some_iff_append.2 ⟨decide_eq_true rfl, later.reverse,
      before.reverse, by simp, fun w hw => ?_⟩, rfl⟩
    simpa using hlater w (List.mem_reverse.1 hw)

theorem exists_write_of_lastWritten? (h : lastWritten? log name = some v) :
    ∃ w ∈ log, w.name = name := by
  obtain ⟨before, later, rfl, -⟩ := lastWritten?_eq_some_iff.1 h
  exact ⟨_, List.mem_append_right before List.mem_cons_self, rfl⟩

end

/-- The names under which something stands. -/
def standingNames (log : List Write) : List String :=
  (log.map Write.name).dedup.filter fun name => (lastWritten? log name).isSome

/-- The writes by which values are replaced under all names, where `change` gives a new one. -/
def rewrites (change : String → Scalar → Option Scalar) (log : List Write) : List Write :=
  (standingNames log).filterMap fun name =>
    ((lastWritten? log name).bind (change name)).map fun v => ⟨name, some v⟩

theorem nodup_standingNames (log : List Write) : (standingNames log).Nodup :=
  (List.nodup_dedup _).filter _

theorem mem_standingNames_iff {log : List Write} {name : String} :
    name ∈ standingNames log ↔ ∃ v, lastWritten? log name = some v := by
  rw [standingNames, List.mem_filter, List.mem_dedup, Option.isSome_iff_exists, List.mem_map]
  exact ⟨And.right, fun ⟨v, h⟩ => ⟨exists_write_of_lastWritten? h, v, h⟩⟩

theorem mem_rewrites_iff {change : String → Scalar → Option Scalar} {log : List Write} {w : Write} :
    w ∈ rewrites change log ↔ ∃ v new, lastWritten? log w.name = some v ∧
      change w.name v = some new ∧ w.value? = some new := by
  obtain ⟨name, value?⟩ := w
  rw [rewrites, List.mem_filterMap]
  constructor
  · rintro ⟨key, -, hwrite⟩
    obtain ⟨new, hnew, heq⟩ := Option.map_eq_some_iff.1 hwrite
    obtain ⟨rfl, rfl⟩ := Write.mk.inj heq
    obtain ⟨v, hv, hchange⟩ := Option.bind_eq_some_iff.1 hnew
    exact ⟨v, new, hv, hchange, rfl⟩
  · rintro ⟨v, new, hv, hchange, rfl⟩
    dsimp only at hv hchange
    exact ⟨name, mem_standingNames_iff.2 ⟨v, hv⟩, by rw [hv, Option.bind_some, hchange]; rfl⟩

theorem lastWritten?_append_rewrites (change : String → Scalar → Option Scalar) (log : List Write)
    (name : String) : lastWritten? (log ++ rewrites change log) name =
      (lastWritten? log name).map fun v => (change name v).getD v := by
  rw [lastWritten?_append]
  cases hfind : (rewrites change log).reverse.find? (·.name = name) with
  | none =>
    rw [Option.none_or]
    change lastWritten? log name = _
    cases hv : lastWritten? log name with
    | none => rfl
    | some v =>
      -- otherwise a new value would have been written
      have hkept : change name v = none := by
        rw [Option.eq_none_iff_forall_ne_some]
        intro new hnew
        have hmem : ⟨name, some new⟩ ∈ rewrites change log :=
          mem_rewrites_iff.2 ⟨v, new, hv, hnew, rfl⟩
        simpa using List.find?_eq_none.1 hfind _ (List.mem_reverse.2 hmem)
      rw [Option.map_some, hkept, Option.getD_none]
  | some w =>
    -- a new value was written, and it is made of the one that stood there
    have hmem := List.mem_reverse.1 (List.mem_of_find?_eq_some hfind)
    obtain rfl : w.name = name := by simpa using List.find?_some hfind
    obtain ⟨v, new, hv, hnew, hw⟩ := mem_rewrites_iff.1 hmem
    rw [Option.some_or, Option.bind_some, hw, hv, Option.map_some, hnew, Option.getD_some]

/-! ### Edits in a log -/

/-- What masking writes for the value of a field, if it replaces it. -/
def maskedValue? (name : String) (v : Scalar) : Option Scalar :=
  if isMasked name v then some (.text (TrustBoundary.mask v.display)) else none

theorem isSome_maskedValue? (name : String) (v : Scalar) :
    (maskedValue? name v).isSome = isMasked name v := by
  unfold maskedValue?
  split
  next h => exact h.symm
  next h => exact (Bool.eq_false_iff.2 h).symm

theorem getD_maskedValue? (name : String) (v : Scalar) :
    (maskedValue? name v).getD v = masked name v := by
  unfold maskedValue? masked
  split <;> rfl

/-- Notes a write. -/
def noteWrite (name : String) (value? : Option Scalar) (log : List Write) : List Write :=
  log ++ [⟨name, value?⟩]

/-- Notes what the changes of named texts write, up to the first that fails. -/
def noteChanges {ε : Type} (change : Nat → String → Except ε String) :
    List String → List Write → Except ε Nat × List Write
  | [], log => (.ok 0, log)
  | name :: names, log =>
    match lastWritten? log name with
    | some (.text old) =>
      match change 0 old with
      | .error e => (.error e, log)
      | .ok new =>
        let (count, log) :=
          noteChanges (fun i => change (i + 1)) names (noteWrite name (some (.text new)) log)
        (count.map (· + 1), log)
    | _ => noteChanges (fun i => change (i + 1)) names log

/-- Makes an edit in a log. -/
def Edit.note : Edit → StateM (List Write) Reply
  | insert name value => fun log =>
    (.previous (lastWritten? log name), noteWrite name (some value) log)
  | assign name change => fun log =>
    match lastWritten? log name with
    | some old => (.found true, noteWrite name (some (change old)) log)
    | none => (.found false, log)
  | remove name => fun log => (.previous (lastWritten? log name), noteWrite name none log)
  | assignEach change => fun log => (.done, log ++ rewrites change log)
  | mask => fun log =>
    (.changed (.ok (rewrites maskedValue? log).length), log ++ rewrites maskedValue? log)
  | encrypt e nonces names => Reply.changed <$> noteChanges (fun i => e.encrypt (nonces i)) names
  | decrypt e names => Reply.changed <$> noteChanges (fun _ => e.decrypt) names

/-! ### Records and logs -/

/-- Whether in a record stands what has been written last. -/
def Follows (r : Record) (log : List Write) : Prop := ∀ name, r.get? name = lastWritten? log name

namespace Follows

variable {r : Record} {log : List Write}

theorem insert (h : Follows r log) (name : String) (value : Scalar) :
    Follows (Fields.insert r name value) (noteWrite name (some value) log) := by
  intro key
  rw [Fields.get?_insert, noteWrite, lastWritten?_concat, h key]

theorem erase (h : Follows r log) (name : String) :
    Follows (Fields.erase r name) (noteWrite name none log) := by
  intro key
  rw [Fields.get?_erase, noteWrite, lastWritten?_concat, h key]

theorem modify (h : Follows r log) {name : String} {old : Scalar}
    (hold : lastWritten? log name = some old) (change : Scalar → Scalar) :
    Follows (Fields.modify r name change) (noteWrite name (some (change old)) log) := by
  intro key
  rw [Fields.get?_modify, noteWrite, lastWritten?_concat, h key]
  by_cases hkey : key = name
  · rw [if_pos hkey, if_pos hkey.symm, hkey, hold, Option.map_some]
  · rw [if_neg hkey, if_neg (Ne.symm hkey)]

theorem map (h : Follows r log) (change : String → Scalar → Option Scalar) :
    Follows (Fields.map (fun name v => (change name v).getD v) r) (log ++ rewrites change log) := by
  intro key
  rw [Fields.get?_map, lastWritten?_append_rewrites, h key]

theorem changeFields {ε : Type} (h : Follows r log) (change : Nat → String → Except ε String)
    (names : List String) :
    (Encryptor.changeFields change names r).1 = (noteChanges change names log).1 ∧
      Follows (Encryptor.changeFields change names r).2 (noteChanges change names log).2 := by
  induction names generalizing change r log with
  | nil => exact ⟨rfl, h⟩
  | cons name names ih =>
    rw [Encryptor.changeFields, noteChanges, h name]
    -- the record and the log tell the same of the first name, and of the others by induction
    cases lastWritten? log name with
    | none => exact ih h fun i => change (i + 1)
    | some v =>
      cases v with
      | text old =>
        dsimp only
        cases change 0 old with
        | error e => exact ⟨rfl, h⟩
        | ok new =>
          -- the value is written in both, so they agree for the names that are left
          obtain ⟨hcount, hfollows⟩ := ih (h.insert name (.text new)) fun i => change (i + 1)
          exact ⟨congrArg (Except.map (· + 1)) hcount, hfollows⟩
      | null | bool b | number n => exact ih h fun i => change (i + 1)

/-- The same names are in a record and stand in the log. -/
theorem perm_names (h : Follows r log) : (standingNames log).Perm r.names := by
  refine (List.perm_ext_iff_of_nodup (nodup_standingNames log) r.nodup_names).2 fun name => ?_
  rw [mem_standingNames_iff, ← h name, ← Option.ne_none_iff_exists', ne_eq,
    Fields.get?_eq_none_iff, Decidable.not_not]

theorem length_rewrites (h : Follows r log) (change : String → Scalar → Option Scalar) :
    (rewrites change log).length = r.toList.countP fun e => (change e.1 e.2).isSome := by
  rw [rewrites, List.length_filterMap_eq_countP, h.perm_names.countP_eq, Fields.names,
    List.countP_map]
  apply List.countP_congr
  rintro ⟨name, v⟩ he
  rw [Function.comp_apply, ← h name, Fields.get?_eq_some_iff.2 he, Option.bind_some,
    Option.isSome_map]

/-- Of an edit the same is told in a record and in a log, and the same stands in both
afterwards. -/
theorem perform (h : Follows r log) (e : Edit) :
    (e.perform r).1 = (e.note log).1 ∧ Follows (e.perform r).2 (e.note log).2 := by
  cases e with
  | insert name value =>
    rw [Edit.perform_insert]
    exact ⟨congrArg Reply.previous (h name), h.insert name value⟩
  | assign name change =>
    change Reply.found (r.contains name) = _ ∧ Follows (r.modify name change) _
    rw [Fields.contains, h name, Edit.note]
    dsimp only
    cases hold : lastWritten? log name with
    | none =>
      -- without a value under the name nothing is changed
      have hself : r.modify name change = r := modify_eq_self (by rw [h name, hold]; rfl)
      rw [hself]
      exact ⟨rfl, h⟩
    | some old => exact ⟨rfl, h.modify hold change⟩
  | remove name =>
    rw [Edit.perform_remove]
    exact ⟨congrArg Reply.previous (h name), h.erase name⟩
  | assignEach change => exact ⟨rfl, h.map change⟩
  | mask =>
    rw [Edit.perform_mask]
    constructor
    · refine congrArg (fun count => Reply.changed (.ok count)) ?_
      -- the fields that masking replaces are those for which it writes
      rw [h.length_rewrites, maskCount]
      refine List.countP_congr fun e _ => ?_
      rw [isSome_maskedValue?]
    · have hmask : r.map (fun name v => (maskedValue? name v).getD v) = r.mask :=
        congrArg (Fields.map · r) (funext₂ getD_maskedValue?)
      rw [← hmask]
      exact h.map maskedValue?
  | encrypt e nonces names =>
    obtain ⟨hresult, hfollows⟩ := h.changeFields (fun i => e.encrypt (nonces i)) names
    exact ⟨congrArg Reply.changed hresult, hfollows⟩
  | decrypt e names =>
    obtain ⟨hresult, hfollows⟩ := h.changeFields (fun _ => e.decrypt) names
    exact ⟨congrArg Reply.changed hresult, hfollows⟩

end Follows

end TrustBoundary.Record
