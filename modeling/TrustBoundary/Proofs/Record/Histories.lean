import TrustBoundary.Proofs.Json.Stepping
import TrustBoundary.Proofs.Record.Decoders
import TrustBoundary.Proofs.Record.Log
import TrustBoundary.Text.Utf8.Order

/-!
# Records after any history

A record begins empty or is read from a text, in either of the two ways, and then it is edited any
number of times (`Reached`).  All the time it is what a log of the writes tells (`Reached.follows`):
the members of the text are writes as well, so that of two members with one name the later counts.
How a record has come about does not show: its names are listed once each, in the order of their
bytes (`isCanonical`), and what stands under the names determines the record and its text
(`history_outcome`).
-/

namespace TrustBoundary

open Json

/-! ### The first entry of a name -/

theorem Fields.lookup_eq_find? {α : Type} (name : String) (l : List (String × α)) :
    lookup name l = (l.find? (·.1 = name)).map Prod.snd := by
  induction l with
  | nil => rfl
  | cons e l ih =>
    obtain ⟨n, v⟩ := e
    rw [lookup, List.find?_cons]
    by_cases h : n = name
    · simp [h]
    · simp [h, ih]

/-! ### Comparing a record with itself -/

/-- Finite doubles are equal to themselves. -/
theorem Json.Number.same_self (n : Number) : n.same n = true := by
  cases n with
  | whole n _ => exact beq_self_eq_true n
  | float x hfinite =>
    obtain ⟨model⟩ := x
    change model.unpack.beq model.unpack = true
    change model.unpack.isFinite = true at hfinite
    cases hx : model.unpack with
    | notANumber | infinity s =>
      rw [hx] at hfinite
      cases hfinite
    | zero s => rfl
    | finite s m e hm =>
      unfold Float.Model.UnpackedFloat.beq Float.Model.UnpackedFloat.compare
      cases s <;> simp

theorem Scalar.same_self (v : Scalar) : v.same v = true := by
  cases v with
  | number n => exact n.same_self
  | null | bool b | text s => exact beq_self_eq_true _

namespace Record

/-- A record is equal to itself. -/
theorem same_self (r : Record) : r.same r = true := by
  rw [same, beq_self_eq_true, Bool.true_and, List.zip_eq_zipWith, List.zipWith_self,
    List.all_map, List.all_eq_true]
  exact fun e _ => e.2.same_self

/-! ### Names in order -/

/-- Every name under which something stands is listed once, in the order of the bytes, by the names,
by the fields and by the text of a record. -/
structure IsCanonical (r : Record) : Prop where
  mem_names_iff : ∀ name, name ∈ r.names ↔ ∃ v, r.get? name = some v
  nodup : r.names.Nodup
  ascending : r.names.Pairwise fun a b => Text.utf8 a < Text.utf8 b
  size_eq : r.size = r.names.length
  names_entries : r.toList.map Prod.fst = r.names
  mem_entries_iff : ∀ name v, (name, v) ∈ r.toList ↔ r.get? name = some v
  names_text : memberNames r.text = .ok r.names

theorem isCanonical (r : Record) : IsCanonical r where
  mem_names_iff name := by
    rw [← Option.ne_none_iff_exists', ne_eq, Fields.get?_eq_none_iff, Decidable.not_not]
  nodup := r.nodup_names
  ascending := List.pairwise_map.2 (r.ascending.imp Text.utf8_lt_utf8)
  size_eq := (List.length_map _).symm
  names_entries := rfl
  mem_entries_iff _ _ := Fields.get?_eq_some_iff.symm
  names_text := memberNames_text r

/-! ### Histories -/

/-- What reading a text writes: its members, in their order. -/
def membersWritten (text : String) : List Write :=
  match members text with
  | .ok ms => ms.map fun m => ⟨m.1, some (Scalar.ofValue m.2)⟩
  | .error _ => []

/-- The records to which a history leads, each with the log of what has been written in its
course. -/
inductive Reached : Record → List Write → Prop
  | empty : Reached Fields.empty []
  | read {text : String} {r : Record} (h : Record.read text = .ok r) :
    Reached r (membersWritten text)
  | decoded {text : String} {r : Record} (h : decoder.run text = .ok r) :
    Reached r (membersWritten text)
  | edited (e : Edit) {r : Record} {log : List Write} (h : Reached r log) :
    Reached (e.perform r).2 (e.note log).2

/-- A record that is read holds the last member of each name. -/
theorem follows_membersWritten {text : String} {r : Record} (h : read text = .ok r) :
    Follows r (membersWritten text) := by
  obtain ⟨ms, hms, -⟩ := read_eq_ok_iff.1 h
  intro name
  rw [get?_of_read h hms, lastMember?, Fields.lookup_eq_find?, membersWritten, hms, lastWritten?]
  dsimp only
  -- the last member of a name is the last write under it
  rw [← List.map_reverse, List.find?_map, Option.map_map, Option.bind_map]
  exact Option.map_eq_bind

/-- A record is what the log of its history tells. -/
theorem Reached.follows {r : Record} {log : List Write} (h : Reached r log) : Follows r log := by
  induction h with
  | empty => exact fun _ => rfl
  | read h => exact follows_membersWritten h
  | decoded h => exact follows_membersWritten ((decoder_run_eq_ok_iff_read _).1 _ |>.1 h)
  | edited e _ ih => exact (ih.perform e).2

/-- Whatever a record begins with and however it is edited, also by edits that fail on the way, it
is canonical.  Under a name stands the value that has been written there last, if nothing has been
written there and the name has not been taken out since.  Who files or takes out a value is given
the one that has stood there, and of every edit is told what is told of it in the log.  Another
history leads to the same values under the same names if and only if the last that it writes under
each name is the same; and then, in whatever order this has been done, it leads to the same record,
which is found equal and has the same text. -/
theorem history_outcome {r : Record} {log : List Write} (h : Reached r log) :
    IsCanonical r ∧
      (∀ name v, r.get? name = some v ↔ ∃ before later,
        log = before ++ ⟨name, some v⟩ :: later ∧ ∀ w ∈ later, w.name ≠ name) ∧
      (∀ name value, ((Edit.insert name value).perform r).1 = .previous (r.get? name) ∧
        ((Edit.remove name).perform r).1 = .previous (r.get? name)) ∧
      (∀ e : Edit, (e.perform r).1 = (e.note log).1) ∧
      ∀ s log', Reached s log' →
        ((∀ name, s.get? name = r.get? name) ↔
          ∀ name, lastWritten? log' name = lastWritten? log name) ∧
        ((∀ name, s.get? name = r.get? name) → s = r ∧ s.same r = true ∧ s.text = r.text) := by
  refine ⟨r.isCanonical, fun name v => ?_, fun name value => ?_, fun e => ?_, ?_⟩
  · rw [h.follows name, lastWritten?_eq_some_iff]
  · rw [Edit.perform_insert, Edit.perform_remove]
    exact ⟨rfl, rfl⟩
  · exact (h.follows.perform e).1
  · intro s log' hs
    refine ⟨forall_congr' fun name => ?_, fun hget => ?_⟩
    · rw [hs.follows name, h.follows name]
    · -- a record is no more than its values under names
      obtain rfl : s = r := Fields.ext_get? hget
      exact ⟨rfl, s.same_self, rfl⟩

/-- What is read from a text in which a name stands twice, and is then given another name that is
taken out again, with a recovery in between that fails at the second of the two values, is what
comes of filing these values in the other order. -/
theorem history_outcome_otherOrder : ∃ r log s log', Reached r log ∧ Reached s log' ∧
    log.length = 5 ∧ log'.length = 2 ∧ (∀ name, s.get? name = r.get? name) ∧
    s = r ∧ s.same r = true ∧ s.text = r.text := by
  have hread : read "\x7b\"b\":1,\"a\":null,\"b\":\"x\"\x7d" =
      .ok (Fields.ofList [("a", .null), ("b", .text "x")]) := by decide +kernel
  have hlong := (((Reached.read hread).edited (.insert "é" (.bool true))).edited
    (.decrypt (.deterministic "key") ["a", "é", "b"])).edited (.remove "é")
  have hshort := (Reached.empty.edited (.insert "b" (.text "x"))).edited (.insert "a" .null)
  -- the recovery fails at the only text that it finds, and writes nothing
  obtain ⟨r, log, hr, hlog⟩ : ∃ r log, Reached r log ∧
      log = [⟨"b", some (.number (.whole 1 (by decide)))⟩, ⟨"a", some .null⟩,
        ⟨"b", some (.text "x")⟩, ⟨"é", some (.bool true)⟩, ⟨"é", none⟩] :=
    ⟨_, _, hlong, by decide +kernel⟩
  obtain ⟨s, log', hs, hlog'⟩ : ∃ s log', Reached s log' ∧
      log' = [⟨"b", some (.text "x")⟩, ⟨"a", some .null⟩] :=
    ⟨_, _, hshort, by decide +kernel⟩
  have hlast (name : String) : lastWritten? log' name = lastWritten? log name := by
    rw [hlog, hlog']
    by_cases ha : "a" = name
    · subst ha
      rfl
    · by_cases hb : "b" = name
      · subst hb
        rfl
      · by_cases he : "é" = name
        · subst he
          rfl
        · simp [lastWritten?, ha, hb, he]
  obtain ⟨hiff, hsame⟩ := (history_outcome hr).2.2.2.2 s log' hs
  have hget := hiff.2 hlast
  exact ⟨r, log, s, log', hr, hs, by rw [hlog]; rfl, by rw [hlog']; rfl, hget, hsame hget⟩

end Record

end TrustBoundary
