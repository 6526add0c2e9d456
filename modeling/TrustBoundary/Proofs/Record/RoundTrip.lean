import TrustBoundary.Proofs.Json.Whole
import TrustBoundary.Proofs.Record.Reading

/-!
# Records are read as they are written

A record is written as an object with a member for each field, and each value as what it is: null, a
truth value, a number or a string.  Only the text of a double may be read as another number
(`reread?`); every other value is read back from what is written for it (`Scalar.reads_toValue`).
So a record without doubles is read back as it was, and no other such record is written alike
(`Record.read_text_of_isExact`).
-/

namespace TrustBoundary

open Json

namespace Scalar

/-- Whether a field holds anything but a double. -/
def isExact : Scalar → Bool
  | null | bool _ | number (.whole _ _) | text _ => true
  | number (.float _ _) => false

theorem ofValue_toValue (v : Scalar) : ofValue v.toValue = v := by
  cases v <;> rfl

/-- A field without a double is read as the value that is written for it. -/
theorem reads_toValue {v : Scalar} (h : v.isExact = true) (depth : Nat) :
    (Value.decoder depth).Reads v.toValue v.toValue := by
  match v, h with
  | null, _ => exact Value.reads_null depth
  | bool b, _ => exact Value.reads_bool depth b
  | number (.whole n hn), _ => exact Value.reads_whole depth hn
  | text s, _ => exact Value.reads_string depth s

end Scalar

namespace Record

/-- No field holds a double. -/
def IsExact (r : Record) : Prop := ∀ e ∈ r.toList, e.2.isExact = true

instance (r : Record) : Decidable r.IsExact :=
  inferInstanceAs (Decidable (∀ e ∈ r.toList, e.2.isExact = true))

/-- What is written for the fields of a record are their values. -/
theorem ofObject_toValue (r : Record) : ofObject (r.map fun _ v => v.toValue) = r := by
  apply Fields.ext_get?
  intro name
  rw [ofObject, Fields.get?_map, Fields.get?_map, Option.map_map]
  cases r.get? name with
  | none => rfl
  | some v => exact congrArg some v.ofValue_toValue

/-- The members of a written record are its fields. -/
theorem members_text {r : Record} (h : r.IsExact) :
    members r.text = .ok (r.map fun _ v => v.toValue).toList := by
  apply members_of_reads
  rw [List.forall₂_same]
  rintro ⟨name, v⟩ hmem
  obtain ⟨e, he, heq⟩ := List.mem_map.1 hmem
  obtain ⟨-, rfl⟩ := Prod.mk.inj heq
  exact ⟨rfl, Scalar.reads_toValue (h e he) _⟩

/-- A record without doubles is read back from its text, with the same kind of value in every field,
and every other such record has another text. -/
theorem read_text_of_isExact (r : Record) (h : r.IsExact) :
    read r.text = .ok r ∧ ∀ s : Record, s.IsExact → s ≠ r → s.text ≠ r.text := by
  have hread {s : Record} (hs : s.IsExact) : read s.text = .ok s := by
    refine read_eq_ok_iff.2 ⟨_, members_text hs, ?_⟩
    rw [Fields.ofList_toList, ofObject_toValue]
  refine ⟨hread h, ?_⟩
  -- two records with one text are both what is read from it
  intro s hs hne htext
  have hsame := hread hs
  rw [htext, hread h] at hsame
  exact hne (Except.ok.inj hsame).symm

/-- A record with the least and the greatest whole number, a text that is JSON itself, a text of
characters that need an escape, and a field without a name. -/
def awkwardRecord : Record := Fields.ofList [
  ("", .text "\x00\t\n\"\\\u00e9\u2028"),
  ("greatest", .number (.whole 0xffffffffffffffff (by decide))),
  ("least", .number (.whole (-0x8000000000000000) (by decide))),
  ("nested", .text "\x7b\"amount\":[1,null]\x7d"),
  ("none", .null),
  ("\"so\"", .bool true)]

theorem read_text_of_isExact_awkwardRecord :
    awkwardRecord.IsExact ∧ read awkwardRecord.text = .ok awkwardRecord ∧
      Record.text (Fields.ofList [("none", .null)]) ≠ awkwardRecord.text := by
  have hexact : awkwardRecord.IsExact := by decide +kernel
  obtain ⟨hread, hother⟩ := read_text_of_isExact awkwardRecord hexact
  exact ⟨hexact, hread, hother _ (by decide +kernel) (by decide +kernel)⟩

end Record

end TrustBoundary
