import Mathlib.Tactic.SplitIfs
import TrustBoundary.Proofs.Record.Reading
import TrustBoundary.Steps

/-!
# Two ways to read a record

A record is read by way of a value (`Record.read`), or straight from the text (`Record.decoder`).
The latter turns every value into a scalar as soon as it is read, the former all of them at the end.
Filing and turning can be done in either order (`Fields.map_insert`), so both go through an object
in the same steps, keep the same member of each name, nest as deep and stop at the same faults
(`Record.decoder_run_of_brace`).  On any text they give the same record or none
(`Record.decoder_run_eq_ok_iff_read`).
-/

namespace TrustBoundary

open Json

variable {α β : Type}

/-! ### Turning values while they are filed -/

/-- A value may be changed before it is filed or with all the others. -/
theorem Fields.map_insert (f : α → β) (fs : Fields α) (name : String) (v : α) :
    (fs.map fun _ v => f v).insert name (f v) = (fs.insert name v).map fun _ v => f v := by
  apply Fields.ext_get?
  intro key
  rw [get?_insert, get?_map, get?_map, get?_insert]
  split
  · rfl
  · rfl

namespace Json

/-- A member whose value is changed when it is read is filed like one that is changed later. -/
theorem memberStep_map_insert (inner : Decoder α) (f : α → β) (fs : Fields α) (name : String)
    (cs : List Char) :
    memberStep (inner.map f) Fields.insert (fs.map fun _ v => f v) name cs =
      Decoder.map (fun fs => fs.map fun _ v => f v)
        (memberStep inner Fields.insert fs name) cs := by
  rw [Decoder.map, memberStep, memberStep]
  cases colon cs with
  | error fault => rfl
  | ok rest =>
    dsimp only [bind, Except.bind]
    rw [Decoder.map]
    cases inner rest with
    | error fault => rfl
    | ok read =>
      obtain ⟨v, rest⟩ := read
      -- the value is changed before it is filed here, and after it there
      exact congrArg (fun gs => Except.ok (gs, rest)) (Fields.map_insert f fs name v)

theorem foldObject_map_insert (inner : Decoder α) (f : α → β) :
    foldObject (memberStep (inner.map f) Fields.insert) Fields.empty =
      Decoder.map (fun fs => fs.map fun _ v => f v)
        (foldObject (memberStep inner Fields.insert) Fields.empty) :=
  foldObject_map (memberStep_map_insert inner f) Fields.empty

/-- Nothing is read where another type is expected. -/
theorem wrongType_ne_ok (expected : String) (cs : List Char) (a : α) :
    wrongType expected cs ≠ .ok a := by
  intro h
  unfold wrongType at h
  split at h
  · cases h
  split_ifs at h
  -- a scalar is told when it has been read, a list, an object or what is no value at once
  iterate 6
    · obtain ⟨_, -, h⟩ := bind_eq_ok_iff.1 h
      cases h
  all_goals cases h

end Json

/-! ### Records -/

namespace Record

variable {text : String} {r : Record}

/-- Straight from a text that begins with a brace, the record of its members is read, or the fault
at which the reader of members stops. -/
theorem decoder_run_of_brace {rest : List Char} (h : skipGap text.toList = '\x7b' :: rest) :
    decoder.run text = (members text).map fun ms => ofObject (Fields.ofList ms) := by
  rw [members, ← Decoder.run_map]
  apply Decoder.run_congr
  -- both readers fold over the same members, and keep them in different ways
  have hdecoder : decoder text.toList = foldObject (memberStep ((Value.decoder
      (Value.maxDepth - 1)).map Scalar.ofValue) Fields.insert) Fields.empty rest := by
    rw [decoder, fieldsDecoder, h]
    rfl
  have hmembers : membersDecoder (Value.decoder (Value.maxDepth - 1)) text.toList =
      Decoder.map List.reverse
        (foldObject (memberStep (Value.decoder (Value.maxDepth - 1)) consMember) []) rest := by
    rw [membersDecoder, h]
    rfl
  rw [hdecoder, foldObject_map_insert, foldObject_insert, Decoder.map_map, Decoder.map,
    Decoder.map, hmembers, Decoder.map]
  cases foldObject (memberStep (Value.decoder (Value.maxDepth - 1)) consMember) [] rest with
  | error fault => rfl
  | ok read => rfl

/-- Straight from a text, a record is read only from an opening brace on. -/
theorem exists_brace_of_decoder (h : decoder.run text = .ok r) :
    ∃ rest, skipGap text.toList = '\x7b' :: rest := by
  obtain ⟨left, hread, -⟩ := Decoder.run_eq_ok_iff.1 h
  rw [decoder, fieldsDecoder] at hread
  split at hread
  next rest heq => exact ⟨rest, heq⟩
  next => exact absurd hread (wrongType_ne_ok _ _ _)

/-- Both ways give the same record of a text, or both none; and the text is told to be no object if
and only if it is a value of another kind. -/
theorem decoder_run_eq_ok_iff_read (text : String) :
    (∀ r, decoder.run text = .ok r ↔ read text = .ok r) ∧
      (read text = .error .notAnObject ↔
        ∃ v, Value.read text = .ok v ∧ ∀ ms, v ≠ .object ms) := by
  refine ⟨fun r => ?_, ?_⟩
  · rw [read_eq_ok_iff]
    constructor
    · intro h
      -- behind a brace both ways are the reading of the members
      obtain ⟨rest, hbrace⟩ := exists_brace_of_decoder h
      rw [decoder_run_of_brace hbrace] at h
      cases hms : members text with
      | error e =>
        rw [hms] at h
        cases h
      | ok ms =>
        rw [hms] at h
        exact ⟨ms, rfl, (Except.ok.inj h).symm⟩
    · rintro ⟨ms, hms, rfl⟩
      obtain ⟨rest, hbrace⟩ := exists_brace_of_members hms
      rw [decoder_run_of_brace hbrace, hms]
      rfl
  · rw [read]
    cases Value.read text with
    | error e => simp
    | ok v =>
      cases v with
      | object ms => simp [ofValue?]
      | _ => simp [ofValue?]

end Record

end TrustBoundary
