import TrustBoundary.Json.Reader
import TrustBoundary.Json.Printer
import TrustBoundary.Proofs.Decimal.Numeral
import TrustBoundary.Proofs.Json.Strings

/-!
# Printed objects are read member by member

`Decoder.Reads d v a` says that `d` reads what is printed for the value `v` as `a`, whatever
follows.  An object is read by handing its members to a step one after the other.  If the step reads
what is printed for each member in its turn (`Takes`), so is the object read as a whole
(`foldObject_membersChars`); and if it stops at a member, so does the reader of the object
(`foldObject_stops`).
-/

namespace TrustBoundary.Json

open Numeral

variable {α β σ : Type}

/-! ### What follows a value -/

theorem endsBefore_nil : EndsBefore [] := fun c hc => absurd hc (Option.not_mem_none c)

theorem endsBefore_cons {c : Char} (h : goesOnWith c = false) (rest : List Char) :
    EndsBefore (c :: rest) := by
  intro d hd
  obtain rfl := Option.mem_some.1 hd
  exact h

namespace Decoder

/-- Whether a decoder reads what is printed for a value as `a`, whatever follows. -/
def Reads (d : Decoder α) (v : Value) (a : α) : Prop :=
  ∀ rest, EndsBefore rest → d (v.chars ++ rest) = .ok (a, rest)

variable {d : Decoder α} {v : Value} {a : α}

theorem Reads.map (h : d.Reads v a) (f : α → β) : (d.map f).Reads v (f a) := by
  intro rest hrest
  rw [Decoder.map, h rest hrest]

/-- The text of a value that is read is read to its end. -/
theorem Reads.run (h : d.Reads v a) : d.run v.text = .ok a := by
  have hread := h [] endsBefore_nil
  rw [List.append_nil] at hread
  rw [Decoder.run, Value.text, String.toList_ofList]
  dsimp only
  rw [hread]
  rfl

/-- If a decoder stops at what is printed for a value, so it does at the text of the value. -/
theorem run_eq_error {cause : Cause} {fault : Fault} (h : d v.chars = .error fault)
    (hcause : fault.cause = cause) : ∃ place, d.run v.text = .error ⟨cause, place⟩ := by
  rw [Decoder.run, Value.text, String.toList_ofList]
  dsimp only
  rw [h, ← hcause]
  exact ⟨_, rfl⟩

end Decoder

/-! ### Members -/

/-- The members that follow others, each behind a comma. -/
def moreChars : List (String × Value) → List Char
  | [] => []
  | m :: ms => ',' :: Value.membersChars (m :: ms)

theorem membersChars_cons (name : String) (v : Value) (ms : List (String × Value)) :
    Value.membersChars ((name, v) :: ms) = stringText name ++ ':' :: (v.chars ++ moreChars ms) := by
  cases ms with
  | nil => rw [Value.membersChars, moreChars, List.append_nil]
  | cons m ms =>
    rw [Value.membersChars, moreChars]
    exact List.cons_ne_nil m ms

theorem endsBefore_moreChars (ms : List (String × Value)) (rest : List Char) :
    EndsBefore (moreChars ms ++ '\x7d' :: rest) := by
  cases ms with
  | nil => exact endsBefore_cons (by decide) rest
  | cons m ms => exact endsBefore_cons (by decide) _

/-- Every member has its share in the length of the text. -/
theorem length_le_length_membersChars (ms : List (String × Value)) :
    ms.length ≤ (Value.membersChars ms).length := by
  induction ms with
  | nil => exact Nat.zero_le _
  | cons m ms ih =>
    obtain ⟨name, v⟩ := m
    have hmore : (Value.membersChars ms).length ≤ (moreChars ms).length := by
      cases ms with
      | nil => exact Nat.le_refl _
      | cons m ms => exact Nat.le_succ _
    rw [membersChars_cons, List.length_append, List.length_cons, List.length_cons,
      List.length_append]
    omega

section

variable {step : σ → String → Decoder σ} {s s' : σ} {name : String} {v : Value}
  {ms more : List (String × Value)} {rest : List Char}

/-- The first member is found without a comma, the others behind one; otherwise they are found
alike. -/
theorem foldMembers_first (fuel : Nat) :
    foldMembers step (fuel + 1) true s (Value.membersChars ms ++ '\x7d' :: rest) =
      foldMembers step (fuel + 1) false s (moreChars ms ++ '\x7d' :: rest) := by
  cases ms with
  | nil => rfl
  | cons m ms =>
    obtain ⟨name, v⟩ := m
    rw [moreChars, membersChars_cons]
    rfl

/-- Behind a comma, a name is read. -/
theorem readString_moreChars (name : String) (v : Value) (ms : List (String × Value))
    (rest : List Char) :
    ∃ text, nextMember false (moreChars ((name, v) :: ms) ++ '\x7d' :: rest) = .ok (.more text) ∧
      readString text = .ok (name, ':' :: (v.chars ++ (moreChars ms ++ '\x7d' :: rest))) := by
  refine ⟨_, ?_, readString_escaped name (':' :: (v.chars ++ (moreChars ms ++ '\x7d' :: rest)))⟩
  rw [moreChars, membersChars_cons, stringText]
  simp only [List.cons_append, List.append_assoc, List.nil_append]
  rfl

/-- The fold goes on behind a member that the step takes. -/
theorem foldMembers_cons (fuel : Nat)
    (hstep : step s name (':' :: (v.chars ++ (moreChars ms ++ '\x7d' :: rest))) =
      .ok (s', moreChars ms ++ '\x7d' :: rest)) :
    foldMembers step (fuel + 1) false s (moreChars ((name, v) :: ms) ++ '\x7d' :: rest) =
      foldMembers step fuel false s' (moreChars ms ++ '\x7d' :: rest) := by
  obtain ⟨text, hnext, hname⟩ := readString_moreChars name v ms rest
  simp only [foldMembers, hnext, hname, hstep]

/-- The fold stops at a member at which the step stops. -/
theorem foldMembers_stops (fuel : Nat) {fault : Fault}
    (hstep : step s name (':' :: (v.chars ++ (moreChars ms ++ '\x7d' :: rest))) = .error fault) :
    foldMembers step (fuel + 1) false s (moreChars ((name, v) :: ms) ++ '\x7d' :: rest) =
      .error fault := by
  obtain ⟨text, hnext, hname⟩ := readString_moreChars name v ms rest
  simp only [foldMembers, hnext, hname, hstep]

/-- What a step makes of the members of an object one after the other. -/
inductive Takes (step : σ → String → Decoder σ) : σ → List (String × Value) → σ → Prop
  | nil (s : σ) : Takes step s [] s
  | cons {s s' s'' : σ} {name : String} {v : Value} {ms : List (String × Value)}
    (head : ∀ rest, EndsBefore rest → step s name (':' :: (v.chars ++ rest)) = .ok (s', rest))
    (tail : Takes step s' ms s'') : Takes step s ((name, v) :: ms) s''

theorem Takes.append {s'' : σ} (h : Takes step s ms s') (hmore : Takes step s' more s'') :
    Takes step s (ms ++ more) s'' := by
  induction h with
  | nil s => exact hmore
  | cons head tail ih => exact .cons head (ih hmore)

theorem foldMembers_append (h : Takes step s ms s') (fuel : Nat) :
    foldMembers step (fuel + ms.length) false s (moreChars (ms ++ more) ++ '\x7d' :: rest) =
      foldMembers step fuel false s' (moreChars more ++ '\x7d' :: rest) := by
  induction h with
  | nil s => rfl
  | @cons s s' s'' name v ms head tail ih =>
    rw [List.cons_append, List.length_cons, ← Nat.add_assoc,
      foldMembers_cons _ (head _ (endsBefore_moreChars (ms ++ more) rest)), ih]

/-- The fold over an object goes through the members that the step takes, and then goes on. -/
theorem foldObject_append (h : Takes step s ms s') (more : List (String × Value))
    (rest : List Char) :
    ∃ fuel, foldObject step s (Value.membersChars (ms ++ more) ++ '\x7d' :: rest) =
      foldMembers step (fuel + 1) false s' (moreChars more ++ '\x7d' :: rest) := by
  have hlength := length_le_length_membersChars (ms ++ more)
  rw [List.length_append] at hlength
  -- the text is longer than the list of members, so the fuel does not run out
  obtain ⟨fuel, hfuel⟩ : ∃ fuel,
      (Value.membersChars (ms ++ more) ++ '\x7d' :: rest).length = fuel + ms.length := by
    refine ⟨(Value.membersChars (ms ++ more) ++ '\x7d' :: rest).length - ms.length, ?_⟩
    rw [List.length_append]
    omega
  refine ⟨fuel, ?_⟩
  rw [foldObject, foldMembers_first, hfuel, Nat.add_right_comm, foldMembers_append h]

/-- An object of which every member is taken is read. -/
theorem foldObject_membersChars (h : Takes step s ms s') (rest : List Char) :
    foldObject step s (Value.membersChars ms ++ '\x7d' :: rest) = .ok (s', rest) := by
  obtain ⟨fuel, hfold⟩ := foldObject_append h [] rest
  rw [List.append_nil] at hfold
  rw [hfold]
  rfl

/-- The reader of an object stops where the step stops. -/
theorem foldObject_stops (h : Takes step s ms s') {fault : List Char → Fault}
    (hstop : ∀ rest, EndsBefore rest →
      step s' name (':' :: (v.chars ++ rest)) = .error (fault rest))
    (more : List (String × Value)) (rest : List Char) :
    foldObject step s (Value.membersChars (ms ++ (name, v) :: more) ++ '\x7d' :: rest) =
      .error (fault (moreChars more ++ '\x7d' :: rest)) := by
  obtain ⟨fuel, hfold⟩ := foldObject_append h ((name, v) :: more) rest
  rw [hfold, foldMembers_stops fuel (hstop _ (endsBefore_moreChars more rest))]

end

end TrustBoundary.Json
