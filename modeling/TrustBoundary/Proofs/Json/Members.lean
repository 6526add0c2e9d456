import Mathlib.Data.List.Induction
import TrustBoundary.Json.Reader
import TrustBoundary.Proofs.Json.Printed

/-!
# The members of an object in their order

`members` reads the members of the object in a text, in the order in which they stand there, each as
often as it stands there.  The object that `Value.read` gives holds the last member of each name
(`Value.read_eq_object_iff`): both go through the text in the same steps and differ only in what
they keep (`foldObject_map`).
-/

namespace TrustBoundary

/-! ### The last of several entries -/

namespace Fields

variable {α : Type} {name : String}

theorem lookup_append (l k : List (String × α)) :
    lookup name (l ++ k) = (lookup name l).or (lookup name k) := by
  induction l with
  | nil => rfl
  | cons e l ih =>
    obtain ⟨n, v⟩ := e
    rw [List.cons_append, lookup, lookup]
    split
    · rfl
    · exact ih

theorem ofList_append_singleton (l : List (String × α)) (e : String × α) :
    ofList (l ++ [e]) = (ofList l).insert e.1 e.2 := by
  rw [ofList, List.foldl_append]
  rfl

/-- Of the entries with one name the last one stays. -/
theorem get?_ofList (l : List (String × α)) (name : String) :
    (ofList l).get? name = lookup name l.reverse := by
  induction l using List.reverseRecOn with
  | nil => rfl
  | append_singleton l e ih =>
    -- the last entry comes first when the list is turned round
    obtain ⟨n, v⟩ := e
    rw [ofList_append_singleton, get?_insert, ih, List.reverse_append]
    rfl

/-- Where every name stands once, first and last are the same. -/
theorem lookup_reverse {l : List (String × α)} (h : l.Pairwise fun a b => a.1 < b.1) :
    lookup name l.reverse = lookup name l := by
  induction l with
  | nil => rfl
  | cons e l ih =>
    obtain ⟨n, v⟩ := e
    obtain ⟨hhead, htail⟩ := List.pairwise_cons.1 h
    rw [List.reverse_cons, lookup_append, ih htail, lookup]
    split
    next heq =>
      -- no other entry has the name of the first one
      rw [lookup_eq_none fun e he => heq ▸ hhead e he]
      simp [lookup, heq]
    next hne =>
      simp [lookup, hne]

theorem ofList_toList (fs : Fields α) : ofList fs.toList = fs :=
  ext_get? fun name => (get?_ofList fs.toList name).trans (lookup_reverse fs.ascending)

end Fields

namespace Json

variable {α β σ τ : Type}

/-! ### Two folds over one object -/

section

variable {step : σ → String → Decoder σ} {step' : τ → String → Decoder τ} {f : σ → τ}

theorem foldMembers_map (h : ∀ s name cs, step' (f s) name cs = Decoder.map f (step s name) cs)
    (fuel : Nat) (first : Bool) (s : σ) (cs : List Char) :
    foldMembers step' fuel first (f s) cs = Decoder.map f (foldMembers step fuel first s) cs := by
  induction fuel generalizing first s cs with
  | zero => rfl
  | succ fuel ih =>
    rw [foldMembers, Decoder.map, foldMembers]
    cases nextMember first cs with
    | error fault => rfl
    | ok next =>
      cases next with
      | closed rest => rfl
      | more rest =>
        dsimp only
        cases readString rest with
        | error fault => rfl
        | ok name =>
          obtain ⟨name, rest⟩ := name
          dsimp only
          rw [h, Decoder.map]
          cases step s name rest with
          | error fault => rfl
          | ok entered => exact ih false entered.1 entered.2

/-- What a fold keeps of an object can be computed from what another one keeps, if this is so at
every step. -/
theorem foldObject_map (h : ∀ s name cs, step' (f s) name cs = Decoder.map f (step s name) cs)
    (s : σ) : foldObject step' (f s) = Decoder.map f (foldObject step s) :=
  funext fun cs => foldMembers_map h (cs.length + 1) true s cs

end

/-! ### Members -/

/-- Reads the value of a member from behind its name, and keeps it in some way. -/
def memberStep (inner : Decoder α) (keep : σ → String → α → σ) (s : σ) (name : String) :
    Decoder σ := fun cs => do
  let (v, rest) ← inner (← colon cs)
  return (keep s name v, rest)

theorem memberStep_map (inner : Decoder α) {keep : σ → String → α → σ} {keep' : τ → String → α → τ}
    {f : σ → τ} (h : ∀ s name v, keep' (f s) name v = f (keep s name v)) (s : σ) (name : String)
    (cs : List Char) : memberStep inner keep' (f s) name cs =
      Decoder.map f (memberStep inner keep s name) cs := by
  rw [Decoder.map, memberStep, memberStep]
  cases colon cs with
  | error fault => rfl
  | ok rest =>
    dsimp only [bind, Except.bind]
    cases inner rest with
    | error fault => rfl
    | ok read =>
      obtain ⟨v, rest⟩ := read
      change Except.ok (keep' (f s) name v, rest) = Except.ok (f (keep s name v), rest)
      rw [h]

/-- Puts a member in front of those before it. -/
def consMember (ms : List (String × α)) (name : String) (v : α) : List (String × α) :=
  (name, v) :: ms

/-- Reads an object as the list of its members. -/
def membersDecoder (inner : Decoder α) : Decoder (List (String × α)) := fun cs =>
  match skipGap cs with
  | '\x7b' :: rest =>
    Decoder.map List.reverse (foldObject (memberStep inner consMember) []) rest
  | cs => stopAt .expectedValue cs

theorem membersDecoder_brace (inner : Decoder α) (cs : List Char) :
    membersDecoder inner ('\x7b' :: cs) =
      Decoder.map List.reverse (foldObject (memberStep inner consMember) []) cs := rfl

/-- The members of the object in a text, in their order. -/
def members (text : String) : Except Error (List (String × Value)) :=
  (membersDecoder (Value.decoder (Value.maxDepth - 1))).run text

/-- An object keeps the last member of each name. -/
theorem foldObject_insert (inner : Decoder α) :
    foldObject (memberStep inner Fields.insert) Fields.empty =
      Decoder.map (fun ms => Fields.ofList ms.reverse)
        (foldObject (memberStep inner consMember) []) := by
  have hkeep (ms : List (String × α)) (name : String) (v : α) :
      (Fields.ofList ms.reverse).insert name v = Fields.ofList (consMember ms name v).reverse := by
    rw [consMember, List.reverse_cons, Fields.ofList_append_singleton]
  exact foldObject_map (memberStep_map inner (f := fun ms => Fields.ofList ms.reverse) hkeep) []

theorem Decoder.map_eq_ok_iff {d : Decoder α} {f : α → β} {cs rest : List Char} {b : β} :
    Decoder.map f d cs = .ok (b, rest) ↔ ∃ a, d cs = .ok (a, rest) ∧ f a = b := by
  rw [Decoder.map]
  cases d cs with
  | error fault => simp
  | ok read =>
    obtain ⟨a, rest'⟩ := read
    simp only [Except.ok.injEq, Prod.mk.injEq]
    constructor
    · rintro ⟨h, rfl⟩
      exact ⟨a, ⟨rfl, rfl⟩, h⟩
    · rintro ⟨_, ⟨rfl, rfl⟩, h⟩
      exact ⟨h, rfl⟩

theorem Decoder.map_map (d : Decoder α) (f : α → β) (g : β → σ) :
    Decoder.map g (Decoder.map f d) = Decoder.map (fun a => g (f a)) d := by
  funext cs
  rw [Decoder.map, Decoder.map, Decoder.map]
  cases d cs with
  | error fault => rfl
  | ok read => rfl

theorem Decoder.run_map (d : Decoder α) (f : α → β) (text : String) :
    (Decoder.map f d).run text = (d.run text).map f := by
  rw [Decoder.run, Decoder.run, Decoder.map]
  cases d text.toList with
  | error fault => rfl
  | ok read =>
    dsimp only
    cases skipGap read.2 with
    | nil => rfl
    | cons c rest => rfl

/-- A whole text is read if what is left of it are blanks. -/
theorem Decoder.run_eq_ok_iff {d : Decoder α} {text : String} {a : α} :
    d.run text = .ok a ↔ ∃ rest, d text.toList = .ok (a, rest) ∧ skipGap rest = [] := by
  rw [Decoder.run]
  cases d text.toList with
  | error fault => simp
  | ok read =>
    obtain ⟨b, rest⟩ := read
    dsimp only
    cases hrest : skipGap rest with
    | nil =>
      constructor
      · intro h
        obtain rfl := Except.ok.inj h
        exact ⟨rest, rfl, hrest⟩
      · rintro ⟨_, h, -⟩
        rw [(Prod.mk.inj (Except.ok.inj h)).1]
    | cons c tail =>
      -- something is left behind the value
      refine iff_of_false (by rintro ⟨⟩) ?_
      rintro ⟨_, h, hnil⟩
      rw [← (Prod.mk.inj (Except.ok.inj h)).2, hrest] at hnil
      cases hnil

theorem Decoder.run_congr {d d' : Decoder α} {text : String} (h : d text.toList = d' text.toList) :
    d.run text = d'.run text := by
  rw [Decoder.run, Decoder.run, h]

/-- A text is read as members only from an opening brace on. -/
theorem exists_brace_of_members {text : String} {ms : List (String × Value)}
    (h : members text = .ok ms) : ∃ rest, skipGap text.toList = '\x7b' :: rest := by
  obtain ⟨left, hread, -⟩ := Decoder.run_eq_ok_iff.1 h
  rw [membersDecoder] at hread
  split at hread
  next rest heq => exact ⟨rest, heq⟩
  next => cases hread

namespace Value

/-- A text that begins with a brace is read as an object if its members are. -/
theorem read_eq_map {text : String} {rest : List Char}
    (h : skipGap text.toList = '\x7b' :: rest) :
    read text = (members text).map fun ms => .ofFields (Fields.ofList ms) := by
  rw [members, ← Decoder.run_map, read]
  refine Decoder.run_congr ?_
  -- both readers fold over the same members, and keep them in different ways
  have hvalue : decoder maxDepth text.toList = Decoder.map .ofFields
      (foldObject (memberStep (decoder (maxDepth - 1)) Fields.insert) Fields.empty) rest := by
    change decoderWith (some (decoder (maxDepth - 1))) text.toList = _
    rw [decoderWith, h]
    rfl
  have hmembers : membersDecoder (decoder (maxDepth - 1)) text.toList =
      Decoder.map List.reverse
        (foldObject (memberStep (decoder (maxDepth - 1)) consMember) []) rest := by
    rw [membersDecoder, h]
    rfl
  rw [hvalue, foldObject_insert, Decoder.map_map, Decoder.map, Decoder.map, hmembers, Decoder.map]
  cases foldObject (memberStep (decoder (maxDepth - 1)) consMember) [] rest with
  | error fault => rfl
  | ok read => rfl

/-- Only a brace begins an object. -/
theorem skipGap_of_object (inner : Option (Decoder Value)) {cs rest : List Char}
    {fs : List (String × Value)} (h : decoderWith inner cs = .ok (.object fs, rest)) :
    ∃ rest, skipGap cs = '\x7b' :: rest := by
  rw [decoderWith] at h
  split at h
  · cases h
  next c tail heq =>
    -- every other beginning is that of another kind of value, or of none
    split at h
    · cases hlit : literal ['u', 'l', 'l'] tail <;> rw [hlit] at h <;> cases h
    split at h
    · cases hlit : literal ['r', 'u', 'e'] tail <;> rw [hlit] at h <;> cases h
    split at h
    · cases hlit : literal ['a', 'l', 's', 'e'] tail <;> rw [hlit] at h <;> cases h
    split at h
    · obtain ⟨n, -, hn⟩ := Decoder.map_eq_ok_iff.1 h
      cases hn
    split at h
    · obtain ⟨n, -, hn⟩ := Decoder.map_eq_ok_iff.1 h
      cases hn
    split at h
    · obtain ⟨s, -, hs⟩ := Decoder.map_eq_ok_iff.1 h
      cases hs
    split at h
    · split at h
      · cases h
      · obtain ⟨items, -, hitems⟩ := Decoder.map_eq_ok_iff.1 h
        cases hitems
    split at h
    next hbrace => exact ⟨tail, hbrace ▸ heq⟩
    · cases h

/-- A text is read as an object if its members are, and the object keeps the last of each name. -/
theorem read_eq_object_iff {text : String} {fs : List (String × Value)} :
    read text = .ok (.object fs) ↔
      ∃ ms, members text = .ok ms ∧ fs = (Fields.ofList ms).toList := by
  constructor
  · intro h
    obtain ⟨left, hread, -⟩ := Decoder.run_eq_ok_iff.1 h
    obtain ⟨rest, hrest⟩ := skipGap_of_object (some (decoder (maxDepth - 1))) hread
    rw [read_eq_map hrest] at h
    cases hms : members text with
    | error e =>
      rw [hms] at h
      cases h
    | ok ms =>
      rw [hms] at h
      exact ⟨ms, rfl, (Value.object.inj (Except.ok.inj h)).symm⟩
  · rintro ⟨ms, hms, rfl⟩
    obtain ⟨rest, hrest⟩ := exists_brace_of_members hms
    rw [read_eq_map hrest, hms]
    rfl

end Value

/-! ### Printed objects -/

section

variable {ms : List (String × Value)} {v : Value}

/-- The members that are read one by one are read together. -/
theorem takes_members {inner : Decoder α} {ws : List (String × α)}
    (h : List.Forall₂ (fun m w => m.1 = w.1 ∧ inner.Reads m.2 w.2) ms ws)
    (acc : List (String × α)) :
    Takes (memberStep inner consMember) acc ms (ws.reverse ++ acc) := by
  induction h generalizing acc with
  | nil => exact .nil acc
  | @cons m w ms ws hhead _ ih =>
    obtain ⟨name, v⟩ := m
    obtain ⟨_, a⟩ := w
    obtain ⟨rfl, hread⟩ := hhead
    rw [List.reverse_cons, List.append_assoc]
    refine .cons (fun rest hrest => ?_) (ih ((name, a) :: acc))
    rw [memberStep]
    change (do
      let (v, rest) ← inner (v.chars ++ rest)
      return (consMember acc name v, rest)) = _
    rw [hread rest hrest]
    rfl

/-- The members of a printed object are those that are read for the printed ones. -/
theorem reads_membersDecoder {inner : Decoder α} {ws : List (String × α)}
    (h : List.Forall₂ (fun m w => m.1 = w.1 ∧ inner.Reads m.2 w.2) ms ws) :
    (membersDecoder inner).Reads (.object ms) ws := by
  intro rest hrest
  have hfold := foldObject_membersChars (takes_members h []) rest
  rw [List.append_nil] at hfold
  rw [Value.chars, List.cons_append, List.append_assoc, membersDecoder_brace, Decoder.map,
    List.singleton_append, hfold]
  dsimp only
  rw [List.reverse_reverse]

theorem members_of_reads {ws : List (String × Value)} (h : List.Forall₂
      (fun m w => m.1 = w.1 ∧ (Value.decoder (Value.maxDepth - 1)).Reads m.2 w.2) ms ws) :
    members (Value.object ms).text = .ok ws :=
  (reads_membersDecoder h).run

/-- A printed object is refused if the reader of one of its members stops. -/
theorem members_of_stops {ws : List (String × Value)} (h : List.Forall₂
      (fun m w => m.1 = w.1 ∧ (Value.decoder (Value.maxDepth - 1)).Reads m.2 w.2) ms ws)
    (name : String) (more : List (String × Value)) {cause : Cause}
    (hstop : ∀ rest, Numeral.EndsBefore rest →
      Value.decoder (Value.maxDepth - 1) (v.chars ++ rest) = stop cause rest) :
    ∃ place, members (Value.object (ms ++ (name, v) :: more)).text = .error ⟨cause, place⟩ := by
  -- the step stops as the reader of the value does
  have hmember (rest : List Char) (hrest : Numeral.EndsBefore rest) :
      memberStep (Value.decoder (Value.maxDepth - 1)) consMember (ws.reverse ++ []) name
        (':' :: (v.chars ++ rest)) = .error ⟨cause, rest, 0⟩ := by
    rw [memberStep]
    change (Value.decoder (Value.maxDepth - 1) (v.chars ++ rest) >>= _) = _
    rw [hstop rest hrest]
    rfl
  have hfold := foldObject_stops (takes_members h []) hmember more []
  have hfault : membersDecoder (Value.decoder (Value.maxDepth - 1))
      (Value.object (ms ++ (name, v) :: more)).chars =
      .error ⟨cause, moreChars more ++ ['\x7d'], 0⟩ := by
    rw [Value.chars, membersDecoder_brace, Decoder.map, hfold]
  exact Decoder.run_eq_error hfault rfl

end

end Json

end TrustBoundary
