/-!
# Patterns

A `Pattern` says how a text may begin.  It may leave a choice, and then one way is preferred to
another: the first of two alternatives to the second, and a longer run of characters to a shorter
one.  `Pattern.ways` lists every way in which a pattern matches the beginning of a text, the
preferred ones first, and `Pattern.search` takes the first way at the first position at which there
is one.  A way that is preferred at some part of a pattern is given up if the parts behind it do not
match.

`mem_ways_both` and its neighbours say of each kind of pattern which ways there are, whatever their
order.
-/

namespace TrustBoundary.Text

/-- How a text may begin. -/
inductive Pattern where
  /-- With nothing in particular. -/
  | empty
  /-- With one character of a class. -/
  | char (p : Char → Bool)
  /-- With a run of characters of a class, the longer the better; it may be empty. -/
  | run (p : Char → Bool)
  /-- Not at all: the text is over. -/
  | atEnd
  /-- With two patterns, one behind the other. -/
  | both (a b : Pattern)
  /-- With one of two patterns, preferably the first. -/
  | either (a b : Pattern)
  /-- With a pattern, and what it matches is kept under a number. -/
  | group (number : Nat) (a : Pattern)

/-- A way in which a pattern matches the beginning of a text. -/
structure Way where
  /-- The beginning that is matched. -/
  matched : List Char
  /-- What the numbered parts of the pattern match. -/
  groups : List (Nat × List Char)
  /-- The text behind it. -/
  rest : List Char
deriving DecidableEq

namespace Way

/-- Matches nothing. -/
def nothing (cs : List Char) : Way := ⟨[], [], cs⟩

/-- Goes on behind one way with another. -/
def append (u v : Way) : Way := ⟨u.matched ++ v.matched, u.groups ++ v.groups, v.rest⟩

/-- Keeps what is matched under a number. -/
def keep (number : Nat) (w : Way) : Way := ⟨w.matched, (number, w.matched) :: w.groups, w.rest⟩

end Way

namespace Pattern

variable {p : Char → Bool} {a b : Pattern} {cs : List Char} {w : Way}

/-- The runs of characters of a class with which a text begins, the longest first. -/
def runs (p : Char → Bool) : List Char → List Way
  | [] => [.nothing []]
  | c :: cs =>
    if p c then (runs p cs).map (Way.append ⟨[c], [], cs⟩) ++ [.nothing (c :: cs)]
    else [.nothing (c :: cs)]

/-- The ways in which a pattern matches the beginning of a text, in the order of preference. -/
def ways : Pattern → List Char → List Way
  | empty, cs => [.nothing cs]
  | char _, [] => []
  | char p, c :: cs => if p c then [⟨[c], [], cs⟩] else []
  | run p, cs => runs p cs
  | atEnd, [] => [.nothing []]
  | atEnd, _ :: _ => []
  | both a b, cs => (a.ways cs).flatMap fun u => (b.ways u.rest).map u.append
  | either a b, cs => a.ways cs ++ b.ways cs
  | group number a, cs => (a.ways cs).map (Way.keep number)

/-- The preferred way at the first position at which a pattern matches. -/
def search (a : Pattern) : List Char → Option Way
  | [] => (a.ways []).head?
  | c :: cs =>
    match (a.ways (c :: cs)).head? with
    | some w => some w
    | none => a.search cs

/-- A pattern or nothing, preferably the pattern. -/
def optional (a : Pattern) : Pattern := either a empty

/-- Patterns one behind the other. -/
def sequence : List Pattern → Pattern
  | [] => empty
  | a :: as => both a (sequence as)

/-- A fixed character. -/
def only (c : Char) : Pattern := char (· == c)

/-- A fixed word. -/
def word (cs : List Char) : Pattern := sequence (cs.map only)

/-! ### Which ways there are -/

theorem mem_ways_empty : w ∈ empty.ways cs ↔ w = .nothing cs := List.mem_singleton

theorem mem_ways_char : w ∈ (char p).ways cs ↔
    ∃ c rest, p c = true ∧ cs = c :: rest ∧ w = ⟨[c], [], rest⟩ := by
  cases cs with
  | nil => simp [ways]
  | cons c cs =>
    rw [ways]
    by_cases hc : p c = true
    · rw [if_pos hc, List.mem_singleton]
      constructor
      · rintro rfl
        exact ⟨c, cs, hc, rfl, rfl⟩
      · rintro ⟨d, rest, -, h, rfl⟩
        obtain ⟨rfl, rfl⟩ := List.cons.inj h
        rfl
    · rw [if_neg hc]
      constructor
      · rintro ⟨⟩
      · rintro ⟨d, rest, hd, h, -⟩
        obtain ⟨rfl, -⟩ := List.cons.inj h
        exact absurd hd hc

theorem mem_ways_run : w ∈ (run p).ways cs ↔
    ∃ run rest, (∀ c ∈ run, p c = true) ∧ cs = run ++ rest ∧ w = ⟨run, [], rest⟩ := by
  change w ∈ runs p cs ↔ _
  induction cs generalizing w with
  | nil =>
    rw [runs, List.mem_singleton]
    constructor
    · rintro rfl
      exact ⟨[], [], by simp, rfl, rfl⟩
    · rintro ⟨run, rest, -, h, rfl⟩
      obtain ⟨rfl, rfl⟩ := List.append_eq_nil_iff.1 h.symm
      rfl
  | cons c cs ih =>
    have hempty : Way.nothing (c :: cs) = ⟨[], [], c :: cs⟩ := rfl
    rw [runs]
    -- a run is the empty one, or goes on behind a character of the class
    by_cases hc : p c = true
    · rw [if_pos hc, List.mem_append, List.mem_map, List.mem_singleton]
      constructor
      · rintro (⟨v, hv, rfl⟩ | rfl)
        · obtain ⟨run, rest, hrun, rfl, rfl⟩ := ih.1 hv
          exact ⟨c :: run, rest, List.forall_mem_cons.2 ⟨hc, hrun⟩, rfl, rfl⟩
        · exact ⟨[], c :: cs, by simp, rfl, rfl⟩
      · rintro ⟨run, rest, hrun, h, rfl⟩
        cases run with
        | nil =>
          obtain rfl : c :: cs = rest := h
          exact .inr rfl
        | cons d run =>
          obtain ⟨rfl, rfl⟩ := List.cons.inj h
          exact .inl ⟨⟨run, [], rest⟩, ih.2 ⟨run, rest, (List.forall_mem_cons.1 hrun).2, rfl, rfl⟩,
            rfl⟩
    · rw [if_neg hc, List.mem_singleton]
      constructor
      · rintro rfl
        exact ⟨[], c :: cs, by simp, rfl, rfl⟩
      · rintro ⟨run, rest, hrun, h, rfl⟩
        cases run with
        | nil =>
          obtain rfl : c :: cs = rest := h
          rfl
        | cons d run =>
          obtain ⟨rfl, -⟩ := List.cons.inj h
          exact absurd (List.forall_mem_cons.1 hrun).1 hc

theorem mem_ways_atEnd : w ∈ atEnd.ways cs ↔ cs = [] ∧ w = .nothing [] := by
  cases cs with
  | nil => simp [ways]
  | cons c cs => simp [ways]

theorem mem_ways_both : w ∈ (both a b).ways cs ↔
    ∃ u ∈ a.ways cs, ∃ v ∈ b.ways u.rest, w = u.append v := by
  simp [ways, eq_comm]

theorem mem_ways_either : w ∈ (either a b).ways cs ↔ w ∈ a.ways cs ∨ w ∈ b.ways cs :=
  List.mem_append

theorem mem_ways_group {number : Nat} :
    w ∈ (group number a).ways cs ↔ ∃ u ∈ a.ways cs, w = u.keep number := by
  simp [ways, eq_comm]

end Pattern

end TrustBoundary.Text
