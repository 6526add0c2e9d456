/-!
# Rows of four and squares of four rows

The ciphers here work on squares of four by four bytes or words.  A `Quad` is a row of four, a
square is a row of four rows.  Turning a square over its diagonal twice, or slanting its rows and
straightening them again, gives the square back.
-/

namespace TrustBoundary

/-- Four things in a row. -/
structure Quad (α : Type) where
  a : α
  b : α
  c : α
  d : α
deriving DecidableEq

namespace Quad

/-- The four values of a function at 0, 1, 2 and 3. -/
def ofFn (f : Nat → α) : Quad α := ⟨f 0, f 1, f 2, f 3⟩

/-- The four from the first to the last. -/
def toList (q : Quad α) : List α := [q.a, q.b, q.c, q.d]

/-- A function of each of the four. -/
@[inline] def map (f : α → β) (q : Quad α) : Quad β := ⟨f q.a, f q.b, f q.c, f q.d⟩

/-- A function of each of the four and of the one at its place in another row. -/
@[inline] def zipWith (f : α → β → γ) (p : Quad α) (q : Quad β) : Quad γ :=
  ⟨f p.a q.a, f p.b q.b, f p.c q.c, f p.d q.d⟩

/-- One step to the left: the first goes to the end. -/
@[inline] def rotate (q : Quad α) : Quad α := ⟨q.b, q.c, q.d, q.a⟩

theorem ofFn_eq_ofFn_iff {f g : Nat → α} : ofFn f = ofFn g ↔ ∀ i < 4, f i = g i := by
  constructor
  · intro h
    simp only [ofFn, mk.injEq] at h
    obtain ⟨h0, h1, h2, h3⟩ := h
    intro i hi
    match i, hi with
    | 0, _ => exact h0
    | 1, _ => exact h1
    | 2, _ => exact h2
    | 3, _ => exact h3
  · intro h
    simp only [ofFn, h, Nat.reduceLT]

@[simp]
theorem rotate_four (q : Quad α) : q.rotate.rotate.rotate.rotate = q := rfl

@[simp]
theorem length_toList (q : Quad α) : q.toList.length = 4 := rfl

/-! ### Squares -/

/-- Rows become columns. -/
@[inline] def transpose (s : Quad (Quad α)) : Quad (Quad α) :=
  ⟨s.map Quad.a, s.map Quad.b, s.map Quad.c, s.map Quad.d⟩

/-- The rows go 0, 1, 2 and 3 steps to the left, so that diagonals become columns. -/
@[inline] def slant (s : Quad (Quad α)) : Quad (Quad α) :=
  ⟨s.a, s.b.rotate, s.c.rotate.rotate, s.d.rotate.rotate.rotate⟩

/-- The rows go back. -/
@[inline] def straighten (s : Quad (Quad α)) : Quad (Quad α) :=
  ⟨s.a, s.b.rotate.rotate.rotate, s.c.rotate.rotate, s.d.rotate⟩

@[simp]
theorem transpose_transpose (s : Quad (Quad α)) : s.transpose.transpose = s := rfl

@[simp]
theorem straighten_slant (s : Quad (Quad α)) : s.slant.straighten = s := rfl

@[simp]
theorem slant_straighten (s : Quad (Quad α)) : s.straighten.slant = s := rfl

/-- A step on each column with what belongs to the column, and then on each diagonal. -/
@[specialize] def weave (s : Quad (Quad α)) (columns diagonals : Quad β)
    (step : β → Quad α → Quad α) : Quad (Quad α) :=
  let s := (zipWith step columns s.transpose).transpose.slant
  (zipWith step diagonals s.transpose).transpose.straighten

/-! ### Lists of fours -/

/-- The fours of a list; what is left over at its end is dropped. -/
def group : List α → List (Quad α)
  | a :: b :: c :: d :: rest => ⟨a, b, c, d⟩ :: group rest
  | _ => []

/-- The members of some fours, in order. -/
def ungroup (quads : List (Quad α)) : List α := quads.flatMap toList

@[simp]
theorem group_ungroup (quads : List (Quad α)) : group (ungroup quads) = quads := by
  induction quads with
  | nil => rfl
  | cons q rest ih => simpa [ungroup, toList, group] using ih

theorem ungroup_group (list : List α) (h : list.length % 4 = 0) : ungroup (group list) = list := by
  fun_induction group list with
  | case1 a b c d rest ih =>
    have : rest.length % 4 = 0 := by simp only [List.length_cons] at h; omega
    simpa [ungroup, toList] using ih this
  | case2 list hlist =>
    match list with
    | [] => rfl
    | [_] | [_, _] | [_, _, _] => simp at h
    | a :: b :: c :: d :: rest => exact absurd rfl (hlist a b c d rest)

@[simp]
theorem length_ungroup (quads : List (Quad α)) : (ungroup quads).length = 4 * quads.length := by
  induction quads with
  | nil => rfl
  | cons q rest ih =>
    simp only [ungroup, List.flatMap_cons, List.length_append, length_toList] at ih ⊢
    simp only [List.length_cons]; omega

@[simp]
theorem length_group (list : List α) : (group list).length = list.length / 4 := by
  fun_induction group list with
  | case1 a b c d rest ih => simp only [List.length_cons, ih]; omega
  | case2 list hlist =>
    match list with
    | [] | [_] | [_, _] | [_, _, _] => simp
    | a :: b :: c :: d :: rest => exact absurd rfl (hlist a b c d rest)

end Quad

end TrustBoundary
