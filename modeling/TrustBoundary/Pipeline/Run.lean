import TrustBoundary.Pipeline.Rest

/-!
# Runs

A run is a pipeline whose tasks take turns.  A task that can go on waits for its turn behind those
that could before it, and in its turn it goes as far as it can.  Lanes that wait for room among the
alerts stand in a line: the room is for the first of them, and nobody overtakes it.  A task that has
made `maxMoves` moves in one turn pauses until the others are done, so that none waits for long.

`Run.settle` lets the tasks take turns until they rest (`isAtRest_settle`), and the order in which
they go on is one of those that `step` allows (`leads_settle`).
-/

namespace TrustBoundary.Pipeline

/-- Whether a task holds something to deliver to a consumer. -/
def State.isDelivering (s : State) : Task → Bool
  | .dispatcher | .router => false
  | .forwarder => s.forwarder.hand.isSome
  | .lane index => s.lanes[index]?.any fun lane => lane.hand.isSome

/-- How many more alerts may wait for their consumer. -/
def State.alertRoom (p : Plan) (s : State) : Nat := p.alertCapacity - s.alerts.waiting.length

/-- A pipeline and the lanes that wait in it. -/
structure Run where
  state : State
  /-- The lanes that wait for room among the alerts, the first come first. -/
  line : List Nat := []
deriving DecidableEq

/-- Whose turn it is. -/
structure Turns where
  /-- The task whose turn it is, and those whose turn comes after it. -/
  ready : List Task
  /-- How many moves were made in this turn. -/
  moves : Nat
  /-- The tasks that pause. -/
  paused : List Task

/-- The most moves in one turn. -/
def maxMoves : Nat := 128

namespace Run

/-- Whether there is room for an alert of this lane behind those that stand before it in the line;
a lane that does not stand in the line comes last. -/
def isServed (p : Plan) (r : Run) (index : Nat) : Bool :=
  r.line.idxOf index < r.state.alertRoom p

/-- A step of a task that overtakes nobody.  With it a lane leaves the line. -/
def go? (p : Plan) (r : Run) (task : Task) : Option Run :=
  match step p task r.state with
  | none => none
  | some s =>
    match task with
    | .lane index =>
      if r.state.totals.emitted < s.totals.emitted && !r.isServed p index then none
      else some ⟨s, r.line.erase index⟩
    | .dispatcher | .forwarder | .router => some ⟨s, r.line⟩

/-- A lane that cannot deliver its alert stands in the line. -/
def queueUp (r : Run) (task : Task) : Run :=
  match task with
  | .lane index =>
    if r.state.isDelivering task && !r.line.contains index then ⟨r.state, r.line ++ [index]⟩ else r
  | .dispatcher | .forwarder | .router => r

/-- The tasks that can go on and do not wait for their turn yet. -/
def woken (p : Plan) (r : Run) (t : Turns) : List Task :=
  p.tasks.filter fun task =>
    !t.ready.contains task && !t.paused.contains task && (r.go? p task).isSome

/-- Whether a task has made so many moves that it must pause before the next one.  What it holds it
still delivers. -/
def isSpent (r : Run) (task : Task) (moves : Nat) : Bool :=
  maxMoves ≤ moves && !r.state.isDelivering task

/-- The moves of a turn after one more step of its task.  A delivery is no move, unless the task had
to wait for it since an earlier turn. -/
def countMove (r : Run) (task : Task) (moves : Nat) : Nat :=
  if r.state.isDelivering task && 0 < moves then moves else moves + 1

theorem step_of_go {p : Plan} {r r' : Run} {task : Task} (h : r.go? p task = some r') :
    step p task r.state = some r'.state := by
  simp only [go?] at h
  split at h
  · simp at h
  · rename_i s hs
    rw [hs]
    split at h
    · split at h
      · simp at h
      · rw [← Option.some.inj h]
    all_goals rw [← Option.some.inj h]

theorem state_queueUp (r : Run) (task : Task) : (r.queueUp task).state = r.state := by
  cases task <;> simp only [queueUp]
  split <;> rfl

theorem weight_lt_of_go {p : Plan} {r r' : Run} {task : Task} (h : r.go? p task = some r') :
    r'.state.weight < r.state.weight := weight_lt_of_step (step_of_go h)

-- `h` is used in `decreasing_by`, which the linter misses.
set_option linter.unusedVariables false in
/-- The run after all turns that begin with those of `t`.  In its turn a task goes on until it
cannot or must pause; those that pause have their next turns when the others had theirs, and if a
task can still make a step after that, all of them have another turn. -/
def takeTurns (p : Plan) (r : Run) (t : Turns) : Run :=
  match t with
  | ⟨task :: ready, moves, paused⟩ =>
    match h : if r.isSpent task moves then none else r.go? p task with
    | some r' =>
      takeTurns p r' ⟨task :: ready ++ r'.woken p t, r.countMove task moves, paused⟩
    | none =>
      if maxMoves ≤ moves then takeTurns p r ⟨ready, 0, paused ++ [task]⟩
      else takeTurns p (r.queueUp task) ⟨ready, 0, paused⟩
  | ⟨[], _, task :: paused⟩ => takeTurns p r ⟨task :: paused, 0, []⟩
  | ⟨[], _, []⟩ =>
    match h : p.tasks.findSome? (step p · r.state) with
    | some s => takeTurns p ⟨s, r.line⟩ ⟨p.tasks, 0, []⟩
    | none => r
termination_by (r.state.weight, t.moves, 2 * t.paused.length + t.ready.length)
decreasing_by
  · split at h
    · simp at h
    · exact Prod.Lex.left _ _ (weight_lt_of_go h)
  · rename_i hmoves
    exact Prod.Lex.right _ (Prod.Lex.left _ _ (by simp only [maxMoves] at hmoves; omega))
  · rw [state_queueUp]
    refine Prod.Lex.right _ ?_
    rcases Nat.eq_zero_or_pos moves with rfl | hpos
    · exact Prod.Lex.right _ (by simp)
    · exact Prod.Lex.left _ _ hpos
  · rename_i moves
    refine Prod.Lex.right _ ?_
    rcases Nat.eq_zero_or_pos moves with rfl | hpos
    · exact Prod.Lex.right _ (by simp)
    · exact Prod.Lex.left _ _ hpos
  · obtain ⟨task, -, hstep⟩ := List.exists_of_findSome?_eq_some h
    exact Prod.Lex.left _ _ (weight_lt_of_step hstep)

/-- The run at rest, after every task had a turn. -/
def settle (p : Plan) (r : Run) : Run := r.takeTurns p ⟨p.tasks, 0, []⟩

theorem isAtRest_takeTurns (p : Plan) (r : Run) (t : Turns) :
    isAtRest p (r.takeTurns p t).state = true := by
  fun_induction takeTurns p r t with
  | case6 r moves h =>
    simp only [List.findSome?_eq_none_iff] at h
    simp only [isAtRest, List.all_eq_true, Option.isNone_iff_eq_none]
    exact h
  | _ => assumption

theorem leads_takeTurns (p : Plan) (r : Run) (t : Turns) :
    Leads p r.state (r.takeTurns p t).state := by
  fun_induction takeTurns p r t with
  | case1 r task ready moves paused r' h ih =>
    split at h
    · simp at h
    · exact .step (step_of_go h) ih
  | case3 r task ready moves paused h hmoves ih => rwa [state_queueUp] at ih
  | case5 r moves s h ih =>
    obtain ⟨task, -, hstep⟩ := List.exists_of_findSome?_eq_some h
    exact .step hstep ih
  | case6 r moves h => exact .refl _
  | _ => assumption

theorem isAtRest_settle (p : Plan) (r : Run) : isAtRest p (r.settle p).state = true :=
  isAtRest_takeTurns p r _

theorem leads_settle (p : Plan) (r : Run) : Leads p r.state (r.settle p).state :=
  leads_takeTurns p r _

end Run

end TrustBoundary.Pipeline
