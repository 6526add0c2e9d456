import TrustBoundary.Pipeline.Action

/-!
# Histories

A history tells what happens to a pipeline, one event after the other: what the outside does, and
which task makes the next step.  Nothing is said of how the tasks take turns, so every order in
which they may go on has its history (`Plan.after`); a run has one of them
(`Run.exists_tasks_act`).
-/

namespace TrustBoundary.Pipeline

/-- What happens to a pipeline. -/
inductive Event where
  /-- The outside does something. -/
  | act (a : Action)
  /-- A task makes a step. -/
  | step (t : Task)
deriving DecidableEq

namespace State

/-- The state after an event.  A task that cannot go on changes nothing. -/
def next (p : Plan) (s : State) : Event → State
  | .act a => act p s a
  | .step t => (step p t s).getD s

/-- The state after some events. -/
def after (p : Plan) (s : State) (events : List Event) : State := events.foldl (next p) s

/-- The record that an event brings in, if it is sent and accepted. -/
def acceptedBy (p : Plan) (s : State) : Event → List StreamRecord
  | .act (.send r) => if s.sendReply p = .accepted then [r] else []
  | _ => []

/-- The records that are sent and accepted in the course of some events, the oldest first. -/
def accepted (p : Plan) (s : State) : List Event → List StreamRecord
  | [] => []
  | e :: events => s.acceptedBy p e ++ (s.next p e).accepted p events

end State

/-- The state of a pipeline with this history. -/
def Plan.after (p : Plan) (history : List Event) : State := (State.initial p).after p history

/-- The records that a pipeline with this history has accepted, the oldest first. -/
def Plan.accepted (p : Plan) (history : List Event) : List StreamRecord :=
  (State.initial p).accepted p history

theorem State.after_append {p : Plan} (s : State) (events more : List Event) :
    s.after p (events ++ more) = (s.after p events).after p more := List.foldl_append

theorem Plan.after_append (p : Plan) (history events : List Event) :
    p.after (history ++ events) = (p.after history).after p events :=
  (State.initial p).after_append history events

/-- What is kept by the actions among some events and by every step is kept in the course of these
events. -/
theorem State.after_induction {p : Plan} {motive : State → Prop} {events : List Event}
    (act : ∀ s a, .act a ∈ events → motive s → motive (act p s a))
    (step : ∀ s t s', motive s → step p t s = some s' → motive s') {s : State} (h : motive s) :
    motive (s.after p events) := by
  induction events generalizing s with
  | nil => exact h
  | cons e events ih =>
    refine ih (fun s a ha => act s a (List.mem_cons_of_mem e ha)) ?_
    cases e with
    | act a => exact act s a List.mem_cons_self h
    | step t =>
      simp only [next]
      cases hstep : Pipeline.step p t s with
      | none => exact h
      | some s' => exact step s t s' h hstep

/-! ### Runs have histories -/

theorem Leads.exists_tasks {p : Plan} {s t : State} (h : Leads p s t) :
    ∃ tasks : List Task, s.after p (tasks.map .step) = t := by
  induction h with
  | refl s => exact ⟨[], rfl⟩
  | @step task s t u hstep rest ih =>
    obtain ⟨tasks, htasks⟩ := ih
    refine ⟨task :: tasks, ?_⟩
    show ((Pipeline.step p task s).getD s).after p (tasks.map .step) = u
    rw [hstep]
    exact htasks

/-- A run that comes to rest after an action has the history of this action and of some steps. -/
theorem Run.exists_tasks_act (p : Plan) (r : Run) (a : Action) :
    ∃ tasks : List Task,
      r.state.after p (.act a :: tasks.map .step) = (r.act p a).state ∧
      isAtRest p (r.act p a).state = true := by
  obtain ⟨tasks, htasks⟩ := (leads_settle p ⟨Pipeline.act p r.state a, r.line⟩).exists_tasks
  exact ⟨tasks, htasks, isAtRest_settle p _⟩

/-! ### A narrow pipeline -/

/-- A plan with a single lane and room for one alert. -/
def Plan.narrow : Plan where
  settings := { lanes := 1, laneCapacity := 1, ingestCapacity := 4 }
  scorer := {}
  alertCapacity := 1
  passCapacity := none
  valid := PipelineSettings.validate_eq_ok_iff.2 (by decide)

/-- The same plan with a pass-through consumer, for whom there is room for so many records. -/
def Plan.narrowPassing (capacity : Nat) : Plan := { Plan.narrow with passCapacity := some capacity }

/-- A record that raises an alert. -/
def largeAmount : StreamRecord := ⟨"transactions", "k", some "\x7b\"amount\":20000.0\x7d"⟩

/-- A record without a value. -/
def tombstone : StreamRecord := ⟨"transactions", "k", none⟩

/-- Every task of a plan makes five steps if it can, one after the other. -/
def Plan.turns (p : Plan) : List Event := (List.replicate 5 (p.tasks.map .step)).flatten

/-- The pipeline is given two records that raise alerts, and then the producer goes away.  The
second alert waits for a consumer who does not take the first. -/
def twoAlerts : List Event :=
  [.act .start, .act (.send largeAmount), .act (.send largeAmount)] ++ Plan.narrow.turns ++
    .act .closeInbound :: Plan.narrow.turns

/-- The consumer takes the first alert, and the pipeline comes to its end. -/
def twoAlertsTaken : List Event := twoAlerts ++ .act .takeAlert :: Plan.narrow.turns

end TrustBoundary.Pipeline
