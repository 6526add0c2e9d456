import TrustBoundary.Proofs.Pipeline.Conservation
import TrustBoundary.Proofs.Pipeline.Quiescence

/-!
# What runs come to

In a run the tasks take turns after every action until they rest.  The actions of a run and the
steps of its tasks make a history (`Run.exists_events`), so that runs have all that histories have.
A run that was started either waits for a consumer, or has scored every record that was accepted,
and its totals say so (`scored_of_started`).
-/

namespace TrustBoundary.Pipeline

variable {p : Plan} {s : State}

/-! ### Events of several actions -/

/-- What the outside does in an event. -/
def Event.action? : Event → Option Action
  | .act a => some a
  | .step _ => none

theorem State.accepted_append (s : State) (events more : List Event) :
    s.accepted p (events ++ more) = s.accepted p events ++ (s.after p events).accepted p more := by
  induction events generalizing s with
  | nil => rfl
  | cons e events ih =>
    rw [List.cons_append, accepted, accepted, ih, List.append_assoc]
    rfl

/-- Steps bring no records in. -/
theorem State.accepted_steps (s : State) (tasks : List Task) :
    s.accepted p (tasks.map .step) = [] := by
  induction tasks generalizing s with
  | nil => rfl
  | cons t tasks ih => exact ih _

theorem filterMap_action?_steps (tasks : List Task) :
    (tasks.map Event.step).filterMap Event.action? = [] := by
  rw [List.filterMap_map, List.filterMap_eq_nil_iff]
  exact fun _ _ => rfl

/-! ### Runs of several actions -/

namespace Run

/-- The run after some actions. -/
def acts (p : Plan) (r : Run) (actions : List Action) : Run := actions.foldl (Run.act p) r

/-- The records that are sent and accepted in the course of some actions, the oldest first. -/
def accepted (p : Plan) (r : Run) : List Action → List StreamRecord
  | [] => []
  | a :: actions => r.state.acceptedBy p (.act a) ++ (r.act p a).accepted p actions

/-- A run has a history with just its actions, in which the same records are accepted. -/
theorem exists_events (p : Plan) (r : Run) (actions : List Action) :
    ∃ events : List Event, events.filterMap Event.action? = actions ∧
      r.state.after p events = (r.acts p actions).state ∧
      r.state.accepted p events = r.accepted p actions := by
  induction actions generalizing r with
  | nil => exact ⟨[], rfl, rfl, rfl⟩
  | cons a actions ih =>
    obtain ⟨tasks, hact, -⟩ := exists_tasks_act p r a
    obtain ⟨events, hactions, hafter, haccepted⟩ := ih (r.act p a)
    -- the action, the steps to rest, and the events of the other actions
    refine ⟨(.act a :: tasks.map .step) ++ events, ?_, ?_, ?_⟩
    · rw [List.filterMap_append, hactions, List.filterMap_cons, filterMap_action?_steps]
      rfl
    · rw [State.after_append, hact, hafter]
      rfl
    · rw [State.accepted_append, hact, haccepted, State.accepted, State.accepted_steps,
        List.append_nil]
      rfl

/-- A run rests after its last action. -/
theorem isAtRest_acts (p : Plan) (r : Run) {actions : List Action} (h : actions ≠ []) :
    isAtRest p (r.acts p actions).state = true := by
  obtain ⟨before, a, rfl⟩ := (List.eq_nil_or_concat actions).resolve_left h
  obtain ⟨-, -, hrest⟩ := exists_tasks_act p (r.acts p before) a
  rw [acts, List.concat_eq_append, List.foldl_append]
  exact hrest

end Run

/-! ### Started runs -/

/-- In an idle pipeline no record is under way to a lane. -/
theorem State.IsIdle.pending_eq_nil (h : s.IsIdle) : s.pending = [] := by
  rw [pending, List.flatMap_eq_nil_iff.2 h.lanes, h.router, h.receiving]
  rfl

/-- A started run, whatever the outside has done to it, waits for a consumer that is there and does
not take what is put out, or it has scored every record that was accepted: it has come to its end or
is open for more, and its totals count all of these records. -/
theorem scored_of_started (p : Plan) (actions : List Action) :
    let s := (Run.acts p { state := .initial p } actions).state
    let accepted := Run.accepted p { state := .initial p } actions
    s.IsStarted →
      s.isStopping = false ∧ (s.WaitsForAlerts p ∨ s.WaitsForPassed p) ∨
      (s.phase = .finished ∨ s.IsIdle) ∧ s.totals.seen = accepted.length ∧
        s.totals.scored = accepted.length ∧
        s.totals.dropped = accepted.countP fun r => p.scorer.score r = .dropped := by
  intro s accepted hstarted
  obtain ⟨history, -, hafter, haccepted⟩ :=
    Run.exists_events p { state := .initial p } actions
  have hs : p.after history = s := hafter
  have hw : Wired p s := hs ▸ wired_after p history
  obtain ⟨done, ha⟩ : ∃ done, Accounts p s done := hs ▸ exists_accounts p history
  have hlog : s.inbound.log = accepted := by
    rw [← hs, log_after]
    exact haccepted
  have hne : actions ≠ [] := by
    rintro rfl
    exact hstarted.1 rfl
  rw [← hlog]
  obtain hphase | hidle | hwaits := hw.rest_cases hstarted (Run.isAtRest_acts p _ hne)
  · exact .inr ⟨.inl hphase, ha.totals_of_pending_eq_nil hw (hw.pending_eq_nil hphase)
      (hw.waiting_eq_nil hphase)⟩
  · exact .inr ⟨.inr hidle, ha.totals_of_pending_eq_nil hw hidle.pending_eq_nil hidle.inbound⟩
  · exact .inl hwaits

end TrustBoundary.Pipeline
