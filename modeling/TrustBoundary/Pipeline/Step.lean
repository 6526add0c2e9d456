import TrustBoundary.Pipeline.State
import TrustBoundary.Risk.Lane

/-!
# Steps

Every task of a pipeline goes on by itself as long as it can: `step p t s` is the state after a step
of the task `t`, if it can make one.  Which task goes first is left open; `Leads` holds of every
order.
-/

namespace TrustBoundary.Pipeline

/-- What goes on by itself. -/
inductive Task where
  | dispatcher
  | forwarder
  | router
  | lane (index : Nat)
deriving DecidableEq

namespace State

/-- A stop taken up. -/
def beginStop (s : State) : State := { s with commands := s.commands - 1, isStopping := true }

/-- A stop taken up if there is a command for it, or nobody left to give one. -/
def heedStop? (s : State) : Option State :=
  if !s.isStopping && (0 < s.commands || !s.hasHandle) then some s.beginStop else none

theorem heedStop?_eq_some_iff {s s' : State} :
    s.heedStop? = some s' ↔
      s.isStopping = false ∧ (0 < s.commands ∨ s.hasHandle = false) ∧ s' = s.beginStop := by
  simp only [heedStop?, Option.ite_none_right_eq_some, Option.some.injEq, Bool.and_eq_true,
    Bool.or_eq_true, decide_eq_true_eq, Bool.not_eq_true', and_assoc, @eq_comm _ s']

theorem heedStop?_eq_none_iff {s : State} :
    s.heedStop? = none ↔ s.isStopping = true ∨ s.commands = 0 ∧ s.hasHandle = true := by
  cases hstop : s.isStopping <;> simp [heedStop?, hstop]

/-- The next record taken in. -/
def admit? (p : Plan) (s : State) : Option State := do
  let (r, inbound) ← s.inbound.take?
  return { s with
    inbound
    phase := if p.passCapacity.isSome then .forwarding r else .routing r
    totals.seen := s.totals.seen + 1 }

theorem admit?_eq_some_iff {p : Plan} {s s' : State} :
    s.admit? p = some s' ↔ ∃ r inbound, s.inbound.take? = some (r, inbound) ∧ s' = { s with
      inbound
      phase := if p.passCapacity.isSome then .forwarding r else .routing r
      totals.seen := s.totals.seen + 1 } := by
  simp only [admit?, Option.bind_eq_bind, Option.bind_eq_some_iff, Option.pure_def,
    Option.some.injEq, Prod.exists, @eq_comm _ s']

theorem admit?_eq_none_iff {p : Plan} {s : State} :
    s.admit? p = none ↔ s.inbound.waiting = [] := by
  rw [← Channel.take?_eq_none_iff, admit?]
  cases s.inbound.take? <;> simp

/-- A step of the dispatcher.  A stop comes before the next record, but after a record that it holds
and for which there is room. -/
def dispatch? (p : Plan) (s : State) : Option State :=
  match s.phase with
  | .receiving =>
    s.heedStop? <|> s.admit? p <|>
      if s.isStopping || !s.inbound.isOpen then some { s with phase := .draining } else none
  | .forwarding r =>
    if s.forwarder.hasEnded then
      some { s with phase := .routing r, mishaps := s.mishaps ++ [.forwarderGone] }
    else match s.forwarder.enqueue? p.ingestCapacity r with
      | some forwarder => some { s with forwarder, phase := .routing r }
      | none => s.heedStop?
  | .routing r =>
    if s.router.hasEnded then
      some { s with phase := .draining, mishaps := s.mishaps ++ [.dispatchFailed .channelClosed] }
    else match s.router.enqueue? p.ingestCapacity r with
      | some router => some { s with router, phase := .receiving }
      | none => s.heedStop?
  | .draining =>
    if s.workersEnded then some { s with phase := .finished, returned := some s.totals } else none
  | .unstarted | .finished | .discarded => none

/-- A step of the forwarder. -/
def forward? (p : Plan) (s : State) : Option State :=
  match s.forwarder.hand with
  | none => (s.forwarder.receive? (s.phase = .draining)).map fun forwarder => { s with forwarder }
  | some r => do
    let (delivery, passed) ← s.passed.deliver? (p.passCapacity.getD 0) s.isStopping r
    return { s with
      forwarder := s.forwarder.release, passed, totals := s.totals.countForward delivery }

/-- The index of the lane of a record. -/
def laneIndex (p : Plan) (r : StreamRecord) : Nat := (laneOf r.key p.settings.lanes).toNat

/-- A step of the router.  Its queue is closed when the dispatcher is done with it. -/
def route? (p : Plan) (s : State) : Option State :=
  match s.router.hand with
  | none => (s.router.receive? (s.phase = .draining)).map fun router => { s with router }
  | some r =>
    let index := laneIndex p r
    match s.lanes[index]? with
    | none => some { s with router := .ended, mishaps := s.mishaps ++ [.noLane index] }
    | some lane =>
      if lane.hasEnded then
        some { s with router := .ended, mishaps := s.mishaps ++ [.laneClosed index] }
      else (lane.enqueue? p.laneCapacity r).map fun lane =>
        { s with router := s.router.release, lanes := s.lanes.set index lane }

/-- The record that is put out for an alert. -/
def alertRecord (p : Plan) (r : StreamRecord) (a : Alert) : StreamRecord :=
  ⟨p.settings.alertTopic, r.key, some a.text⟩

/-- A record scored, and its alert delivered. -/
def score? (p : Plan) (s : State) (r : StreamRecord) : Option State :=
  let totals := { s.totals with scored := s.totals.scored + 1 }
  match p.scorer.score r with
  | .noAlert => some { s with totals }
  | .dropped => some { s with totals := { totals with dropped := totals.dropped + 1 } }
  | .alert a => do
    let (delivery, alerts) ← s.alerts.deliver? p.alertCapacity s.isStopping (alertRecord p r a)
    return { s with alerts, totals := totals.countAlert delivery }

/-- A step of the lane with this index.  Its queue is closed when the router has ended. -/
def runLane? (p : Plan) (index : Nat) (s : State) : Option State := do
  let lane ← s.lanes[index]?
  match lane.hand with
  | none => return { s with lanes := s.lanes.set index (← lane.receive? s.router.hasEnded) }
  | some r => return { ← s.score? p r with lanes := s.lanes.set index lane.release }

end State

/-- The state after a step of a task, if it can make one. -/
def step (p : Plan) : Task → State → Option State
  | .dispatcher => State.dispatch? p
  | .forwarder => State.forward? p
  | .router => State.route? p
  | .lane index => State.runLane? p index

/-- Steps of the tasks, in some order, lead from one state to another. -/
inductive Leads (p : Plan) : State → State → Prop where
  | refl (s : State) : Leads p s s
  | step {task : Task} {s t u : State} (h : step p task s = some t) (rest : Leads p t u) :
    Leads p s u

end TrustBoundary.Pipeline
