import TrustBoundary.Pipeline.Run

/-!
# Actions

What the outside does to a pipeline: the producer sends records, the holder of the handle starts and
stops it, the consumers take what was put out, and each of them may go away.  An action is done at
once; the tasks go on by themselves afterwards (`Run.act`).
-/

namespace TrustBoundary.Pipeline

/-- How many commands can wait. -/
def commandCapacity : Nat := 16

/-- What a producer is told of a record. -/
inductive SendReply where
  | accepted
  /-- There is no room. -/
  | full
  /-- Records are no longer accepted. -/
  | closed
deriving DecidableEq

/-- What the holder of the handle is told of a command to stop. -/
inductive StopReply where
  | accepted
  /-- Too many commands wait already. -/
  | full
  /-- The pipeline is no more. -/
  | gone
  /-- Nobody has the handle. -/
  | noHandle
deriving DecidableEq

namespace State

/-- Starts a pipeline that was not started. -/
def start (s : State) : State :=
  if s.phase = .unstarted then { s with phase := .receiving } else s

/-- Throws a pipeline away that was not started. -/
def discard (s : State) : State :=
  if s.phase = .unstarted then { s with phase := .discarded } else s

/-- What is told of a record that is sent now. -/
def sendReply (p : Plan) (s : State) : SendReply :=
  if !s.inbound.isOpen || s.isStopping || s.isOver then .closed
  else if s.inbound.hasRoom p.ingestCapacity then .accepted
  else .full

theorem sendReply_eq_accepted_iff {p : Plan} {s : State} :
    s.sendReply p = .accepted ↔ s.inbound.isOpen = true ∧ s.isStopping = false ∧
      s.isOver = false ∧ s.inbound.hasRoom p.ingestCapacity = true := by
  unfold sendReply
  cases s.inbound.isOpen <;> cases s.isStopping <;> cases s.isOver <;>
    cases s.inbound.hasRoom p.ingestCapacity <;> decide

/-- A record sent. -/
def send (p : Plan) (s : State) (r : StreamRecord) : State :=
  if s.sendReply p = .accepted then { s with inbound := s.inbound.put r } else s

/-- What is told of a command to stop that is given now. -/
def stopReply (s : State) : StopReply :=
  if !s.hasHandle then .noHandle
  else if s.isOver then .gone
  else if s.commands < commandCapacity then .accepted
  else .full

theorem stopReply_eq_accepted_iff {s : State} :
    s.stopReply = .accepted ↔
      s.hasHandle = true ∧ s.isOver = false ∧ s.commands < commandCapacity := by
  unfold stopReply
  cases s.hasHandle <;> cases s.isOver <;>
    by_cases h : s.commands < commandCapacity <;> simp [h]

/-- A command to stop given. -/
def stop (s : State) : State :=
  if s.stopReply = .accepted then { s with commands := s.commands + 1 } else s

/-- The next alert taken by its consumer, if it is still there. -/
def takeAlert? (s : State) : Option (StreamRecord × State) :=
  if s.alerts.isOpen then s.alerts.take?.map fun (r, alerts) => (r, { s with alerts }) else none

/-- The next record taken by the pass-through consumer, if it is still there. -/
def takePassed? (s : State) : Option (StreamRecord × State) :=
  if s.passed.isOpen then s.passed.take?.map fun (r, passed) => (r, { s with passed }) else none

end State

/-- What the outside does. -/
inductive Action where
  | start
  | discard
  | send (r : StreamRecord)
  | stop
  /-- The producer goes away. -/
  | closeInbound
  /-- The holder of the handle goes away. -/
  | dropHandle
  /-- The consumer of the alerts goes away. -/
  | dropAlerts
  /-- The pass-through consumer goes away. -/
  | dropPassed
  | takeAlert
  | takePassed
deriving DecidableEq

/-- The state after an action. -/
def act (p : Plan) (s : State) : Action → State
  | .start => s.start
  | .discard => s.discard
  | .send r => s.send p r
  | .stop => s.stop
  | .closeInbound => { s with inbound.isOpen := false }
  | .dropHandle => { s with hasHandle := false }
  | .dropAlerts => { s with alerts.isOpen := false }
  | .dropPassed => { s with passed.isOpen := false }
  | .takeAlert => s.takeAlert?.elim s (·.2)
  | .takePassed => s.takePassed?.elim s (·.2)

/-- The run at rest after an action. -/
def Run.act (p : Plan) (r : Run) (a : Action) : Run := settle p ⟨Pipeline.act p r.state a, r.line⟩

end TrustBoundary.Pipeline
