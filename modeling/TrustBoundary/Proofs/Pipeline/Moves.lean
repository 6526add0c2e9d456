import TrustBoundary.Pipeline.History

/-!
# Moves

`Move p s s'` says what a single step of a task can do to a pipeline, mishaps apart: every guard
under which the step is made, and the state to which it leads.  `Touch p s a s'` says the same of an
action (`touch_act`).
-/

namespace TrustBoundary.Pipeline

/-! ### Workers and channels -/

/-- The records of a worker, the oldest first. -/
def Worker.content (w : Worker) : List StreamRecord := w.hand.toList ++ w.queue

namespace Worker

@[simp] theorem content_put (w : Worker) (r : StreamRecord) :
    (w.put r).content = w.content ++ [r] := by
  simp [content, put]

theorem content_eq_cons {w : Worker} {r : StreamRecord} (h : w.hand = some r) :
    w.content = r :: w.release.content := by
  simp [content, release, h]

theorem length_put (w : Worker) (r : StreamRecord) :
    (w.put r).queue.length = w.queue.length + 1 := by
  simp [put]

theorem enqueue?_eq_some_iff {w w' : Worker} {capacity : Nat} {r : StreamRecord} :
    w.enqueue? capacity r = some w' ↔ w.queue.length < capacity ∧ w' = w.put r := by
  simp only [enqueue?, Option.ite_none_right_eq_some, Option.some.injEq]
  exact and_congr_right fun _ => eq_comm

/-- A worker that receives keeps its records; it has come to its end only if it was there before, or
if its queue is closed and it has no records. -/
theorem of_receive?_eq_some {w w' : Worker} {isClosed : Bool} (hhand : w.hand = none)
    (h : w.receive? isClosed = some w') :
    w'.content = w.content ∧ w'.queue.length ≤ w.queue.length ∧
      (w'.hasEnded = true → w.hasEnded = true ∨ isClosed = true ∧ w'.content = []) := by
  rcases w with ⟨queue, hand, hasEnded⟩
  simp only at hhand
  subst hhand
  cases queue with
  | nil =>
    simp only [receive?, Option.ite_none_right_eq_some, Bool.and_eq_true, Option.some.injEq] at h
    obtain ⟨⟨hclosed, -⟩, rfl⟩ := h
    exact ⟨rfl, Nat.le_refl _, fun _ => .inr ⟨hclosed, rfl⟩⟩
  | cons r rest =>
    simp only [receive?, Option.some.injEq] at h
    subst h
    exact ⟨rfl, Nat.le_succ _, .inl⟩

end Worker

/-- What becomes of a record that is delivered, and of the channel. -/
theorem Channel.deliver?_eq_some_iff {c c' : Channel} {capacity : Nat} {isStopping : Bool}
    {r : StreamRecord} {d : Delivery} :
    c.deliver? capacity isStopping r = some (d, c') ↔
      c.isOpen = false ∧ d = .closed ∧ c' = c ∨
      c.isOpen = true ∧ c.hasRoom capacity = true ∧ d = .sent ∧ c' = c.put r ∨
      c.isOpen = true ∧ c.hasRoom capacity = false ∧ isStopping = true ∧ d = .abandoned ∧
        c' = c := by
  unfold deliver?
  cases c.isOpen <;> cases c.hasRoom capacity <;> cases isStopping <;>
    simp [eq_comm]

/-- Nothing is delivered only where a consumer that is still there has no room, and the pipeline
waits for it. -/
theorem Channel.deliver?_eq_none_iff {c : Channel} {capacity : Nat} {isStopping : Bool}
    {r : StreamRecord} :
    c.deliver? capacity isStopping r = none ↔
      c.isOpen = true ∧ c.hasRoom capacity = false ∧ isStopping = false := by
  unfold deliver?
  cases c.isOpen <;> cases c.hasRoom capacity <;> cases isStopping <;> simp

/-! ### What a step can do -/

/-- The record that is put out for a record, if it raises an alert. -/
def Plan.alertFor? (p : Plan) (r : StreamRecord) : Option StreamRecord :=
  match p.scorer.score r with
  | .alert a => some (State.alertRecord p r a)
  | .noAlert | .dropped => none

theorem Plan.score_ne_dropped_of_alertFor? {p : Plan} {r a : StreamRecord}
    (h : p.alertFor? r = some a) : p.scorer.score r ≠ .dropped := by
  intro hdropped
  rw [alertFor?, hdropped] at h
  cases h

/-- Whether the queues behind the dispatcher are closed. -/
def Phase.isClosed : Phase → Bool
  | .draining | .finished => true
  | .unstarted | .receiving | .forwarding _ | .routing _ | .discarded => false

/-- A step in which nothing goes wrong. -/
inductive Move (p : Plan) (s : State) : State → Prop
  /-- The dispatcher takes a stop up. -/
  | heedStop (hphase : s.phase.isClosed = false) (hgoing : s.isStopping = false)
      (hstop : 0 < s.commands ∨ s.hasHandle = false) : Move p s s.beginStop
  /-- The dispatcher takes a record in. -/
  | takeIn {r : StreamRecord} {inbound : Channel} (hphase : s.phase = .receiving)
      (hheed : s.heedStop? = none) (htake : s.inbound.take? = some (r, inbound)) :
      Move p s { s with
        inbound
        phase := if p.passCapacity.isSome then .forwarding r else .routing r
        totals.seen := s.totals.seen + 1 }
  /-- The dispatcher closes the queues behind it. -/
  | close (hphase : s.phase = .receiving) (hheed : s.heedStop? = none)
      (hwaiting : s.inbound.waiting = [])
      (hclosed : s.isStopping = true ∨ s.inbound.isOpen = false) :
      Move p s { s with phase := .draining }
  /-- The dispatcher hands a record to the forwarder. -/
  | handToForwarder {r : StreamRecord} (hphase : s.phase = .forwarding r)
      (hroom : s.forwarder.queue.length < p.ingestCapacity) :
      Move p s { s with forwarder := s.forwarder.put r, phase := .routing r }
  /-- The dispatcher hands a record to the router. -/
  | handToRouter {r : StreamRecord} (hphase : s.phase = .routing r)
      (hroom : s.router.queue.length < p.ingestCapacity) :
      Move p s { s with router := s.router.put r, phase := .receiving }
  /-- The dispatcher comes to its end behind all workers. -/
  | finish (hphase : s.phase = .draining) (hended : s.workersEnded = true) :
      Move p s { s with phase := .finished, returned := some s.totals }
  | forwarderReceives {w : Worker} (hhand : s.forwarder.hand = none)
      (hreceive : s.forwarder.receive? (s.phase = .draining) = some w) :
      Move p s { s with forwarder := w }
  /-- The forwarder is done with a record. -/
  | forward {r : StreamRecord} {d : Delivery} {passed : Channel}
      (hhand : s.forwarder.hand = some r)
      (hdeliver : s.passed.deliver? (p.passCapacity.getD 0) s.isStopping r = some (d, passed)) :
      Move p s { s with
        forwarder := s.forwarder.release, passed, totals := s.totals.countForward d }
  | routerReceives {w : Worker} (hhand : s.router.hand = none)
      (hreceive : s.router.receive? (s.phase = .draining) = some w) :
      Move p s { s with router := w }
  /-- The router hands a record to its lane. -/
  | route {r : StreamRecord} {lane : Worker} (hhand : s.router.hand = some r)
      (hlane : s.lanes[State.laneIndex p r]? = some lane) (hgoing : lane.hasEnded = false)
      (hroom : lane.queue.length < p.laneCapacity) :
      Move p s { s with
        router := s.router.release, lanes := s.lanes.set (State.laneIndex p r) (lane.put r) }
  | laneReceives {index : Nat} {lane w : Worker} (hlane : s.lanes[index]? = some lane)
      (hhand : lane.hand = none) (hreceive : lane.receive? s.router.hasEnded = some w) :
      Move p s { s with lanes := s.lanes.set index w }
  /-- A lane is done with a record that raises no alert. -/
  | score {index : Nat} {lane : Worker} {r : StreamRecord} (hlane : s.lanes[index]? = some lane)
      (hhand : lane.hand = some r) (hquiet : p.alertFor? r = none) :
      Move p s { s with
        lanes := s.lanes.set index lane.release
        totals.scored := s.totals.scored + 1
        totals.dropped := s.totals.dropped + if p.scorer.score r = .dropped then 1 else 0 }
  /-- A lane is done with a record that raises an alert. -/
  | raise {index : Nat} {lane : Worker} {r a : StreamRecord} {d : Delivery} {alerts : Channel}
      (hlane : s.lanes[index]? = some lane) (hhand : lane.hand = some r)
      (halert : p.alertFor? r = some a)
      (hdeliver : s.alerts.deliver? p.alertCapacity s.isStopping a = some (d, alerts)) :
      Move p s { s with
        lanes := s.lanes.set index lane.release
        alerts
        totals := { s.totals with scored := s.totals.scored + 1 }.countAlert d }

/-! ### What an action can do -/

/-- What an action can do to a pipeline. -/
inductive Touch (p : Plan) (s : State) : Action → State → Prop
  | nothing {a : Action} : Touch p s a s
  | start (hphase : s.phase = .unstarted) : Touch p s .start { s with phase := .receiving }
  | discard (hphase : s.phase = .unstarted) : Touch p s .discard { s with phase := .discarded }
  | send {r : StreamRecord} (haccepted : s.sendReply p = .accepted) :
      Touch p s (.send r) { s with inbound := s.inbound.put r }
  | stop (haccepted : s.stopReply = .accepted) :
      Touch p s .stop { s with commands := s.commands + 1 }
  | closeInbound : Touch p s .closeInbound { s with inbound.isOpen := false }
  | dropHandle : Touch p s .dropHandle { s with hasHandle := false }
  | dropAlerts : Touch p s .dropAlerts { s with alerts.isOpen := false }
  | dropPassed : Touch p s .dropPassed { s with passed.isOpen := false }
  | takeAlert {r : StreamRecord} {alerts : Channel} (htake : s.alerts.take? = some (r, alerts)) :
      Touch p s .takeAlert { s with alerts }
  | takePassed {r : StreamRecord} {passed : Channel} (htake : s.passed.take? = some (r, passed)) :
      Touch p s .takePassed { s with passed }

theorem touch_act (p : Plan) (s : State) (a : Action) : Touch p s a (act p s a) := by
  cases a with
  | start =>
    simp only [act, State.start]
    split
    · exact .start ‹_›
    · exact .nothing
  | discard =>
    simp only [act, State.discard]
    split
    · exact .discard ‹_›
    · exact .nothing
  | send r =>
    simp only [act, State.send]
    split
    · exact .send ‹_›
    · exact .nothing
  | stop =>
    simp only [act, State.stop]
    split
    · exact .stop ‹_›
    · exact .nothing
  | closeInbound => exact .closeInbound
  | dropHandle => exact .dropHandle
  | dropAlerts => exact .dropAlerts
  | dropPassed => exact .dropPassed
  | takeAlert =>
    simp only [act, State.takeAlert?]
    split
    · cases htake : s.alerts.take? with
      | none => exact .nothing
      | some taken => exact .takeAlert htake
    · exact .nothing
  | takePassed =>
    simp only [act, State.takePassed?]
    split
    · cases htake : s.passed.take? with
      | none => exact .nothing
      | some taken => exact .takePassed htake
    · exact .nothing

end TrustBoundary.Pipeline
