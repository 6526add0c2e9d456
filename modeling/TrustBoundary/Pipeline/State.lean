import TrustBoundary.Pipeline.Channel
import TrustBoundary.Pipeline.Settings
import TrustBoundary.Risk.Scorer

/-!
# The state of a pipeline

Records come in through one channel to the dispatcher.  It hands each to the forwarder, which puts
it into the channel of the pass-through consumer as it is, and to the router, which hands it to the
lane of its key; the lane scores it and puts the alert into the channel of the alert consumer.
Every worker has a queue before it and holds one record at most.

    inbound → dispatcher → forwarder → passed
                         → router → lanes → alerts
-/

namespace TrustBoundary.Pipeline

/-- What stays the same while a pipeline runs.  The settings may ask for any number of lanes and for
queues of any size; that there is memory for so many lanes, and that channels are made as large as
that, is taken for granted. -/
structure Plan where
  settings : PipelineSettings
  scorer : Scorer
  /-- How many alerts wait for their consumer. -/
  alertCapacity : Nat
  /-- How many records wait for the pass-through consumer, if there is one. -/
  passCapacity : Option Nat
  /-- The settings are not refused. -/
  valid : settings.validate = .ok ()

namespace Plan

/-- A plan, unless its settings are refused. -/
def ofSettings (settings : PipelineSettings) (scorer : Scorer) (alertCapacity : Nat)
    (passCapacity : Option Nat) : Except PipelineSettings.Fault Plan :=
  match h : settings.validate with
  | .ok () => .ok ⟨settings, scorer, alertCapacity, passCapacity, h⟩
  | .error fault => .error fault

/-- How many records wait at the entrance, for the forwarder and for the router. -/
def ingestCapacity (p : Plan) : Nat := p.settings.ingestCapacity.toNat

/-- How many records wait for each lane. -/
def laneCapacity (p : Plan) : Nat := p.settings.laneCapacity.toNat

/-- The number of lanes. -/
def laneCount (p : Plan) : Nat := p.settings.lanes.toNat

theorem laneCount_pos (p : Plan) : 0 < p.laneCount :=
  Nat.pos_of_ne_zero fun h =>
    (PipelineSettings.validate_eq_ok_iff.1 p.valid).1 (UInt64.toNat_inj.1 h)

theorem laneCapacity_pos (p : Plan) : 0 < p.laneCapacity :=
  Nat.pos_of_ne_zero fun h =>
    (PipelineSettings.validate_eq_ok_iff.1 p.valid).2.1 (.inl (UInt64.toNat_inj.1 h))

theorem ingestCapacity_pos (p : Plan) : 0 < p.ingestCapacity :=
  Nat.pos_of_ne_zero fun h =>
    (PipelineSettings.validate_eq_ok_iff.1 p.valid).2.1 (.inr (UInt64.toNat_inj.1 h))

end Plan

/-- A worker with the queue before it and the record that it holds. -/
structure Worker where
  queue : List StreamRecord := []
  hand : Option StreamRecord := none
  /-- Whether the worker has come to its end, and its queue with it. -/
  hasEnded : Bool := false
deriving DecidableEq

namespace Worker

/-- A worker that has come to its end.  What it still had is lost. -/
def ended : Worker := { hasEnded := true }

/-- A record put into the queue. -/
def put (w : Worker) (r : StreamRecord) : Worker := { w with queue := w.queue ++ [r] }

/-- A record put into the queue, if it has room. -/
def enqueue? (w : Worker) (capacity : Nat) (r : StreamRecord) : Option Worker :=
  if w.queue.length < capacity then some (w.put r) else none

/-- The next record of the queue taken into the hand.  When the queue is empty and closed, the
worker comes to its end. -/
def receive? (w : Worker) (isClosed : Bool) : Option Worker :=
  match w.queue with
  | r :: rest => some { w with queue := rest, hand := some r }
  | [] => if isClosed && !w.hasEnded then some ended else none

/-- The hand empty again. -/
def release (w : Worker) : Worker := { w with hand := none }

end Worker

/-- Running totals.  They are counted without a bound. -/
structure Totals where
  /-- Records that the dispatcher took. -/
  seen : Nat := 0
  /-- Records that a lane is done with. -/
  scored : Nat := 0
  /-- Alerts in the channel of their consumer. -/
  emitted : Nat := 0
  /-- Alerts that were given up. -/
  abandoned : Nat := 0
  /-- Records in which no amount was found. -/
  dropped : Nat := 0
  /-- Records in the channel of the pass-through consumer. -/
  forwarded : Nat := 0
deriving DecidableEq

namespace Totals

/-- The totals after the delivery of an alert. -/
def countAlert (t : Totals) : Delivery → Totals
  | .sent => { t with emitted := t.emitted + 1 }
  | .abandoned => { t with abandoned := t.abandoned + 1 }
  | .closed => t

/-- The totals after the delivery of a record to the pass-through consumer. -/
def countForward (t : Totals) : Delivery → Totals
  | .sent => { t with forwarded := t.forwarded + 1 }
  | .closed | .abandoned => t

end Totals

/-- What the dispatcher is at. -/
inductive Phase where
  /-- The pipeline was not started. -/
  | unstarted
  /-- It waits for a record. -/
  | receiving
  /-- It holds a record for the forwarder, and then for the router. -/
  | forwarding (r : StreamRecord)
  /-- It holds a record for the router. -/
  | routing (r : StreamRecord)
  /-- No more records come; it waits for the workers. -/
  | draining
  /-- The pipeline has come to its end. -/
  | finished
  /-- The pipeline was thrown away instead of being started. -/
  | discarded
deriving DecidableEq

/-- What goes wrong between the tasks of a pipeline when one of them ends before those that hand
records to it. -/
inductive Mishap where
  /-- The dispatcher has a record for a forwarder that has ended. -/
  | forwarderGone
  /-- The dispatcher has a record that it cannot hand on for scoring. -/
  | dispatchFailed (e : RiskError)
  /-- The router has a record for a lane that does not exist. -/
  | noLane (index : Nat)
  /-- The router has a record for a lane that has ended. -/
  | laneClosed (index : Nat)
deriving DecidableEq

/-- The state of a pipeline and of its channels. -/
structure State where
  /-- Where records come in; it is open as long as there is a producer. -/
  inbound : Channel := {}
  /-- How many commands to stop wait. -/
  commands : Nat := 0
  /-- Whether somebody can still give commands. -/
  hasHandle : Bool := true
  phase : Phase := .unstarted
  /-- Whether a stop was taken up: nothing more comes in, and nobody waits for consumers. -/
  isStopping : Bool := false
  forwarder : Worker := {}
  router : Worker := {}
  lanes : List Worker
  alerts : Channel := {}
  passed : Channel := {}
  totals : Totals := {}
  /-- The totals that were given back at the end. -/
  returned : Option Totals := none
  /-- What went wrong, the oldest first. -/
  mishaps : List Mishap := []
deriving DecidableEq

namespace State

/-- A pipeline before its start.  Without a pass-through consumer there is no forwarder. -/
def initial (p : Plan) : State where
  forwarder := { hasEnded := p.passCapacity.isNone }
  lanes := List.replicate p.laneCount {}

/-- Whether the pipeline is no more. -/
def isOver (s : State) : Bool := s.phase = .finished || s.phase = .discarded

/-- Whether all workers have come to their ends. -/
def workersEnded (s : State) : Bool :=
  s.forwarder.hasEnded && s.router.hasEnded && s.lanes.all (·.hasEnded)

end State

end TrustBoundary.Pipeline
