import TrustBoundary.Proofs.Pipeline.Quiescence

/-!
# Steps of different tasks

What a step does depends on little of the state: on the records and the channel of the task that
makes it, on how much room there is before it, and on the signals that the pipeline is stopping and
that no more records come.  Steps of the other tasks leave all this as it is, or they put records
behind those of the task, make more room and raise the signals.  Then the same step can still be
made and does the same: this is what `State.ForwardsAs`, `State.RoutesAs`, `State.RunsLaneAs` and
`State.HandsOver` say of the steps of each task.

So every step of a worker can be made before and after a step of the dispatcher (`Wired.bypasses`).

All this is about a single lane.  Two lanes may want the same room among the alerts.
-/

namespace TrustBoundary.Pipeline

variable {p : Plan} {s t : State}

/-! ### Workers and channels -/

namespace Worker

/-- Records put into the queue, one after the other. -/
def feed (w : Worker) (rs : List StreamRecord) : Worker := { w with queue := w.queue ++ rs }

@[simp] theorem feed_nil (w : Worker) : w.feed [] = w := by
  rw [feed, List.append_nil]

/-- A worker receives the same when there is more behind it.  If its queue was closed there is not,
and the queue must be closed still. -/
theorem receive?_feed {w w' : Worker} {isClosed isClosed' : Bool}
    (h : w.receive? isClosed = some w') {rs : List StreamRecord}
    (hclosed : isClosed = true → isClosed' = true ∧ rs = []) :
    (w.feed rs).receive? isClosed' = some (w'.feed rs) := by
  rcases w with ⟨queue, hand, hasEnded⟩
  cases queue with
  | nil =>
    simp only [receive?, Option.ite_none_right_eq_some, Bool.and_eq_true] at h
    obtain ⟨⟨hc, hgoing⟩, h⟩ := h
    obtain ⟨rfl, rfl⟩ := hclosed hc
    simp [receive?, hgoing, h]
  | cons r rest =>
    obtain rfl := Option.some.inj h
    rfl

end Worker

/-- What can be delivered is delivered in the same way when the pipeline begins to stop. -/
theorem Channel.deliver?_mono {c : Channel} {capacity : Nat} {isStopping isStopping' : Bool}
    {r : StreamRecord} {delivered : Delivery × Channel}
    (h : c.deliver? capacity isStopping r = some delivered)
    (hstop : isStopping = true → isStopping' = true) :
    c.deliver? capacity isStopping' r = some delivered := by
  rcases delivered with ⟨d, c'⟩
  rw [deliver?_eq_some_iff] at h ⊢
  rcases h with h | h | ⟨hopen, hroom, hstopping, h⟩
  · exact .inl h
  · exact .inr (.inl h)
  · exact .inr (.inr ⟨hopen, hroom, hstop hstopping, h⟩)

/-! ### The forwarder -/

namespace State

/-- The forwarder makes this step in `s` and wherever it has the same records first, the channel of
its consumer is the same, and the signals that were raised are raised. -/
def ForwardsAs (p : Plan) (s : State) (w : Worker) (passed : Channel) (n : Nat) : Prop :=
  ∀ (e : State) (rs : List StreamRecord),
    e.forwarder = s.forwarder.feed rs → e.passed = s.passed →
    (s.isStopping = true → e.isStopping = true) →
    (s.phase = .draining → e.phase = .draining ∧ rs = []) →
    e.forward? p = some { e with
      forwarder := w.feed rs, passed, totals.forwarded := e.totals.forwarded + n }

theorem ForwardsAs.again {w : Worker} {passed : Channel} {n : Nat} (h : s.ForwardsAs p w passed n)
    {e : State} (hworker : e.forwarder = s.forwarder) (hpassed : e.passed = s.passed)
    (hstop : s.isStopping = true → e.isStopping = true) (hphase : e.phase = s.phase) :
    e.forward? p = some { e with
      forwarder := w, passed, totals.forwarded := e.totals.forwarded + n } := by
  rw [h e [] (by rw [hworker, Worker.feed_nil]) hpassed hstop fun h => ⟨hphase.trans h, rfl⟩,
    Worker.feed_nil]

theorem ForwardsAs.eq {w : Worker} {passed : Channel} {n : Nat} (h : s.ForwardsAs p w passed n)
    (hstep : s.forward? p = some t) :
    t = { s with forwarder := w, passed, totals.forwarded := s.totals.forwarded + n } :=
  Option.some.inj (hstep.symm.trans (h.again rfl rfl id rfl))

/-- Every step of the forwarder is made like that. -/
theorem exists_forwardsAs (h : s.forward? p = some t) :
    ∃ w passed n, s.ForwardsAs p w passed n ∧ w.queue.length ≤ s.forwarder.queue.length := by
  unfold forward? at h
  cases hhand : s.forwarder.hand with
  | none =>
    simp only [hhand, Option.map_eq_some_iff] at h
    obtain ⟨w, hreceive, -⟩ := h
    refine ⟨w, s.passed, 0, ?_, (Worker.of_receive?_eq_some hhand hreceive).2.1⟩
    intro e rs hworker hpassed hstop hphase
    have hreceive' : (s.forwarder.feed rs).receive? (e.phase = .draining) = some (w.feed rs) :=
      Worker.receive?_feed hreceive (by simpa only [decide_eq_true_eq] using hphase)
    have hhand' : (s.forwarder.feed rs).hand = none := hhand
    simp only [forward?, hworker, hhand', hreceive', Option.map_some, ← hpassed]
    rfl
  | some r =>
    simp only [hhand, Option.bind_eq_bind, Option.bind_eq_some_iff, Option.pure_def,
      Option.some.injEq, Prod.exists] at h
    obtain ⟨d, passed, hdeliver, -⟩ := h
    -- what is added to the totals does not depend on what they are
    refine ⟨s.forwarder.release, passed, (({} : Totals).countForward d).forwarded, ?_,
      Nat.le_refl _⟩
    intro e rs hworker hpassed hstop hphase
    have hdeliver' := Channel.deliver?_mono hdeliver hstop
    have hhand' : (s.forwarder.feed rs).hand = some r := hhand
    simp only [forward?, hworker, hhand', hpassed, hdeliver']
    cases d <;> rfl

end State

/-! ### The router -/

namespace State

/-- The router makes this step in `s` and wherever it has the same records first, the only lane has
no less room and is not at its end unless it was before, and no more records come if none came. -/
def RoutesAs (p : Plan) (s : State) (lane w : Worker) (out : List StreamRecord) : Prop :=
  ∀ (e : State) (rs : List StreamRecord) (lane' : Worker),
    e.router = s.router.feed rs → e.lanes = [lane'] →
    lane'.queue.length ≤ lane.queue.length → (lane.hasEnded = false → lane'.hasEnded = false) →
    (s.phase = .draining → e.phase = .draining ∧ rs = []) →
    e.route? p = some { e with router := w.feed rs, lanes := [lane'.feed out] }

theorem RoutesAs.again {lane lane' w : Worker} {out : List StreamRecord}
    (h : s.RoutesAs p lane w out) {e : State} (hworker : e.router = s.router)
    (hlane : e.lanes = [lane']) (hle : lane'.queue.length ≤ lane.queue.length)
    (hgoing : lane.hasEnded = false → lane'.hasEnded = false) (hphase : e.phase = s.phase) :
    e.route? p = some { e with router := w, lanes := [lane'.feed out] } := by
  rw [h e [] lane' (by rw [hworker, Worker.feed_nil]) hlane hle hgoing
    fun h => ⟨hphase.trans h, rfl⟩, Worker.feed_nil]

theorem RoutesAs.eq {lane w : Worker} {out : List StreamRecord} (h : s.RoutesAs p lane w out)
    (hlane : s.lanes = [lane]) (hstep : s.route? p = some t) :
    t = { s with router := w, lanes := [lane.feed out] } :=
  Option.some.inj (hstep.symm.trans (h.again rfl hlane (Nat.le_refl _) id rfl))

/-- Every step of the router is made like that. -/
theorem exists_routesAs (hone : p.laneCount = 1) (hw : Wired p s) {lane : Worker}
    (hlane : s.lanes = [lane]) (h : s.route? p = some t) :
    ∃ w out, s.RoutesAs p lane w out ∧ w.queue.length ≤ s.router.queue.length ∧
      s.router.hasEnded = false := by
  unfold route? at h
  cases hhand : s.router.hand with
  | none =>
    simp only [hhand, Option.map_eq_some_iff] at h
    obtain ⟨w, hreceive, -⟩ := h
    refine ⟨w, [], ?_, (Worker.of_receive?_eq_some hhand hreceive).2.1,
      hw.router_end.going_of_receive hreceive⟩
    intro e rs lane' hworker hlanes hle hopen hphase
    have hreceive' : (s.router.feed rs).receive? (e.phase = .draining) = some (w.feed rs) :=
      Worker.receive?_feed hreceive (by simpa only [decide_eq_true_eq] using hphase)
    have hhand' : (s.router.feed rs).hand = none := hhand
    simp only [route?, hworker, hhand', hreceive', Option.map_some, Worker.feed_nil, ← hlanes]
  | some r =>
    -- the only lane is the one of the record
    have hindex : laneIndex p r = 0 := Nat.lt_one_iff.1 (hone ▸ laneIndex_lt p r)
    have hgoing : lane.hasEnded = false :=
      hw.lane_going hhand (by rw [hlane]; exact List.mem_singleton_self lane)
    simp only [hhand, hindex, hlane, List.getElem?_cons_zero, hgoing, Bool.false_eq_true,
      if_false, Option.map_eq_some_iff] at h
    obtain ⟨fed, henqueue, -⟩ := h
    obtain ⟨hroom, -⟩ := Worker.enqueue?_eq_some_iff.1 henqueue
    refine ⟨s.router.release, [r], ?_, Nat.le_refl _, hw.router_end.going_of_hand hhand⟩
    intro e rs lane' hworker hlanes hle hopen hphase
    have hhand' : (s.router.feed rs).hand = some r := hhand
    have henqueue' : lane'.enqueue? p.laneCapacity r = some (lane'.feed [r]) :=
      Worker.enqueue?_eq_some_iff.2 ⟨Nat.lt_of_le_of_lt hle hroom, rfl⟩
    simp only [route?, hworker, hhand', hindex, hlanes, List.getElem?_cons_zero, hopen hgoing,
      Bool.false_eq_true, if_false, henqueue', Option.map_some, List.set_cons_zero]
    rfl

end State

/-! ### The lane -/

/-- The totals after some records were scored. -/
def Totals.addScored (t d : Totals) : Totals :=
  { t with
    scored := t.scored + d.scored
    emitted := t.emitted + d.emitted
    abandoned := t.abandoned + d.abandoned
    dropped := t.dropped + d.dropped }

namespace State

/-- A record is scored in the same way wherever the channel of the alerts is the same, and the
pipeline is stopping if it was. -/
theorem exists_scored {r : StreamRecord} (h : s.score? p r = some t) :
    ∃ (alerts : Channel) (d : Totals), ∀ e : State, e.alerts = s.alerts →
      (s.isStopping = true → e.isStopping = true) →
      e.score? p r = some { e with alerts, totals := e.totals.addScored d } := by
  unfold score? at h
  cases houtcome : p.scorer.score r with
  | noAlert =>
    refine ⟨s.alerts, { scored := 1 }, fun e halerts hstop => ?_⟩
    simp only [score?, houtcome, ← halerts]
    rfl
  | dropped =>
    refine ⟨s.alerts, { scored := 1, dropped := 1 }, fun e halerts hstop => ?_⟩
    simp only [score?, houtcome, ← halerts]
    rfl
  | alert a =>
    simp only [houtcome, Option.bind_eq_bind, Option.bind_eq_some_iff, Option.pure_def,
      Option.some.injEq, Prod.exists] at h
    obtain ⟨d, alerts, hdeliver, -⟩ := h
    -- what becomes of the alert is told by the channel and the signal only
    refine ⟨alerts, ({ scored := 1 } : Totals).countAlert d, fun e halerts hstop => ?_⟩
    have hdeliver' := Channel.deliver?_mono hdeliver hstop
    simp only [score?, houtcome, halerts, hdeliver']
    cases d <;> rfl

/-- The only lane makes this step in `s` and wherever it has the same records first, the channel of
the alerts is the same, and the signals that were raised are raised. -/
def RunsLaneAs (p : Plan) (s : State) (lane w : Worker) (alerts : Channel) (d : Totals) : Prop :=
  ∀ (e : State) (rs : List StreamRecord),
    e.lanes = [lane.feed rs] → e.alerts = s.alerts →
    (s.isStopping = true → e.isStopping = true) →
    (s.router.hasEnded = true → e.router.hasEnded = true ∧ rs = []) →
    e.runLane? p 0 = some { e with
      lanes := [w.feed rs], alerts, totals := e.totals.addScored d }

theorem RunsLaneAs.again {lane w : Worker} {alerts : Channel} {d : Totals}
    (h : s.RunsLaneAs p lane w alerts d) {e : State} (hlane : e.lanes = [lane])
    (halerts : e.alerts = s.alerts) (hstop : s.isStopping = true → e.isStopping = true)
    (hrouter : s.router.hasEnded = true → e.router.hasEnded = true) :
    e.runLane? p 0 = some { e with lanes := [w], alerts, totals := e.totals.addScored d } := by
  rw [h e [] (by rw [hlane, Worker.feed_nil]) halerts hstop fun h => ⟨hrouter h, rfl⟩,
    Worker.feed_nil]

theorem RunsLaneAs.eq {lane w : Worker} {alerts : Channel} {d : Totals}
    (h : s.RunsLaneAs p lane w alerts d) (hlane : s.lanes = [lane])
    (hstep : s.runLane? p 0 = some t) :
    t = { s with lanes := [w], alerts, totals := s.totals.addScored d } :=
  Option.some.inj (hstep.symm.trans (h.again hlane rfl id id))

/-- Every step of the lane is made like that. -/
theorem exists_runsLaneAs {lane : Worker} (hlane : s.lanes = [lane])
    (h : s.runLane? p 0 = some t) :
    ∃ w alerts d, s.RunsLaneAs p lane w alerts d ∧ w.queue.length ≤ lane.queue.length := by
  simp only [runLane?, hlane, List.getElem?_cons_zero, Option.bind_eq_bind, Option.bind_some] at h
  cases hhand : lane.hand with
  | none =>
    simp only [hhand, Option.bind_eq_some_iff] at h
    obtain ⟨w, hreceive, -⟩ := h
    -- a record taken from the queue is its first in either state
    refine ⟨w, s.alerts, {}, ?_, (Worker.of_receive?_eq_some hhand hreceive).2.1⟩
    intro e rs hlanes halerts hstop hended
    have hreceive' : (lane.feed rs).receive? e.router.hasEnded = some (w.feed rs) :=
      Worker.receive?_feed hreceive hended
    have hhand' : (lane.feed rs).hand = none := hhand
    simp only [runLane?, hlanes, List.getElem?_cons_zero, Option.bind_eq_bind, Option.bind_some,
      hhand', hreceive', List.set_cons_zero, ← halerts]
    rfl
  | some r =>
    simp only [hhand, Option.bind_eq_some_iff] at h
    obtain ⟨t', hscore, -⟩ := h
    obtain ⟨alerts, d, hscored⟩ := exists_scored hscore
    -- a record is scored as in `exists_scored`, whatever has come into the queue since
    refine ⟨lane.release, alerts, d, ?_, Nat.le_refl _⟩
    intro e rs hlanes halerts hstop hended
    have hhand' : (lane.feed rs).hand = some r := hhand
    simp only [runLane?, hlanes, List.getElem?_cons_zero, Option.bind_eq_bind, Option.bind_some,
      hhand', hscored e halerts hstop, List.set_cons_zero]
    rfl

end State

/-! ### The dispatcher -/

/-- What the dispatcher does when it goes on with the records: what becomes of the entrance and of
its phase, how many records it takes in, and those that it hands on. -/
structure Handover where
  inbound : Channel
  phase : Phase
  seen : Nat := 0
  toForwarder : List StreamRecord := []
  toRouter : List StreamRecord := []

namespace State

/-- The state after a handover. -/
def handOver (s : State) (o : Handover) : State :=
  { s with
    inbound := o.inbound
    phase := o.phase
    forwarder := s.forwarder.feed o.toForwarder
    router := s.router.feed o.toRouter
    totals.seen := s.totals.seen + o.seen }

/-- Two states in which the dispatcher has the same to do. -/
structure SameFront (s t : State) : Prop where
  inbound : t.inbound = s.inbound
  commands : t.commands = s.commands
  hasHandle : t.hasHandle = s.hasHandle
  phase : t.phase = s.phase
  isStopping : t.isStopping = s.isStopping

theorem SameFront.heedStop?_eq_none (h : s.SameFront t) (hnone : s.heedStop? = none) :
    t.heedStop? = none := by
  rw [heedStop?_eq_none_iff] at hnone ⊢
  rwa [h.isStopping, h.commands, h.hasHandle]

theorem dispatch?_takeIn (hphase : s.phase = .receiving) (hheed : s.heedStop? = none)
    {r : StreamRecord} {inbound : Channel} (htake : s.inbound.take? = some (r, inbound)) :
    s.dispatch? p = some (s.handOver {
      inbound
      phase := if p.passCapacity.isSome then .forwarding r else .routing r
      seen := 1 }) := by
  have hadmit := (admit?_eq_some_iff (p := p)).2 ⟨r, inbound, htake, rfl⟩
  simp only [dispatch?, hphase, hheed, hadmit, handOver, Worker.feed_nil]
  rfl

theorem dispatch?_close (hphase : s.phase = .receiving) (hheed : s.heedStop? = none)
    (hwaiting : s.inbound.waiting = []) (hclosed : s.isStopping = true ∨ s.inbound.isOpen = false) :
    s.dispatch? p = some (s.handOver { inbound := s.inbound, phase := .draining }) := by
  have hadmit : s.admit? p = none := admit?_eq_none_iff.2 hwaiting
  have hend : (s.isStopping || !s.inbound.isOpen) = true := by simpa using hclosed
  simp only [dispatch?, hphase, hheed, hadmit, hend, handOver, Worker.feed_nil]
  rfl

theorem dispatch?_forwarding {r : StreamRecord} (hphase : s.phase = .forwarding r)
    (hgoing : s.forwarder.hasEnded = false) (hroom : s.forwarder.queue.length < p.ingestCapacity) :
    s.dispatch? p = some (s.handOver {
      inbound := s.inbound, phase := .routing r, toForwarder := [r] }) := by
  have henqueue := (Worker.enqueue?_eq_some_iff (r := r)).2 ⟨hroom, rfl⟩
  simp only [dispatch?, hphase, hgoing, henqueue, handOver, Worker.feed_nil]
  rfl

/-- Without room before the forwarder, the dispatcher can only take a stop up. -/
theorem dispatch?_forwarding_full {r : StreamRecord} (hphase : s.phase = .forwarding r)
    (hgoing : s.forwarder.hasEnded = false) (hfull : p.ingestCapacity ≤ s.forwarder.queue.length) :
    s.dispatch? p = s.heedStop? := by
  have henqueue := (Worker.enqueue?_eq_none_iff (r := r)).2 hfull
  simp only [dispatch?, hphase, hgoing, henqueue, Bool.false_eq_true, if_false]

theorem dispatch?_routing {r : StreamRecord} (hphase : s.phase = .routing r)
    (hgoing : s.router.hasEnded = false) (hroom : s.router.queue.length < p.ingestCapacity) :
    s.dispatch? p = some (s.handOver {
      inbound := s.inbound, phase := .receiving, toRouter := [r] }) := by
  have henqueue := (Worker.enqueue?_eq_some_iff (r := r)).2 ⟨hroom, rfl⟩
  simp only [dispatch?, hphase, hgoing, henqueue, handOver, Worker.feed_nil]
  rfl

/-- Without room before the router, the dispatcher can only take a stop up. -/
theorem dispatch?_routing_full {r : StreamRecord} (hphase : s.phase = .routing r)
    (hgoing : s.router.hasEnded = false) (hfull : p.ingestCapacity ≤ s.router.queue.length) :
    s.dispatch? p = s.heedStop? := by
  have henqueue := (Worker.enqueue?_eq_none_iff (r := r)).2 hfull
  simp only [dispatch?, hphase, hgoing, henqueue, Bool.false_eq_true, if_false]

end State

/-- The dispatcher does this handover, in `s` and wherever it has the same to do and finds no less
room. -/
def State.HandsOver (p : Plan) (s : State) (o : Handover) : Prop :=
  ∀ e, Wired p e → s.SameFront e → e.forwarder.queue.length ≤ s.forwarder.queue.length →
    e.router.queue.length ≤ s.router.queue.length → e.dispatch? p = some (e.handOver o)

/-- It is the step that the dispatcher makes in `s`. -/
theorem State.HandsOver.eq_handOver {o : Handover} (h : s.HandsOver p o) (hw : Wired p s)
    (hstep : s.dispatch? p = some t) : t = s.handOver o := by
  have hsame := h s hw ⟨rfl, rfl, rfl, rfl, rfl⟩ (Nat.le_refl _) (Nat.le_refl _)
  exact Option.some.inj (hstep.symm.trans hsame)

theorem State.heeds_or_handsOver_of_receiving (hphase : s.phase = .receiving)
    (h : s.dispatch? p = some t) : s.heedStop? = some t ∨ ∃ o, s.HandsOver p o := by
  unfold dispatch? at h
  simp only [hphase, Option.orElse_eq_orElse, Option.orElse_eq_or, Option.or_eq_some_iff] at h
  obtain h | ⟨hheed, h | ⟨hempty, h⟩⟩ := h
  · exact .inl h
  · obtain ⟨r, inbound, htake, -⟩ := admit?_eq_some_iff.1 h
    -- a record is taken in
    refine .inr ⟨{
      inbound, phase := if p.passCapacity.isSome then .forwarding r else .routing r, seen := 1 },
      fun e _ hfront _ _ => ?_⟩
    rw [← hfront.inbound] at htake
    exact dispatch?_takeIn (hfront.phase.trans hphase) (hfront.heedStop?_eq_none hheed) htake
  · simp only [Option.ite_none_right_eq_some, Bool.or_eq_true, Bool.not_eq_true'] at h
    -- the queues behind the dispatcher are closed
    have hwaiting := admit?_eq_none_iff.1 hempty
    refine .inr ⟨{ inbound := s.inbound, phase := .draining }, fun e _ hfront _ _ => ?_⟩
    rw [← hfront.inbound, ← hfront.isStopping] at h
    rw [← hfront.inbound] at hwaiting ⊢
    exact dispatch?_close (hfront.phase.trans hphase) (hfront.heedStop?_eq_none hheed) hwaiting h.1

theorem Wired.heeds_or_handsOver_of_forwarding (hw : Wired p s) {r : StreamRecord}
    (hphase : s.phase = .forwarding r) (h : s.dispatch? p = some t) :
    s.heedStop? = some t ∨ ∃ o, s.HandsOver p o := by
  by_cases hroom : s.forwarder.queue.length < p.ingestCapacity
  · refine .inr ⟨{ inbound := s.inbound, phase := .routing r, toForwarder := [r] },
      fun e he hfront hle _ => ?_⟩
    have hphase' := hfront.phase.trans hphase
    rw [← hfront.inbound]
    exact State.dispatch?_forwarding hphase' (he.forwarder_going hphase')
      (Nat.lt_of_le_of_lt hle hroom)
  · have hgoing := hw.forwarder_going hphase
    rw [State.dispatch?_forwarding_full hphase hgoing (Nat.not_lt.1 hroom)] at h
    exact .inl h

theorem Wired.heeds_or_handsOver_of_routing (hw : Wired p s) {r : StreamRecord}
    (hphase : s.phase = .routing r) (h : s.dispatch? p = some t) :
    s.heedStop? = some t ∨ ∃ o, s.HandsOver p o := by
  have hopen : s.phase.isClosed = false := by rw [hphase]; rfl
  by_cases hroom : s.router.queue.length < p.ingestCapacity
  · refine .inr ⟨{ inbound := s.inbound, phase := .receiving, toRouter := [r] },
      fun e he hfront _ hle => ?_⟩
    have hgoing := he.router_going (by rw [hfront.phase]; exact hopen)
    rw [← hfront.inbound]
    exact State.dispatch?_routing (hfront.phase.trans hphase) hgoing (Nat.lt_of_le_of_lt hle hroom)
  · rw [State.dispatch?_routing_full hphase (hw.router_going hopen) (Nat.not_lt.1 hroom)] at h
    exact .inl h

/-- A step of the dispatcher is its last, which it makes when all workers are at their ends, or it
takes a stop up, or it is a handover. -/
theorem Wired.dispatch_cases (hw : Wired p s) (h : s.dispatch? p = some t) :
    s.workersEnded = true ∨
    s.IsStarted ∧ s.phase.isClosed = false ∧ (s.heedStop? = some t ∨ ∃ o, s.HandsOver p o) := by
  unfold State.IsStarted
  cases hphase : s.phase with
  | receiving =>
    exact .inr ⟨⟨nofun, nofun⟩, rfl, State.heeds_or_handsOver_of_receiving hphase h⟩
  | forwarding r =>
    exact .inr ⟨⟨nofun, nofun⟩, rfl, hw.heeds_or_handsOver_of_forwarding hphase h⟩
  | routing r => exact .inr ⟨⟨nofun, nofun⟩, rfl, hw.heeds_or_handsOver_of_routing hphase h⟩
  | draining =>
    simp only [State.dispatch?, hphase, Option.ite_none_right_eq_some] at h
    exact .inl h.1
  | unstarted | finished | discarded =>
    simp only [State.dispatch?, hphase] at h
    cases h

/-- A worker at its end has nothing to do. -/
theorem Worker.EndsOnly.idle {w : Worker} {c : Prop} (h : w.EndsOnly c)
    (hended : w.hasEnded = true) : w.hand = none ∧ ∀ isClosed, w.receive? isClosed = none := by
  obtain ⟨hhand, hqueue⟩ := List.append_eq_nil_iff.1 (h hended).2
  exact ⟨Option.toList_eq_nil_iff.1 hhand, fun _ =>
    Worker.receive?_eq_none_iff.2 ⟨hqueue, fun _ => hended⟩⟩

/-- When all workers are at their ends, nobody goes on but the dispatcher. -/
theorem Wired.eq_dispatcher_of_ended (hw : Wired p s) (hended : s.workersEnded = true) {task : Task}
    (h : step p task s = some t) : task = .dispatcher := by
  obtain ⟨hforwarder, hrouter, hlanes⟩ := State.workersEnded_iff.1 hended
  cases task with
  | dispatcher => rfl
  | forwarder =>
    obtain ⟨hhand, hreceive⟩ := hw.forwarder_end.idle hforwarder
    simp [step, State.forward?, hhand, hreceive] at h
  | router =>
    obtain ⟨hhand, hreceive⟩ := hw.router_end.idle hrouter
    simp [step, State.route?, hhand, hreceive] at h
  | lane index =>
    simp only [step, State.runLane?, Option.bind_eq_bind, Option.bind_eq_some_iff] at h
    obtain ⟨lane, hlane, h⟩ := h
    have hmem := List.mem_of_getElem? hlane
    obtain ⟨hhand, hreceive⟩ := (hw.lane_end lane hmem).idle (hlanes lane hmem)
    simp [hhand, hreceive] at h

/-! ### The dispatcher and the workers -/

/-- A step of a task from `s` to `t` that is made in the same way before and after a step of the
dispatcher, and leaves it the same to do. -/
structure Bypasses (p : Plan) (task : Task) (s t : State) : Prop where
  front : s.SameFront t
  forwarder_le : t.forwarder.queue.length ≤ s.forwarder.queue.length
  router_le : t.router.queue.length ≤ s.router.queue.length
  handOver (o : Handover) (hopen : s.phase.isClosed = false) :
    step p task (s.handOver o) = some (t.handOver o)
  beginStop : step p task s.beginStop = some t.beginStop

theorem State.ne_draining_of_open (hopen : s.phase.isClosed = false) : s.phase ≠ .draining := by
  intro hphase
  rw [hphase] at hopen
  cases hopen

theorem bypasses_forward (h : s.forward? p = some t) : Bypasses p .forwarder s t := by
  obtain ⟨w, passed, n, hsame, hle⟩ := State.exists_forwardsAs h
  obtain rfl := hsame.eq h
  refine ⟨⟨rfl, rfl, rfl, rfl, rfl⟩, hle, Nat.le_refl _, fun o hopen => ?_, ?_⟩
  · exact hsame (s.handOver o) o.toForwarder rfl rfl id
      fun h => absurd h (State.ne_draining_of_open hopen)
  · exact hsame.again rfl rfl (fun _ => rfl) rfl

theorem Wired.bypasses_route (hone : p.laneCount = 1) (hw : Wired p s) {lane : Worker}
    (hlane : s.lanes = [lane]) (h : s.route? p = some t) : Bypasses p .router s t := by
  obtain ⟨w, out, hsame, hle, -⟩ := State.exists_routesAs hone hw hlane h
  obtain rfl := hsame.eq hlane h
  refine ⟨⟨rfl, rfl, rfl, rfl, rfl⟩, Nat.le_refl _, hle, fun o hopen => ?_, ?_⟩
  · exact hsame (s.handOver o) o.toRouter lane rfl hlane (Nat.le_refl _) id
      fun h => absurd h (State.ne_draining_of_open hopen)
  · exact hsame.again rfl hlane (Nat.le_refl _) id rfl

theorem bypasses_runLane {lane : Worker} (hlane : s.lanes = [lane]) (h : s.runLane? p 0 = some t) :
    Bypasses p (.lane 0) s t := by
  obtain ⟨w, alerts, d, hsame, -⟩ := State.exists_runsLaneAs hlane h
  obtain rfl := hsame.eq hlane h
  refine ⟨⟨rfl, rfl, rfl, rfl, rfl⟩, Nat.le_refl _, Nat.le_refl _, fun o hopen => ?_, ?_⟩
  · exact hsame.again hlane rfl id id
  · exact hsame.again hlane rfl (fun _ => rfl) id

/-- There is no other lane than the first. -/
theorem State.index_eq_zero {lane : Worker} (hlane : s.lanes = [lane]) {index : Nat}
    (h : s.runLane? p index = some t) : index = 0 := by
  simp only [State.runLane?, hlane, Option.bind_eq_bind, Option.bind_eq_some_iff] at h
  obtain ⟨lane', hlane', -⟩ := h
  exact Nat.lt_one_iff.1 (List.getElem?_eq_some_iff.1 hlane').1

/-- Every step of a worker bypasses the dispatcher. -/
theorem Wired.bypasses (hone : p.laneCount = 1) (hw : Wired p s) {lane : Worker}
    (hlane : s.lanes = [lane]) {task : Task} (h : step p task s = some t)
    (hne : task ≠ .dispatcher) : Bypasses p task s t := by
  cases task with
  | dispatcher => exact absurd rfl hne
  | forwarder => exact bypasses_forward h
  | router => exact hw.bypasses_route hone hlane h
  | lane index =>
    obtain rfl := State.index_eq_zero hlane h
    exact bypasses_runLane hlane h

end TrustBoundary.Pipeline
