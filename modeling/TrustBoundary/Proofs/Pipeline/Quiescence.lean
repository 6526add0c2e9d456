import TrustBoundary.Proofs.Pipeline.Ending

/-!
# Quiescence

A pipeline without actions comes to rest (`length_steps_le`).  A started pipeline at rest has come
to its end, or it has nothing to do, or it waits for a consumer that is there but does not take what
is put out for it (`Wired.rest_cases`); in no other way do tasks wait for each other.  All this is
gathered in `quiescence`.
-/

namespace TrustBoundary.Pipeline

variable {p : Plan} {s s' : State}

/-- The pipeline was started. -/
def State.IsStarted (s : State) : Prop := s.phase ≠ .unstarted ∧ s.phase ≠ .discarded

/-- The pipeline is open for records, and there is none in it. -/
structure State.IsIdle (s : State) : Prop where
  receiving : s.phase = .receiving
  going : s.isStopping = false
  isOpen : s.inbound.isOpen = true
  inbound : s.inbound.waiting = []
  forwarder : s.forwarder.content = []
  router : s.router.content = []
  lanes : ∀ w ∈ s.lanes, w.content = []

/-- A lane waits for room among the alerts, and their consumer is there. -/
def State.WaitsForAlerts (p : Plan) (s : State) : Prop :=
  s.alerts.isOpen = true ∧ s.alerts.hasRoom p.alertCapacity = false ∧
    ∃ w ∈ s.lanes, ∃ r a, w.hand = some r ∧ p.alertFor? r = some a

/-- The forwarder waits for room in the channel of the pass-through consumer, who is there. -/
def State.WaitsForPassed (p : Plan) (s : State) : Prop :=
  s.passed.isOpen = true ∧ (∃ n, p.passCapacity = some n ∧ s.passed.hasRoom n = false) ∧
    ∃ r, s.forwarder.hand = some r

/-! ### Steps without actions -/

/-- There are no more steps in a row than the weight tells. -/
theorem length_steps_le {f : Nat → State} {n : Nat}
    (h : ∀ i < n, ∃ t, step p t (f i) = some (f (i + 1))) : n ≤ (f 0).weight := by
  -- every step takes one from the weight at least
  suffices hsum : ∀ i ≤ n, i + (f i).weight ≤ (f 0).weight by
    have hlast := hsum n (Nat.le_refl n)
    omega
  intro i hi
  induction i with
  | zero => exact Nat.le_of_eq (Nat.zero_add _)
  | succ i ih =>
    obtain ⟨t, hstep⟩ := h i hi
    have hlt := weight_lt_of_step hstep
    have hprev := ih (Nat.le_of_lt hi)
    omega

/-! ### Tasks that cannot go on -/

theorem Worker.receive?_eq_none_iff {w : Worker} {isClosed : Bool} :
    w.receive? isClosed = none ↔ w.queue = [] ∧ (isClosed = true → w.hasEnded = true) := by
  unfold receive?
  cases w.queue <;> cases isClosed <;> cases w.hasEnded <;> simp

theorem Worker.enqueue?_eq_none_iff {w : Worker} {capacity : Nat} {r : StreamRecord} :
    w.enqueue? capacity r = none ↔ capacity ≤ w.queue.length := by
  simp [enqueue?]

theorem Worker.content_eq_nil {w : Worker} (hhand : w.hand = none) (hqueue : w.queue = []) :
    w.content = [] := by
  rw [content, hhand, hqueue]
  rfl

/-- A worker behind a full queue has a record. -/
theorem Worker.content_ne_nil {w : Worker} {capacity : Nat} (hpos : 0 < capacity)
    (hfull : capacity ≤ w.queue.length) : w.content ≠ [] := by
  intro hnil
  have hqueue := (List.append_eq_nil_iff.1 hnil).2
  rw [hqueue] at hfull
  exact absurd hpos (Nat.not_lt_of_le hfull)

/-- Why the dispatcher of a started pipeline cannot go on. -/
theorem State.of_dispatch?_eq_none (hs : s.IsStarted) (h : s.dispatch? p = none) :
    s.phase = .finished ∨
    (s.phase = .draining ∧ s.workersEnded = false) ∨
    s.heedStop? = none ∧
      (s.phase = .receiving ∧ s.isStopping = false ∧ s.inbound.isOpen = true ∧
          s.inbound.waiting = [] ∨
        (∃ r, s.phase = .forwarding r) ∧ p.ingestCapacity ≤ s.forwarder.queue.length ∨
        (∃ r, s.phase = .routing r) ∧ p.ingestCapacity ≤ s.router.queue.length) := by
  unfold dispatch? at h
  cases hphase : s.phase with
  | unstarted => exact absurd hphase hs.1
  | discarded => exact absurd hphase hs.2
  | finished => exact .inl rfl
  | receiving =>
    -- nothing was chosen of stopping, taking in and closing
    rw [hphase] at h
    simp only [Option.orElse_eq_orElse, Option.orElse_eq_or, Option.or_eq_none_iff] at h
    obtain ⟨hheed, hempty, hclose⟩ := h
    have hgoing : ¬ (s.isStopping || !s.inbound.isOpen) = true := by
      intro hclosed
      rw [if_pos hclosed] at hclose
      cases hclose
    simp only [Bool.or_eq_true, Bool.not_eq_true', not_or, Bool.not_eq_true,
      Bool.not_eq_false] at hgoing
    have hwaiting := admit?_eq_none_iff.1 hempty
    exact .inr (.inr ⟨hheed, .inl ⟨rfl, hgoing.1, hgoing.2, hwaiting⟩⟩)
  | forwarding r =>
    simp only [hphase] at h
    -- a forwarder that has ended does not keep the dispatcher, so it is one with a full queue
    split at h
    · cases h
    split at h
    · cases h
    · rename_i hfull
      exact .inr (.inr ⟨h, .inr (.inl ⟨⟨r, rfl⟩, Worker.enqueue?_eq_none_iff.1 hfull⟩)⟩)
  | routing r =>
    simp only [hphase] at h
    -- the same with the router
    split at h
    · cases h
    split at h
    · cases h
    · rename_i hfull
      exact .inr (.inr ⟨h, .inr (.inr ⟨⟨r, rfl⟩, Worker.enqueue?_eq_none_iff.1 hfull⟩)⟩)
  | draining =>
    refine .inr (.inl ⟨rfl, ?_⟩)
    cases hended : s.workersEnded with
    | false => rfl
    | true =>
      simp only [hphase, hended] at h
      cases h

/-- Why the forwarder cannot go on. -/
theorem Wired.of_forward?_eq_none (hw : Wired p s) (h : s.forward? p = none) :
    (s.forwarder.content = [] ∧ (s.phase = .draining → s.forwarder.hasEnded = true)) ∨
    s.isStopping = false ∧ s.WaitsForPassed p := by
  unfold State.forward? at h
  cases hhand : s.forwarder.hand with
  | none =>
    rw [hhand] at h
    obtain ⟨hqueue, hended⟩ := Worker.receive?_eq_none_iff.1 (Option.map_eq_none_iff.1 h)
    exact .inl ⟨Worker.content_eq_nil hhand hqueue, fun hphase => hended (decide_eq_true hphase)⟩
  | some r =>
    rw [hhand] at h
    cases hdeliver : s.passed.deliver? (p.passCapacity.getD 0) s.isStopping r with
    | some delivered =>
      simp only [hdeliver] at h
      cases h
    | none =>
      -- a delivery is refused only by a full channel whose consumer is there
      obtain ⟨hopen, hfull, hgoing⟩ := Channel.deliver?_eq_none_iff.1 hdeliver
      obtain ⟨n, hn⟩ := Option.isSome_iff_exists.1 (hw.isSome_of_hand hhand)
      rw [hn] at hfull
      exact .inr ⟨hgoing, hopen, ⟨n, hn, hfull⟩, r, hhand⟩

/-- Why the router cannot go on. -/
theorem State.of_route?_eq_none (h : s.route? p = none) :
    (s.router.content = [] ∧ (s.phase = .draining → s.router.hasEnded = true)) ∨
    ∃ w ∈ s.lanes, p.laneCapacity ≤ w.queue.length := by
  unfold route? at h
  cases hhand : s.router.hand with
  | none =>
    rw [hhand] at h
    obtain ⟨hqueue, hended⟩ := Worker.receive?_eq_none_iff.1 (Option.map_eq_none_iff.1 h)
    exact .inl ⟨Worker.content_eq_nil hhand hqueue, fun hphase => hended (decide_eq_true hphase)⟩
  | some r =>
    simp only [hhand] at h
    -- a lane that is missing or has ended does not keep the router
    split at h
    · cases h
    · rename_i lane hlane
      split at h
      · cases h
      · have hfull := Worker.enqueue?_eq_none_iff.1 (Option.map_eq_none_iff.1 h)
        exact .inr ⟨lane, List.mem_of_getElem? hlane, hfull⟩

theorem State.score?_eq_none_iff {r : StreamRecord} : s.score? p r = none ↔
    ∃ a, p.alertFor? r = some a ∧
      s.alerts.deliver? p.alertCapacity s.isStopping a = none := by
  unfold score? Plan.alertFor?
  cases p.scorer.score r with
  | noAlert | dropped => simp
  | alert a =>
    cases hdeliver : s.alerts.deliver? p.alertCapacity s.isStopping (alertRecord p r a) <;>
      simp [hdeliver]

/-- Why a lane cannot go on. -/
theorem State.of_runLane?_eq_none {index : Nat} {w : Worker} (hlane : s.lanes[index]? = some w)
    (h : s.runLane? p index = none) :
    (w.content = [] ∧ (s.router.hasEnded = true → w.hasEnded = true)) ∨
    s.isStopping = false ∧ s.WaitsForAlerts p := by
  unfold runLane? at h
  rw [hlane] at h
  cases hhand : w.hand with
  | none =>
    cases hreceive : w.receive? s.router.hasEnded with
    | some w' =>
      simp [hhand, hreceive] at h
    | none =>
      obtain ⟨hqueue, hended⟩ := Worker.receive?_eq_none_iff.1 hreceive
      exact .inl ⟨Worker.content_eq_nil hhand hqueue, hended⟩
  | some r =>
    cases hscore : s.score? p r with
    | some s' =>
      simp [hhand, hscore] at h
    | none =>
      obtain ⟨a, halert, hdeliver⟩ := score?_eq_none_iff.1 hscore
      obtain ⟨hopen, hfull, hgoing⟩ := Channel.deliver?_eq_none_iff.1 hdeliver
      exact .inr ⟨hgoing, hopen, hfull, w, List.mem_of_getElem? hlane, r, a, hhand, halert⟩

/-! ### Rest -/

/-- At rest no task can make a step, and there are no other tasks than those of the plan. -/
theorem Wired.step_eq_none (hw : Wired p s) (hrest : isAtRest p s = true) (t : Task) :
    step p t s = none := by
  have hall : ∀ t ∈ p.tasks, step p t s = none := by
    simpa only [isAtRest, List.all_eq_true, Option.isNone_iff_eq_none] using hrest
  cases t with
  | dispatcher | forwarder | router => exact hall _ (by simp [Plan.tasks])
  | lane index =>
    by_cases hlt : index < p.laneCount
    · exact hall _ (by simp [Plan.tasks, hlt])
    · -- there are no lanes beyond those of the plan
      have hnone : s.lanes[index]? = none := by
        rw [List.getElem?_eq_none_iff, hw.length_lanes]
        exact Nat.le_of_not_lt hlt
      show s.runLane? p index = none
      rw [State.runLane?, hnone]
      rfl

/-- At rest the forwarder has no records, unless it waits for its consumer. -/
theorem Wired.forwarder_of_rest (hw : Wired p s) (hrest : isAtRest p s = true)
    (hwait : ¬ (s.isStopping = false ∧ s.WaitsForPassed p)) :
    s.forwarder.content = [] ∧ (s.phase = .draining → s.forwarder.hasEnded = true) :=
  (hw.of_forward?_eq_none (hw.step_eq_none hrest .forwarder)).resolve_right hwait

/-- At rest the lanes have no records, unless one of them waits for the consumer of the alerts. -/
theorem Wired.lane_of_rest (hw : Wired p s) (hrest : isAtRest p s = true)
    (hwait : ¬ (s.isStopping = false ∧ s.WaitsForAlerts p)) {w : Worker} (hmem : w ∈ s.lanes) :
    w.content = [] ∧ (s.router.hasEnded = true → w.hasEnded = true) := by
  obtain ⟨index, hlane⟩ := List.mem_iff_getElem?.1 hmem
  have hstep := hw.step_eq_none hrest (.lane index)
  exact (State.of_runLane?_eq_none hlane hstep).resolve_right hwait

/-- Whenever no lane waits for the consumer of the alerts, the router has no records either. -/
theorem Wired.router_of_rest (hw : Wired p s) (hrest : isAtRest p s = true)
    (hwait : ¬ (s.isStopping = false ∧ s.WaitsForAlerts p)) :
    s.router.content = [] ∧ (s.phase = .draining → s.router.hasEnded = true) := by
  refine (State.of_route?_eq_none (hw.step_eq_none hrest .router)).resolve_right ?_
  rintro ⟨w, hmem, hfull⟩
  -- a full lane has records, because its queue has room for one at least
  exact Worker.content_ne_nil p.laneCapacity_pos hfull (hw.lane_of_rest hrest hwait hmem).1

/-- A started pipeline at rest has come to its end, or it is idle, or it waits for a consumer. -/
theorem Wired.rest_cases (hw : Wired p s) (hs : s.IsStarted) (hrest : isAtRest p s = true) :
    s.phase = .finished ∨ s.IsIdle ∨
      s.isStopping = false ∧ (s.WaitsForAlerts p ∨ s.WaitsForPassed p) := by
  by_cases hwait : s.isStopping = false ∧ (s.WaitsForAlerts p ∨ s.WaitsForPassed p)
  · exact .inr (.inr hwait)
  have hforwarder := hw.forwarder_of_rest hrest fun h => hwait ⟨h.1, .inr h.2⟩
  have hrouter := hw.router_of_rest hrest fun h => hwait ⟨h.1, .inl h.2⟩
  have hlanes : ∀ w ∈ s.lanes,
      w.content = [] ∧ (s.router.hasEnded = true → w.hasEnded = true) :=
    fun w => hw.lane_of_rest hrest fun h => hwait ⟨h.1, .inl h.2⟩
  have hstep : s.dispatch? p = none := hw.step_eq_none hrest .dispatcher
  obtain hphase | ⟨hphase, hended⟩ | ⟨-, h⟩ := State.of_dispatch?_eq_none hs hstep
  · exact .inl hphase
  · -- one worker ends after the other, and the dispatcher behind them all
    have hall : s.workersEnded = true :=
      State.workersEnded_iff.2 ⟨hforwarder.2 hphase, hrouter.2 hphase,
        fun w hmem => (hlanes w hmem).2 (hrouter.2 hphase)⟩
    exact absurd (hall.symm.trans hended) nofun
  obtain ⟨hphase, hgoing, hopen, hwaiting⟩ | ⟨-, hfull⟩ | ⟨-, hfull⟩ := h
  · exact .inr (.inl ⟨hphase, hgoing, hopen, hwaiting, hforwarder.1, hrouter.1,
      fun w hmem => (hlanes w hmem).1⟩)
  · -- the dispatcher waits for no queue, because the workers have emptied theirs
    exact absurd hforwarder.1 (Worker.content_ne_nil p.ingestCapacity_pos hfull)
  · exact absurd hrouter.1 (Worker.content_ne_nil p.ingestCapacity_pos hfull)

/-! ### Later on -/

/-- A stop that was taken up is not taken back. -/
theorem Wired.isStopping_after (hw : Wired p s) (hstopping : s.isStopping = true)
    (events : List Event) : (s.after p events).isStopping = true := by
  refine hw.after_induction (motive := fun s => s.isStopping = true) hstopping ?_ ?_
  · intro s a s' _ _ hs h
    cases h <;> exact hs
  · intro s s' _ hs h
    cases h with
    | heedStop => rfl
    | _ => exact hs

/-- A pipeline that was started stays so. -/
theorem Wired.isStarted_after (hw : Wired p s) (hstarted : s.IsStarted) (events : List Event) :
    (s.after p events).IsStarted := by
  refine hw.after_induction (motive := State.IsStarted) hstarted ?_ ?_
  · intro s a s' _ _ hs h
    cases h with
    | start hphase | discard hphase => exact absurd hphase hs.1
    | _ => exact hs
  · intro s s' _ hs h
    cases h with
    | takeIn hphase hheed htake =>
      show _ ∧ _
      cases p.passCapacity <;> exact ⟨nofun, nofun⟩
    | close | handToForwarder | handToRouter | finish => exact ⟨nofun, nofun⟩
    | _ => exact hs

/-- Of every pipeline, at all times: without actions there are only so many more steps.  When a
started pipeline rests, it has come to its end, or it is idle, or it waits for a consumer that is
there, and the last only as long as it is not stopping.  A consumer that is gone keeps no record
waiting. -/
theorem quiescence (p : Plan) (history : List Event) :
    let s := p.after history
    (∀ (f : Nat → State) (n : Nat), f 0 = s →
      (∀ i < n, ∃ t, step p t (f i) = some (f (i + 1))) → n ≤ s.weight) ∧
    (s.IsStarted → isAtRest p s = true →
      s.phase = .finished ∨ s.IsIdle ∨
        s.isStopping = false ∧ (s.WaitsForAlerts p ∨ s.WaitsForPassed p)) ∧
    (s.IsStarted → s.isStopping = true → ∀ events,
      isAtRest p (p.after (history ++ events)) = true →
        (p.after (history ++ events)).phase = .finished) ∧
    (isAtRest p s = true → s.alerts.isOpen = false →
      s.router.content = [] ∧ ∀ w ∈ s.lanes, w.content = []) ∧
    (isAtRest p s = true → s.passed.isOpen = false → s.forwarder.content = []) := by
  intro s
  have hw : Wired p s := wired_after p history
  refine ⟨?_, hw.rest_cases, ?_, ?_, ?_⟩
  · intro f n hf hsteps
    rw [← hf]
    exact length_steps_le hsteps
  · -- the stop is not taken back, and both other ways to rest need that none was taken up
    intro hstarted hstopping events hrest
    rw [p.after_append] at hrest ⊢
    have hlater := hw.isStopping_after hstopping events
    obtain hphase | hidle | ⟨hgoing, -⟩ :=
      (hw.after events).rest_cases (hw.isStarted_after hstarted events) hrest
    · exact hphase
    · exact absurd (hlater.symm.trans hidle.going) nofun
    · exact absurd (hlater.symm.trans hgoing) nofun
  · intro hrest hgone
    have hwait : ¬ (s.isStopping = false ∧ s.WaitsForAlerts p) :=
      fun h => absurd (h.2.1.symm.trans hgone) nofun
    exact ⟨(hw.router_of_rest hrest hwait).1, fun w hmem => (hw.lane_of_rest hrest hwait hmem).1⟩
  · intro hrest hgone
    have hwait : ¬ (s.isStopping = false ∧ s.WaitsForPassed p) :=
      fun h => absurd (h.2.1.symm.trans hgone) nofun
    exact (hw.forwarder_of_rest hrest hwait).1

theorem quiescence_twoAlerts :
    isAtRest .narrow (Plan.narrow.after twoAlerts) = true ∧
    (Plan.narrow.after twoAlerts).phase = .draining ∧
    (Plan.narrow.after twoAlerts).WaitsForAlerts .narrow := by
  have hphase : (Plan.narrow.after twoAlerts).phase = .draining := by decide +kernel
  have hrest : isAtRest .narrow (Plan.narrow.after twoAlerts) = true := by decide +kernel
  refine ⟨hrest, hphase, ?_⟩
  obtain ⟨-, hcases, -⟩ := quiescence .narrow twoAlerts
  obtain hfinished | hidle | ⟨-, halerts | hpassed⟩ :=
    hcases ⟨by decide +kernel, by decide +kernel⟩ hrest
  · exact absurd (hphase.symm.trans hfinished) (by decide)
  · exact absurd (hphase.symm.trans hidle.receiving) (by decide)
  · exact halerts
  · obtain ⟨-, ⟨n, hn, -⟩, -⟩ := hpassed
    cases hn

end TrustBoundary.Pipeline
