import TrustBoundary.Proofs.Pipeline.Commuting

/-!
# The order of the steps

With a single lane it does not matter in which order the tasks make their steps.  When two tasks can
go on, the states after a step of the one and of the other lead to a common state
(`Wired.joins_of_step`).  As no task goes on forever (`weight_lt_of_step`), all orders come to rest
in one and the same state (`Wired.rest_unique`).  So what becomes of a pipeline is determined by
what the outside does to it, if this is done whenever the tasks rest (`settles_iff`).

The steps of two tasks do not always do the same in both orders: a dispatcher that waits for room
takes a stop up, and one that finds room does not.  Then it does so later (`Wired.joins_beginStop`).
-/

namespace TrustBoundary.Pipeline

variable {p : Plan} {s t u : State}

/-! ### Common states -/

theorem Leads.trans (hst : Leads p s t) (htu : Leads p t u) : Leads p s u := by
  induction hst with
  | refl s => exact htu
  | step h rest ih => exact .step h (ih htu)

theorem Leads.single (task : Task) (h : Pipeline.step p task s = some t) : Leads p s t :=
  .step h (.refl t)

/-- Steps of the tasks lead from both states to a common one. -/
def Joins (p : Plan) (s t : State) : Prop := ∃ u, Leads p s u ∧ Leads p t u

namespace Joins

theorem refl (s : State) : Joins p s s := ⟨s, .refl s, .refl s⟩

theorem symm (h : Joins p s t) : Joins p t s := by
  obtain ⟨u, hs, ht⟩ := h
  exact ⟨u, ht, hs⟩

theorem of_leads (h : Leads p s t) : Joins p s t := ⟨t, h, .refl t⟩

/-- States join that join after a step each. -/
theorem of_step (task task' : Task) {s' t' : State} (hs : step p task s = some s')
    (ht : step p task' t = some t') (h : Joins p s' t') : Joins p s t := by
  obtain ⟨u, hsu, htu⟩ := h
  exact ⟨u, .step hs hsu, .step ht htu⟩

end Joins

/-! ### A stop that is taken up later -/

/-- A stop waits to be taken up. -/
def State.StopWaits (s : State) : Prop :=
  s.isStopping = false ∧ (0 < s.commands ∨ s.hasHandle = false)

theorem State.StopWaits.heedStop? (h : s.StopWaits) : s.heedStop? = some s.beginStop :=
  State.heedStop?_eq_some_iff.2 ⟨h.1, h.2, rfl⟩

theorem State.StopWaits.joins_of_receiving (h : s.StopWaits) (hphase : s.phase = .receiving) :
    Joins p s s.beginStop := by
  have hstep : step p .dispatcher s = some s.beginStop := by
    simp [step, State.dispatch?, hphase, h.heedStop?]
  exact .of_leads (.single .dispatcher hstep)

theorem Wired.joins_of_routing (hw : Wired p s) (h : s.StopWaits) {r : StreamRecord}
    (hphase : s.phase = .routing r) : Joins p s s.beginStop := by
  have hgoing := hw.router_going (by rw [hphase]; rfl)
  by_cases hroom : s.router.queue.length < p.ingestCapacity
  · -- the record goes to the router, with the stop taken up before or afterwards
    let o : Handover := { inbound := s.inbound, phase := .receiving, toRouter := [r] }
    have hstep : s.dispatch? p = some (s.handOver o) :=
      State.dispatch?_routing hphase hgoing hroom
    have hstep' : s.beginStop.dispatch? p = some (s.beginStop.handOver o) :=
      State.dispatch?_routing hphase hgoing hroom
    have hafter : (s.handOver o).StopWaits := h
    exact .of_step .dispatcher .dispatcher hstep hstep' (hafter.joins_of_receiving rfl)
  · have hstep : s.dispatch? p = some s.beginStop :=
      (State.dispatch?_routing_full hphase hgoing (Nat.not_lt.1 hroom)).trans h.heedStop?
    exact .of_leads (.single .dispatcher hstep)

theorem Wired.joins_of_forwarding (hw : Wired p s) (h : s.StopWaits) {r : StreamRecord}
    (hphase : s.phase = .forwarding r) : Joins p s s.beginStop := by
  have hgoing := hw.forwarder_going hphase
  by_cases hroom : s.forwarder.queue.length < p.ingestCapacity
  · -- the record goes to the forwarder, and then the dispatcher has it for the router
    let o : Handover := { inbound := s.inbound, phase := .routing r, toForwarder := [r] }
    have hstep : s.dispatch? p = some (s.handOver o) :=
      State.dispatch?_forwarding hphase hgoing hroom
    have hstep' : s.beginStop.dispatch? p = some (s.beginStop.handOver o) :=
      State.dispatch?_forwarding hphase hgoing hroom
    have hafter : (s.handOver o).StopWaits := h
    have hwo : Wired p (s.handOver o) := hw.move (hw.move_of_dispatch hstep)
    exact .of_step .dispatcher .dispatcher hstep hstep' (hwo.joins_of_routing hafter rfl)
  · have hstep : s.dispatch? p = some s.beginStop :=
      (State.dispatch?_forwarding_full hphase hgoing (Nat.not_lt.1 hroom)).trans h.heedStop?
    exact .of_leads (.single .dispatcher hstep)

/-- A pipeline in which a stop waits joins the one in which it is taken up, even if the dispatcher
has room for the record that it holds and hands it on first. -/
theorem Wired.joins_beginStop (hw : Wired p s) (hs : s.IsStarted)
    (hopen : s.phase.isClosed = false) (h : s.StopWaits) : Joins p s s.beginStop := by
  cases hphase : s.phase with
  | receiving => exact h.joins_of_receiving hphase
  | routing r => exact hw.joins_of_routing h hphase
  | forwarding r => exact hw.joins_of_forwarding h hphase
  | unstarted => exact absurd hphase hs.1
  | discarded => exact absurd hphase hs.2
  | draining | finished =>
    rw [hphase] at hopen
    cases hopen

/-! ### Joining two steps -/

/-- The dispatcher and a task that bypasses it. -/
theorem Wired.joins_dispatch (hw : Wired p s) {task : Task} (hstep : step p task s = some t)
    (hb : Bypasses p task s t) (hdispatch : s.dispatch? p = some u) (hne : task ≠ .dispatcher) :
    Joins p t u := by
  have hwt : Wired p t := hw.move (hw.move_of_step hstep)
  obtain hended | ⟨hs, hopen, hheed | ⟨o, ho⟩⟩ := hw.dispatch_cases hdispatch
  · exact absurd (hw.eq_dispatcher_of_ended hended hstep) hne
  · -- there may be room now for what the dispatcher holds, and then it takes the stop up later
    obtain ⟨hgoing, hstop, rfl⟩ := State.heedStop?_eq_some_iff.1 hheed
    have hlater : Joins p t t.beginStop := by
      apply hwt.joins_beginStop
      · rwa [State.IsStarted, hb.front.phase]
      · rwa [hb.front.phase]
      · rw [State.StopWaits, hb.front.isStopping, hb.front.commands, hb.front.hasHandle]
        exact ⟨hgoing, hstop⟩
    obtain ⟨v, htv, hv⟩ := hlater
    exact ⟨v, htv, .step hb.beginStop hv⟩
  · -- a handover and the step of the worker can be made in either order
    obtain rfl := ho.eq_handOver hw hdispatch
    have hafter : step p .dispatcher t = some (t.handOver o) :=
      ho t hwt hb.front hb.forwarder_le hb.router_le
    exact .of_step .dispatcher task hafter (hb.handOver o hopen) (.refl _)

theorem Wired.exists_lane (hone : p.laneCount = 1) (hw : Wired p s) : ∃ lane, s.lanes = [lane] :=
  List.length_eq_one_iff.1 (hw.length_lanes.trans hone)

/-- The forwarder and the router. -/
theorem Wired.joins_forward_route (hone : p.laneCount = 1) (hw : Wired p s) {lane : Worker}
    (hlane : s.lanes = [lane]) (hf : s.forward? p = some t) (hr : s.route? p = some u) :
    Joins p t u := by
  obtain ⟨w, passed, n, hforward, -⟩ := State.exists_forwardsAs hf
  obtain ⟨w', out, hroute, -⟩ := State.exists_routesAs hone hw hlane hr
  obtain rfl := hforward.eq hf
  obtain rfl := hroute.eq hlane hr
  exact .of_step .router .forwarder
    (hroute.again rfl hlane (Nat.le_refl _) id rfl) (hforward.again rfl rfl id rfl) (.refl _)

/-- The forwarder and the lane. -/
theorem joins_forward_runLane {lane : Worker} (hlane : s.lanes = [lane])
    (hf : s.forward? p = some t) (hl : s.runLane? p 0 = some u) : Joins p t u := by
  obtain ⟨w, passed, n, hforward, -⟩ := State.exists_forwardsAs hf
  obtain ⟨w', alerts, d, hrun, -⟩ := State.exists_runsLaneAs hlane hl
  obtain rfl := hforward.eq hf
  obtain rfl := hrun.eq hlane hl
  exact .of_step (.lane 0) .forwarder
    (hrun.again hlane rfl id id) (hforward.again rfl rfl id rfl) (.refl _)

/-- The router and the lane.  What the router hands on comes last in the queue of the lane, which
has no less room after its step. -/
theorem Wired.joins_route_runLane (hone : p.laneCount = 1) (hw : Wired p s) {lane : Worker}
    (hlane : s.lanes = [lane]) (hr : s.route? p = some t) (hl : s.runLane? p 0 = some u) :
    Joins p t u := by
  obtain ⟨w, out, hroute, -, hgoing⟩ := State.exists_routesAs hone hw hlane hr
  obtain ⟨w', alerts, d, hrun, hle⟩ := State.exists_runsLaneAs hlane hl
  have hwu : Wired p u := hw.move (Wired.move_of_runLane hl)
  obtain rfl := hroute.eq hlane hr
  obtain rfl := hrun.eq hlane hl
  -- a lane does not end before the router
  have hlanegoing : w'.hasEnded = false := by
    cases hended : w'.hasEnded with
    | false => rfl
    | true =>
      have hrouter := (hwu.lane_end w' (List.mem_singleton_self w') hended).1
      exact absurd (hgoing.symm.trans hrouter) nofun
  exact .of_step (.lane 0) .router
    (hrun _ out rfl rfl id fun h => absurd (hgoing.symm.trans h) nofun)
    (hroute.again rfl rfl hle (fun _ => hlanegoing) rfl) (.refl _)

/-- Steps of any two tasks lead to a common state. -/
theorem Wired.joins_of_step (hone : p.laneCount = 1) (hw : Wired p s) {task task' : Task}
    (ht : step p task s = some t) (hu : step p task' s = some u) : Joins p t u := by
  obtain ⟨lane, hlane⟩ := hw.exists_lane hone
  by_cases hsame : task = task'
  · subst hsame
    obtain rfl := Option.some.inj (ht.symm.trans hu)
    exact .refl t
  -- a worker against the dispatcher, and then the workers among themselves
  have hdispatch {task : Task} {t u : State} (ht : step p task s = some t)
      (hu : s.dispatch? p = some u) (hne : task ≠ .dispatcher) : Joins p t u :=
    hw.joins_dispatch ht (hw.bypasses hone hlane ht hne) hu hne
  cases task with
  | dispatcher => exact (hdispatch hu ht (Ne.symm hsame)).symm
  | forwarder =>
    cases task' with
    | dispatcher => exact hdispatch ht hu hsame
    | forwarder => exact absurd rfl hsame
    | router => exact hw.joins_forward_route hone hlane ht hu
    | lane index =>
      obtain rfl := State.index_eq_zero hlane hu
      exact joins_forward_runLane hlane ht hu
  | router =>
    cases task' with
    | dispatcher => exact hdispatch ht hu hsame
    | forwarder => exact (hw.joins_forward_route hone hlane hu ht).symm
    | router => exact absurd rfl hsame
    | lane index =>
      obtain rfl := State.index_eq_zero hlane hu
      exact hw.joins_route_runLane hone hlane ht hu
  | lane index =>
    obtain rfl := State.index_eq_zero hlane ht
    cases task' with
    | dispatcher => exact hdispatch ht hu hsame
    | forwarder => exact (joins_forward_runLane hlane hu ht).symm
    | router => exact (hw.joins_route_runLane hone hlane hu ht).symm
    | lane index =>
      obtain rfl := State.index_eq_zero hlane hu
      exact absurd rfl hsame

/-! ### Coming to rest -/

/-- Whatever steps the tasks make, there is a common state to which more of them lead. -/
theorem Wired.joins_of_leads (hone : p.laneCount = 1) (hw : Wired p s) (ht : Leads p s t)
    (hu : Leads p s u) : Joins p t u := by
  -- the first steps are joined, and behind each of them the weight is smaller
  induction hn : s.weight using Nat.strongRecOn generalizing s t u with
  | _ n ih =>
    subst hn
    cases ht with
    | refl => exact .of_leads hu
    | @step task _ t' _ hst htt =>
      cases hu with
      | refl => exact (Joins.of_leads (.step hst htt)).symm
      | @step task' _ u' _ hsu huu =>
        obtain ⟨v, htv, huv⟩ := hw.joins_of_step hone hst hsu
        have hwt := hw.move (hw.move_of_step hst)
        have hwu := hw.move (hw.move_of_step hsu)
        -- from `t'` it goes on to `t` and to `v`, and from `u'` to `u` and to where these two meet
        obtain ⟨x, htx, hvx⟩ := ih _ (weight_lt_of_step hst) hwt htt htv rfl
        obtain ⟨y, huy, hxy⟩ := ih _ (weight_lt_of_step hsu) hwu huu (huv.trans hvx) rfl
        exact ⟨y, htx.trans hxy, huy⟩

/-- From rest no steps lead to anywhere else. -/
theorem Wired.eq_of_leads (hw : Wired p s) (hrest : isAtRest p s = true) (h : Leads p s t) :
    t = s := by
  cases h with
  | refl => rfl
  | @step task _ _ _ hstep _ =>
    rw [hw.step_eq_none hrest task] at hstep
    cases hstep

theorem Wired.leads (hw : Wired p s) (h : Leads p s t) : Wired p t := by
  induction h with
  | refl s => exact hw
  | step hstep rest ih => exact ih (hw.move (hw.move_of_step hstep))

/-- All orders of steps come to rest in the same state. -/
theorem Wired.rest_unique (hone : p.laneCount = 1) (hw : Wired p s) (ht : Leads p s t)
    (hu : Leads p s u) (hrest : isAtRest p t = true) (hrest' : isAtRest p u = true) : t = u := by
  obtain ⟨v, htv, huv⟩ := hw.joins_of_leads hone ht hu
  rw [← (hw.leads ht).eq_of_leads hrest htv, (hw.leads hu).eq_of_leads hrest' huv]

/-! ### Runs that settle -/

/-- Some actions lead from one state to another, where after each of them the tasks make steps, in
any order, until none can go on. -/
inductive Settles (p : Plan) : State → List Action → State → Prop
  | nil (s : State) : Settles p s [] s
  | cons {s t u : State} {a : Action} {actions : List Action} (hleads : Leads p (act p s a) t)
      (hrest : isAtRest p t = true) (rest : Settles p t actions u) : Settles p s (a :: actions) u

theorem Wired.settles_unique (hone : p.laneCount = 1) (hw : Wired p s) {actions : List Action}
    (ht : Settles p s actions t) (hu : Settles p s actions u) : t = u := by
  induction ht with
  | nil s =>
    cases hu
    rfl
  | @cons s t' t a actions hleads hrest rest ih =>
    cases hu with
    | @cons _ u' _ _ _ hleads' hrest' rest' =>
      have hwa : Wired p (act p s a) := hw.touch (touch_act p s a)
      obtain rfl := hwa.rest_unique hone hleads hleads' hrest hrest'
      exact ih (hwa.leads hleads) rest'

/-- A run settles after each of its actions. -/
theorem settles_run (p : Plan) (r : Run) (actions : List Action) :
    Settles p r.state actions (actions.foldl (Run.act p) r).state := by
  induction actions generalizing r with
  | nil => exact .nil r.state
  | cons a actions ih =>
    have hleads := Run.leads_settle p ⟨act p r.state a, r.line⟩
    exact .cons hleads (Run.isAtRest_settle p _) (ih (r.act p a))

/-- With a single lane, whatever the outside does to a pipeline, the tasks come to rest in just one
state, in whatever order they go on after each action: in the state of the run. -/
theorem settles_iff (p : Plan) (hone : p.settings.lanes = 1) (actions : List Action) (s : State) :
    Settles p (.initial p) actions s ↔
      s = (actions.foldl (Run.act p) { state := .initial p }).state := by
  have hcount : p.laneCount = 1 := by
    rw [Plan.laneCount, hone]
    rfl
  have hrun := settles_run p { state := .initial p } actions
  constructor
  · intro h
    exact (Wired.initial p).settles_unique hcount h hrun
  · rintro rfl
    exact hrun

/-- Steps lead to the state after them; a task that cannot go on makes none. -/
theorem leads_after (s : State) {events : List Event} (h : ∀ e ∈ events, ∃ task, e = .step task) :
    Leads p s (s.after p events) := by
  induction events generalizing s with
  | nil => exact .refl s
  | cons e events ih =>
    obtain ⟨task, rfl⟩ := h e List.mem_cons_self
    have hrest := ih (s.next p (.step task)) fun e he => h e (List.mem_cons_of_mem _ he)
    show Leads p s ((s.next p (.step task)).after p events)
    unfold State.next at hrest ⊢
    dsimp only at hrest ⊢
    cases hstep : step p task s with
    | none =>
      rw [hstep] at hrest
      exact hrest
    | some t =>
      rw [hstep] at hrest
      exact .step hstep hrest

/-- The state in which every task has had ten turns after an action. -/
def State.afterTurns (p : Plan) (s : State) (a : Action) : State :=
  (act p s a).after p (p.turns ++ p.turns)

theorem leads_afterTurns (p : Plan) (s : State) (a : Action) :
    Leads p (act p s a) (s.afterTurns p a) := by
  apply leads_after
  intro e he
  have hmem : e ∈ p.turns := (List.mem_append.1 he).elim id id
  obtain ⟨l, hl, he⟩ := List.mem_flatten.1 hmem
  rw [List.eq_of_mem_replicate hl] at he
  obtain ⟨task, -, rfl⟩ := List.mem_map.1 he
  exact ⟨task, rfl⟩

/-- The tasks need no more turns if they rest after them. -/
theorem settles_afterTurns {actions : List Action} (h : ∀ n < actions.length,
      isAtRest p ((actions.take (n + 1)).foldl (State.afterTurns p) s) = true) :
    Settles p s actions (actions.foldl (State.afterTurns p) s) := by
  induction actions generalizing s with
  | nil => exact .nil s
  | cons a actions ih =>
    refine .cons (leads_afterTurns p s a) (h 0 (Nat.succ_pos _)) (ih fun n hn => ?_)
    exact h (n + 1) (Nat.succ_lt_succ hn)

/-- The pipeline is given two records that raise alerts, and then it is stopped.  There is room for
one alert and for one record that is passed on. -/
def stoppedBusy : List Action := [.start, .send largeAmount, .send largeAmount, .stop]

theorem settles_iff_stoppedBusy :
    (Plan.narrowPassing 1).settings.lanes = 1 ∧
    ∀ s, Settles (.narrowPassing 1) (.initial (.narrowPassing 1)) stoppedBusy s →
      s.phase = .finished ∧
      s.totals = { seen := 2, scored := 2, emitted := 1, abandoned := 1, forwarded := 1 } := by
  have hone : (Plan.narrowPassing 1).settings.lanes = 1 := rfl
  have hturns : Settles (.narrowPassing 1) (.initial (.narrowPassing 1)) stoppedBusy _ :=
    settles_afterTurns (by decide +kernel)
  refine ⟨hone, fun s hs => ?_⟩
  rw [settles_iff _ hone] at hs hturns
  rw [hs, ← hturns]
  exact ⟨by decide +kernel, by decide +kernel⟩

end TrustBoundary.Pipeline
