import TrustBoundary.Pipeline.Step

/-!
# Rest

Whichever tasks step, they come to rest, because every step makes `State.weight` smaller
(`weight_lt_of_step`): the weight counts the steps that all records can still make.
-/

namespace TrustBoundary.Pipeline

/-! ### Weights -/

/-- How many steps a worker can still make, its end among them: a record makes `queued` steps in the
queue and `held` in the hand. -/
def Worker.weight (queued held : Nat) (w : Worker) : Nat :=
  queued * w.queue.length + held * w.hand.toList.length + (!w.hasEnded).toNat

/-- How many steps the dispatcher can still make for what it is at. -/
def Phase.weight : Phase → Nat
  | unstarted | finished | discarded => 0
  | receiving => 2
  | forwarding _ => 10
  | routing _ => 7
  | draining => 1

/-- How many steps the lanes can still make. -/
def lanesWeight : List Worker → Nat
  | [] => 0
  | w :: lanes => w.weight 2 1 + lanesWeight lanes

/-- How many steps the pipeline can still make. -/
def State.weight (s : State) : Nat :=
  (if s.isStopping then 0 else 1) + s.phase.weight + 9 * s.inbound.waiting.length +
    s.forwarder.weight 2 1 + s.router.weight 4 3 + lanesWeight s.lanes

theorem Worker.weight_receive {w w' : Worker} {isClosed : Bool} (queued held : Nat)
    (hlt : held < queued) (hhand : w.hand = none) (h : w.receive? isClosed = some w') :
    w'.weight queued held < w.weight queued held := by
  rcases w with ⟨queue, hand, hasEnded⟩
  simp only at hhand
  subst hhand
  cases queue with
  | nil =>
    simp only [receive?, Option.ite_none_right_eq_some, Bool.and_eq_true, Bool.not_eq_true',
      Option.some.injEq] at h
    obtain ⟨⟨-, rfl⟩, rfl⟩ := h
    simp [weight, ended]
  | cons r rest =>
    simp only [receive?, Option.some.injEq] at h
    subst h
    simp only [weight, List.length_cons, Nat.mul_add, Option.toList_some, Option.toList_none,
      List.length_nil]
    omega

theorem Worker.weight_release {w : Worker} {r : StreamRecord} (queued held : Nat)
    (hhand : w.hand = some r) : w.release.weight queued held + held = w.weight queued held := by
  simp only [weight, release, hhand, Option.toList_some, Option.toList_none, List.length_cons,
    List.length_nil, Nat.mul_zero, Nat.zero_add, Nat.mul_one]
  omega

theorem Worker.weight_enqueue {w w' : Worker} {capacity : Nat} {r : StreamRecord}
    (queued held : Nat) (h : w.enqueue? capacity r = some w') :
    w'.weight queued held = w.weight queued held + queued := by
  simp only [enqueue?, Option.ite_none_right_eq_some, Option.some.injEq] at h
  obtain ⟨-, rfl⟩ := h
  simp only [weight, put, List.length_append, List.length_singleton, Nat.mul_add]
  omega

theorem Worker.weight_ended (queued held : Nat) : ended.weight queued held = 0 := by
  simp [weight, ended]

theorem lanesWeight_set {lanes : List Worker} {index : Nat} {w : Worker}
    (h : lanes[index]? = some w) (w' : Worker) :
    lanesWeight (lanes.set index w') + w.weight 2 1 = lanesWeight lanes + w'.weight 2 1 := by
  induction lanes generalizing index with
  | nil => simp at h
  | cons v lanes ih =>
    cases index with
    | zero =>
      simp only [List.getElem?_cons_zero, Option.some.injEq] at h
      subst h
      simp only [List.set_cons_zero, lanesWeight]
      omega
    | succ index =>
      simp only [List.getElem?_cons_succ] at h
      have := ih h
      simp only [List.set_cons_succ, lanesWeight]
      omega

/-! ### Every step makes the weight smaller -/

theorem State.weight_heedStop {s s' : State} (h : s.heedStop? = some s') :
    s'.weight < s.weight := by
  obtain ⟨hgoing, -, rfl⟩ := heedStop?_eq_some_iff.1 h
  simp [weight, beginStop, hgoing]

theorem State.weight_admit {p : Plan} {s s' : State} (hphase : s.phase = .receiving)
    (h : s.admit? p = some s') : s'.weight < s.weight := by
  obtain ⟨r, inbound, htake, rfl⟩ := admit?_eq_some_iff.1 h
  have := congrArg List.length (Channel.take?_eq_some_iff.1 htake).1
  simp only [List.length_cons] at this
  simp only [weight, hphase]
  cases p.passCapacity <;> simp [Phase.weight] <;> omega

theorem State.weight_dispatch {p : Plan} {s s' : State} (h : s.dispatch? p = some s') :
    s'.weight < s.weight := by
  simp only [dispatch?] at h
  split at h
  · -- receiving: a stop, a record or the end of the records
    rename_i hphase
    simp only [Option.orElse_eq_orElse, Option.orElse_eq_or, Option.or_eq_some_iff] at h
    obtain h | ⟨-, h | ⟨-, h⟩⟩ := h
    · exact weight_heedStop h
    · exact weight_admit hphase h
    · split at h
      · simp only [Option.some.injEq] at h
        subst h
        simp [weight, hphase, Phase.weight]
      · simp at h
  · -- without its record for the forwarder the phase is 3 lighter, and the queue is 2 heavier
    rename_i r hphase
    split at h
    · simp only [Option.some.injEq] at h
      subst h
      simp only [weight, hphase, Phase.weight]
      omega
    split at h
    · rename_i forwarder henqueue
      simp only [Option.some.injEq] at h
      subst h
      have := Worker.weight_enqueue 2 1 henqueue
      simp only [weight, hphase, Phase.weight]
      omega
    · exact weight_heedStop h
  · -- without its record for the router it is 5 lighter, and the queue is 4 heavier
    rename_i r hphase
    split at h
    · simp only [Option.some.injEq] at h
      subst h
      simp only [weight, hphase, Phase.weight]
      omega
    split at h
    · rename_i router henqueue
      simp only [Option.some.injEq] at h
      subst h
      have := Worker.weight_enqueue 4 3 henqueue
      simp only [weight, hphase, Phase.weight]
      omega
    · exact weight_heedStop h
  · -- the last weight of the dispatcher goes with its end
    rename_i hphase
    split at h
    · simp only [Option.some.injEq] at h
      subst h
      simp [weight, hphase, Phase.weight]
    · simp at h
  all_goals simp at h

theorem State.weight_forward {p : Plan} {s s' : State} (h : s.forward? p = some s') :
    s'.weight < s.weight := by
  simp only [forward?] at h
  split at h
  · rename_i hhand
    simp only [Option.map_eq_some_iff] at h
    obtain ⟨forwarder, hreceive, rfl⟩ := h
    have := Worker.weight_receive 2 1 (by decide) hhand hreceive
    simp only [weight]
    omega
  · rename_i r hhand
    have := Worker.weight_release 2 1 hhand
    simp only [Option.bind_eq_bind, Option.bind_eq_some_iff, Option.pure_def, Option.some.injEq,
      Prod.exists] at h
    obtain ⟨delivery, passed, -, rfl⟩ := h
    simp only [weight]
    omega

theorem State.weight_route {p : Plan} {s s' : State} (h : s.route? p = some s') :
    s'.weight < s.weight := by
  simp only [route?] at h
  split at h
  · rename_i hhand
    simp only [Option.map_eq_some_iff] at h
    obtain ⟨router, hreceive, rfl⟩ := h
    have := Worker.weight_receive 4 3 (by decide) hhand hreceive
    simp only [weight]
    omega
  · rename_i r hhand
    have hrelease := Worker.weight_release 4 3 hhand
    have hended := Worker.weight_ended 4 3
    -- no lane, or one that has ended: the router ends with all that it had
    split at h
    · simp only [Option.some.injEq] at h
      subst h
      simp only [weight]
      omega
    · rename_i lane hlane
      split at h
      · simp only [Option.some.injEq] at h
        subst h
        simp only [weight]
        omega
      · simp only [Option.map_eq_some_iff] at h
        obtain ⟨lane', henqueue, rfl⟩ := h
        -- a record weighs less in a lane than in the hand of the router
        have hsum := lanesWeight_set hlane lane'
        have := Worker.weight_enqueue 2 1 henqueue
        simp only [weight]
        omega

/-- Scoring a record changes the channel of the alerts and the totals, and nothing else. -/
theorem State.score_frame {p : Plan} {s s' : State} {r : StreamRecord}
    (h : s.score? p r = some s') : { s' with alerts := s.alerts, totals := s.totals } = s := by
  simp only [score?] at h
  split at h
  · simp only [Option.some.injEq] at h
    subst h
    rfl
  · simp only [Option.some.injEq] at h
    subst h
    rfl
  · simp only [Option.bind_eq_bind, Option.bind_eq_some_iff, Option.pure_def, Option.some.injEq,
      Prod.exists] at h
    obtain ⟨delivery, alerts, -, rfl⟩ := h
    rfl

theorem State.weight_runLane {p : Plan} {index : Nat} {s s' : State}
    (h : s.runLane? p index = some s') : s'.weight < s.weight := by
  simp only [runLane?, Option.bind_eq_bind, Option.bind_eq_some_iff] at h
  obtain ⟨lane, hlane, h⟩ := h
  split at h
  · rename_i hhand
    simp only [Option.bind_eq_some_iff, Option.pure_def, Option.some.injEq] at h
    obtain ⟨lane', hreceive, rfl⟩ := h
    have hsum := lanesWeight_set hlane lane'
    have := Worker.weight_receive 2 1 (by decide) hhand hreceive
    simp only [weight]
    omega
  · rename_i r hhand
    simp only [Option.bind_eq_some_iff, Option.pure_def, Option.some.injEq] at h
    obtain ⟨t, hscore, rfl⟩ := h
    have hsum := lanesWeight_set hlane lane.release
    have := Worker.weight_release 2 1 hhand
    -- what scoring changes has no weight
    have hsame := score_frame hscore
    simp only [weight]
    rw [← hsame] at hsum ⊢
    simp only at hsum ⊢
    omega

/-- A step makes the weight smaller. -/
theorem weight_lt_of_step {p : Plan} {task : Task} {s s' : State} (h : step p task s = some s') :
    s'.weight < s.weight := by
  cases task with
  | dispatcher => exact State.weight_dispatch h
  | forwarder => exact State.weight_forward h
  | router => exact State.weight_route h
  | lane index => exact State.weight_runLane h

/-! ### Rest -/

/-- All tasks of a pipeline, in the order in which they begin. -/
def Plan.tasks (p : Plan) : List Task :=
  .dispatcher :: ((List.range p.laneCount).map .lane ++ [.router, .forwarder])

/-- Whether no task can make a step. -/
def isAtRest (p : Plan) (s : State) : Bool := p.tasks.all fun task => (step p task s).isNone

end TrustBoundary.Pipeline
