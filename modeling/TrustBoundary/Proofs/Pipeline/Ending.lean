import TrustBoundary.Proofs.Pipeline.Accounts

/-!
# The end

When a pipeline has come to its end, no record is under way (`Wired.pending_eq_nil`), no task can
make a move (`Wired.not_move_of_finished`), and whatever the outside still does, the results stay as
they are (`keeps_after`) and it is told that the pipeline is over (`over_after`).
-/

namespace TrustBoundary.Pipeline

variable {p : Plan} {s s' : State}

/-! ### No record is left -/

theorem Wired.pending_eq_nil (hw : Wired p s) (hphase : s.phase = .finished) :
    s.pending = [] := by
  obtain ⟨-, hrouter, hlanes⟩ := State.workersEnded_iff.1 (hw.finished hphase).1
  have hnone : s.lanes.flatMap Worker.content = [] := by
    rw [List.flatMap_eq_nil_iff]
    intro w hmem
    exact (hw.lane_end w hmem (hlanes w hmem)).2
  rw [State.pending, hnone, (hw.router_end hrouter).2, hphase]
  rfl

theorem Wired.waiting_eq_nil (hw : Wired p s) (hphase : s.phase = .finished) :
    s.inbound.waiting = [] := by
  refine (hw.closed ?_).1
  rw [hphase]
  rfl

/-- At the end the lanes are done with all records. -/
theorem Accounts.order_of_finished {done : List StreamRecord} (ha : Accounts p s done)
    (hw : Wired p s) (hphase : s.phase = .finished) : SameByKey done s.inbound.log := by
  have horder := ha.order
  rwa [hw.pending_eq_nil hphase, hw.waiting_eq_nil hphase, List.append_nil,
    List.append_nil] at horder

/-! ### Nothing changes any more -/

/-- At the end no task makes a move. -/
theorem Wired.not_move_of_finished (hw : Wired p s) (hphase : s.phase = .finished) :
    ¬ Move p s s' := by
  intro h
  cases h with
  -- the dispatcher moves in other phases only
  | heedStop hopen hgoing hstop =>
    rw [hphase] at hopen
    cases hopen
  | takeIn h | close h | handToForwarder h | handToRouter h | finish h =>
    rw [hphase] at h
    cases h
  -- a worker that moves has not ended, but at the end all of them have
  | forwarderReceives hhand hreceive =>
    have hgoing := hw.forwarder_end.going_of_receive hreceive
    exact hw.ne_finished_of_going (.inl rfl) hgoing hphase
  | forward hhand hdeliver =>
    have hgoing := hw.forwarder_end.going_of_hand hhand
    exact hw.ne_finished_of_going (.inl rfl) hgoing hphase
  | routerReceives hhand hreceive =>
    have hgoing := hw.router_end.going_of_receive hreceive
    exact hw.ne_finished_of_going (.inr (.inl rfl)) hgoing hphase
  | route hhand hlane hopen hroom =>
    have hgoing := hw.router_end.going_of_hand hhand
    exact hw.ne_finished_of_going (.inr (.inl rfl)) hgoing hphase
  | laneReceives hlane hhand hreceive =>
    have hmem := List.mem_of_getElem? hlane
    have hgoing := (hw.lane_end _ hmem).going_of_receive hreceive
    exact hw.ne_finished_of_going (.inr (.inr hmem)) hgoing hphase
  | score hlane hhand | raise hlane hhand =>
    have hmem := List.mem_of_getElem? hlane
    have hgoing := (hw.lane_end _ hmem).going_of_hand hhand
    exact hw.ne_finished_of_going (.inr (.inr hmem)) hgoing hphase

/-- The results in `t` are those in `s`. -/
structure State.Keeps (s t : State) : Prop where
  phase : t.phase = s.phase
  isStopping : t.isStopping = s.isStopping
  totals : t.totals = s.totals
  returned : t.returned = s.returned
  inbound : t.inbound.log = s.inbound.log
  alerts : t.alerts.log = s.alerts.log
  passed : t.passed.log = s.passed.log

theorem State.Keeps.touch {t t' : State} (hk : s.Keeps t) (hphase : s.phase = .finished)
    {a : Action} (h : Touch p t a t') : s.Keeps t' := by
  have hover : t.isOver = true := by
    rw [isOver, hk.phase, hphase]
    rfl
  cases h with
  | nothing => exact hk
  | start hunstarted | discard hunstarted =>
    rw [hk.phase, hphase] at hunstarted
    cases hunstarted
  | send haccepted =>
    -- what is over accepts neither records nor stops
    have hgoing := (sendReply_eq_accepted_iff.1 haccepted).2.2.1
    exact absurd (hover.symm.trans hgoing) nofun
  | stop haccepted =>
    have hgoing := (stopReply_eq_accepted_iff.1 haccepted).2.1
    exact absurd (hover.symm.trans hgoing) nofun
  | takeAlert htake =>
    obtain ⟨-, rfl⟩ := Channel.take?_eq_some_iff.1 htake
    exact { hk with }
  | takePassed htake =>
    obtain ⟨-, rfl⟩ := Channel.take?_eq_some_iff.1 htake
    exact { hk with }
  | closeInbound | dropHandle | dropAlerts | dropPassed => exact { hk with }

/-- Whatever happens after the end, the results stay as they are. -/
theorem keeps_after (p : Plan) {history : List Event}
    (hphase : (p.after history).phase = .finished) (events : List Event) :
    (p.after history).Keeps (p.after (history ++ events)) := by
  rw [p.after_append]
  have hw := wired_after p history
  refine hw.after_induction ⟨rfl, rfl, rfl, rfl, rfl, rfl, rfl⟩ ?_ ?_
  · intro t a t' hw' ha hk h
    exact hk.touch hphase h
  · intro t t' hw' hk h
    exact absurd h (hw'.not_move_of_finished (hk.phase.trans hphase))

/-- After the end the pipeline says that it is over, and it accepts neither records nor stops. -/
theorem over_after (p : Plan) {history : List Event}
    (hphase : (p.after history).phase = .finished) (events : List Event) :
    (p.after (history ++ events)).isOver = true ∧
    (p.after (history ++ events)).sendReply p = .closed ∧
    ((p.after (history ++ events)).hasHandle = true →
      (p.after (history ++ events)).stopReply = .gone) := by
  have hover : (p.after (history ++ events)).isOver = true := by
    rw [State.isOver, (keeps_after p hphase events).phase, hphase]
    rfl
  refine ⟨hover, ?_, ?_⟩
  · rw [State.sendReply, hover, Bool.or_true]
    rfl
  · intro hhandle
    rw [State.stopReply, hhandle, hover]
    rfl

end TrustBoundary.Pipeline
