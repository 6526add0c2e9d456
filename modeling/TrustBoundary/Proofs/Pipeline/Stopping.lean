import TrustBoundary.Proofs.Pipeline.Quiescence

/-!
# Stopping

A stop that is accepted ends the pipeline, whatever it is at and whatever the consumers do, with one
exception (`finished_iff_of_stop`).  The dispatcher looks for stops only as long as it takes records
in: when the producer is gone and all its records are handed on, a stop is still accepted, but
nobody takes it up, and a consumer that does not take what is put out for it keeps the pipeline
from its end (`not_forall_finished_of_stop`).
-/

namespace TrustBoundary.Pipeline

variable {p : Plan} {s s' : State}

/-! ### Stops that are heeded -/

/-- A stop was taken up, or one waits that the dispatcher still looks for. -/
def State.HeedsStop (s : State) : Prop :=
  s.isStopping = true ∨ 0 < s.commands ∧ s.phase.isClosed = false

theorem State.HeedsStop.touch (hs : s.HeedsStop) {a : Action} (h : Touch p s a s') :
    s'.HeedsStop := by
  cases h with
  | start | discard => exact hs.imp_right fun h => ⟨h.1, rfl⟩
  | stop => exact hs.imp_right fun h => ⟨Nat.succ_pos _, h.2⟩
  | _ => exact hs

/-- The dispatcher does not stop to take records in before it took up the stop that waits. -/
theorem State.HeedsStop.move (hs : s.HeedsStop) (h : Move p s s') : s'.HeedsStop := by
  cases h with
  | heedStop => exact .inl rfl
  | takeIn hphase hheed htake =>
    refine hs.imp_right fun h => ⟨h.1, ?_⟩
    show (if p.passCapacity.isSome then Phase.forwarding _ else .routing _).isClosed = false
    split <;> rfl
  | close hphase hheed hwaiting hclosed =>
    -- the dispatcher looks for stops before it closes the queues
    obtain hstopping | ⟨hcommand, -⟩ := hs
    · exact .inl hstopping
    · obtain hstopping | ⟨hnone, -⟩ := heedStop?_eq_none_iff.1 hheed
      · exact .inl hstopping
      · exact absurd hnone (Nat.ne_of_gt hcommand)
  | handToForwarder | handToRouter => exact hs.imp_right fun h => ⟨h.1, rfl⟩
  | finish hphase hended =>
    -- the queues are closed already, so the stop was taken up before
    obtain hstopping | ⟨-, hopen⟩ := hs
    · exact .inl hstopping
    · rw [hphase] at hopen
      cases hopen
  | _ => exact hs

/-- A pipeline at rest that heeds stops has come to its end. -/
theorem Wired.finished_of_heedsStop (hw : Wired p s) (hstarted : s.IsStarted)
    (hrest : isAtRest p s = true) (hs : s.HeedsStop) : s.phase = .finished := by
  have hstep : s.dispatch? p = none := hw.step_eq_none hrest .dispatcher
  have hstopping : s.isStopping = true := by
    obtain hstopping | ⟨hcommand, hopen⟩ := hs
    · exact hstopping
    -- a stop that waits would be taken up by a dispatcher that is not closing
    obtain hphase | ⟨hphase, -⟩ | ⟨hheed, -⟩ := State.of_dispatch?_eq_none hstarted hstep
    · rw [hphase] at hopen
      cases hopen
    · rw [hphase] at hopen
      cases hopen
    · obtain hstopping | ⟨hnone, -⟩ := State.heedStop?_eq_none_iff.1 hheed
      · exact hstopping
      · exact absurd hnone (Nat.ne_of_gt hcommand)
  -- a pipeline that is stopping is neither idle nor kept waiting
  obtain hphase | hidle | ⟨hgoing, -⟩ := hw.rest_cases hstarted hrest
  · exact hphase
  · exact absurd (hstopping.symm.trans hidle.going) nofun
  · exact absurd (hstopping.symm.trans hgoing) nofun

/-- A pipeline that accepts a stop still looks for it, or has taken one up, unless it is waiting for
its workers. -/
theorem State.stopping_or_open_of_accepted (haccepted : s.stopReply = .accepted)
    (htimely : ¬ (s.phase = .draining ∧ s.isStopping = false)) :
    s.isStopping = true ∨ s.phase.isClosed = false := by
  have hgoing := (stopReply_eq_accepted_iff.1 haccepted).2.1
  cases hphase : s.phase with
  | draining =>
    cases hstopping : s.isStopping with
    | true => exact .inl rfl
    | false => exact absurd ⟨hphase, hstopping⟩ htimely
  | finished =>
    rw [isOver, hphase] at hgoing
    cases hgoing
  | _ => exact .inr rfl

/-! ### Stops that come too late -/

/-- The queues behind the dispatcher are not opened again. -/
theorem Wired.isClosed_after (hw : Wired p s) (hclosed : s.phase.isClosed = true)
    (events : List Event) : (s.after p events).phase.isClosed = true := by
  refine hw.after_induction (motive := fun s => s.phase.isClosed = true) hclosed ?_ ?_
  · intro s a s' _ _ hs h
    cases h with
    | start hphase | discard hphase =>
      rw [hphase] at hs
      cases hs
    | _ => exact hs
  · intro s s' _ hs h
    cases h with
    | takeIn hphase | handToForwarder hphase | handToRouter hphase =>
      rw [hphase] at hs
      cases hs
    | close | finish => rfl
    | _ => exact hs

/-- At its end the pipeline waits for nobody. -/
theorem Wired.not_waits_of_finished (hw : Wired p s) (hphase : s.phase = .finished) :
    ¬ (s.WaitsForAlerts p ∨ s.WaitsForPassed p) := by
  rintro (⟨-, -, w, hmem, r, a, hhand, -⟩ | ⟨-, -, r, hhand⟩)
  · have hgoing := (hw.lane_end w hmem).going_of_hand hhand
    exact hw.ne_finished_of_going (.inr (.inr hmem)) hgoing hphase
  · have hgoing := hw.forwarder_end.going_of_hand hhand
    exact hw.ne_finished_of_going (.inl rfl) hgoing hphase

/-- A stop that is accepted waits at first. -/
theorem after_stop {before : List Event} (haccepted : (p.after before).stopReply = .accepted)
    (events : List Event) : p.after (before ++ .act .stop :: events) =
      { p.after before with commands := (p.after before).commands + 1 }.after p events := by
  have hstop : (p.after before).next p (.act .stop) =
      { p.after before with commands := (p.after before).commands + 1 } := by
    show (p.after before).stop = _
    rw [State.stop, if_pos haccepted]
  rw [← hstop]
  exact p.after_append before _

theorem heedsStop_of_stop {before events : List Event}
    (haccepted : (p.after before).stopReply = .accepted)
    (htimely : ¬ ((p.after before).phase = .draining ∧ (p.after before).isStopping = false)) :
    (p.after (before ++ .act .stop :: events)).HeedsStop := by
  rw [after_stop haccepted]
  have hw := (wired_after p before).touch (.stop haccepted)
  refine hw.after_induction ?_ (fun _ _ _ _ _ hs h => hs.touch h) fun _ _ _ hs h => hs.move h
  exact (State.stopping_or_open_of_accepted haccepted htimely).imp_right
    fun hopen => ⟨Nat.succ_pos _, hopen⟩

theorem isClosed_of_stop {before events : List Event}
    (haccepted : (p.after before).stopReply = .accepted)
    (hclosed : (p.after before).phase.isClosed = true) :
    (p.after (before ++ .act .stop :: events)).phase.isClosed = true := by
  rw [after_stop haccepted]
  exact ((wired_after p before).touch (.stop haccepted)).isClosed_after hclosed events

/-- A pipeline rests after a stop that was accepted.  It has come to its end, unless it was only
waiting for its workers when the stop came and one of these still waits for a consumer.  At its end
it says so, and it accepts neither records nor stops, whatever happens then. -/
theorem finished_iff_of_stop (p : Plan) (before events : List Event)
    (haccepted : (p.after before).stopReply = .accepted)
    (hstarted : (p.after (before ++ .act .stop :: events)).IsStarted)
    (hrest : isAtRest p (p.after (before ++ .act .stop :: events)) = true) :
    let s := p.after before
    let t := p.after (before ++ .act .stop :: events)
    (t.phase = .finished ↔ ¬ (s.phase = .draining ∧ s.isStopping = false ∧
      (t.WaitsForAlerts p ∨ t.WaitsForPassed p))) ∧
    (t.phase = .finished → ∀ later,
      let u := p.after (before ++ .act .stop :: events ++ later)
      u.isOver = true ∧ u.sendReply p = .closed ∧ (u.hasHandle = true → u.stopReply = .gone)) := by
  intro s t
  have hw : Wired p t := wired_after p _
  refine ⟨⟨?_, ?_⟩, fun hphase => over_after p hphase⟩
  · rintro hphase ⟨-, -, hwaits⟩
    exact hw.not_waits_of_finished hphase hwaits
  · intro hlate
    by_cases hdraining : s.phase = .draining ∧ s.isStopping = false
    · -- the stop came too late, and the pipeline ends only because nobody keeps it
      have hclosed : s.phase.isClosed = true := by
        rw [hdraining.1]
        rfl
      obtain hphase | hidle | ⟨-, hwaits⟩ := hw.rest_cases hstarted hrest
      · exact hphase
      · have hstill : t.phase.isClosed = true := isClosed_of_stop haccepted hclosed
        rw [hidle.receiving] at hstill
        cases hstill
      · exact absurd ⟨hdraining.1, hdraining.2, hwaits⟩ hlate
    · -- the stop came in time, so the dispatcher takes it up before it comes to rest
      exact hw.finished_of_heedsStop hstarted hrest (heedsStop_of_stop haccepted hdraining)

theorem finished_iff_of_stop_early :
    (Plan.narrow.after [.act .start]).stopReply = .accepted ∧
    (Plan.narrow.after ([.act .start] ++ .act .stop :: Plan.narrow.turns)).phase = .finished := by
  have haccepted : (Plan.narrow.after [.act .start]).stopReply = .accepted := by decide +kernel
  refine ⟨haccepted, ?_⟩
  refine (finished_iff_of_stop .narrow [.act .start] Plan.narrow.turns haccepted ⟨?_, ?_⟩ ?_).1.2 ?_
  · decide +kernel
  · decide +kernel
  · decide +kernel
  · rintro ⟨hphase, -⟩
    exact absurd hphase (by decide +kernel)

/-- Not every stop that is accepted ends the pipeline: when it comes after the producer went away,
the second alert still waits for a consumer who does not take the first. -/
theorem not_forall_finished_of_stop :
    ¬ ∀ (p : Plan) (before events : List Event),
      (p.after before).stopReply = .accepted →
      (p.after (before ++ .act .stop :: events)).IsStarted →
      isAtRest p (p.after (before ++ .act .stop :: events)) = true →
      (p.after (before ++ .act .stop :: events)).phase = .finished := by
  intro h
  have hfinished := h .narrow twoAlerts Plan.narrow.turns (by decide +kernel)
    ⟨by decide +kernel, by decide +kernel⟩ (by decide +kernel)
  exact absurd hfinished (by decide +kernel)

end TrustBoundary.Pipeline
