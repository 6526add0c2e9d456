import TrustBoundary.Proofs.Pipeline.Wiring

/-!
# Forwarding

At all times there is a list `passedOn` of the records that the forwarder is done with, in the order
in which it was (`exists_forwards`).  All records go through the one forwarder, so with those that
it still has before it they are the records that were accepted, in the order of acceptance.
-/

namespace TrustBoundary.Pipeline

/-- The record that the dispatcher holds and that does not wait for the forwarder yet. -/
def Phase.toForward : Phase → List StreamRecord
  | .forwarding r => [r]
  | .unstarted | .receiving | .routing _ | .draining | .finished | .discarded => []

/-- The forwarder is done with the records `passedOn`, and the pass-through consumer was given
those of them that the totals tell. -/
structure Forwards (p : Plan) (s : State) (passedOn : List StreamRecord) : Prop where
  order : p.passCapacity.isSome = true →
    passedOn ++ (s.forwarder.content ++ s.phase.toForward ++ s.inbound.waiting) = s.inbound.log
  /-- Without a pass-through consumer nothing is passed on. -/
  idle : p.passCapacity = none → passedOn = []
  passed : s.passed.log.Sublist passedOn
  forwarded : s.totals.forwarded = s.passed.log.length
  /-- No record is lost while its consumer is there, unless the pipeline is stopping. -/
  kept : s.isStopping = false → s.passed.isOpen = true → s.passed.log = passedOn

namespace Forwards

variable {p : Plan} {s s' : State} {passedOn : List StreamRecord}

theorem initial (p : Plan) : Forwards p (.initial p) [] where
  order _ := rfl
  idle _ := rfl
  passed := List.nil_sublist _
  forwarded := rfl
  kept _ _ := rfl

theorem touch (hf : Forwards p s passedOn) (hw : Wired p s) {a : Action} (h : Touch p s a s') :
    Forwards p s' passedOn := by
  cases h with
  | nothing => exact hf
  | start hphase | discard hphase =>
    refine { hf with order := fun hsome => ?_ }
    have horder := hf.order hsome
    rw [hphase] at horder
    exact horder
  | @send r haccepted =>
    refine { hf with order := fun hsome => ?_ }
    -- the new record is the last one at the entrance and in the log
    have horder := congrArg (· ++ [r]) (hf.order hsome)
    rw [Channel.waiting_put hw.taken_le, ← List.append_assoc, ← List.append_assoc]
    rw [← List.append_assoc] at horder
    exact horder
  | dropPassed => exact { hf with kept := nofun }
  | takePassed htake =>
    obtain ⟨-, rfl⟩ := Channel.take?_eq_some_iff.1 htake
    exact { hf with }
  | stop | closeInbound | dropHandle | dropAlerts | takeAlert => exact { hf with }

/-- What is under way to the forwarder stays the same. -/
theorem of_phase (hf : Forwards p s passedOn) (phase : Phase)
    (hphase : phase.toForward = s.phase.toForward) : Forwards p { s with phase } passedOn := by
  refine { hf with order := fun hsome => ?_ }
  have horder := hf.order hsome
  rw [← hphase] at horder
  exact horder

/-- The forwarder is done with the record that it holds. -/
theorem order_forward (hf : Forwards p s passedOn) {r : StreamRecord}
    (hhand : s.forwarder.hand = some r) (hsome : p.passCapacity.isSome = true) :
    passedOn ++ [r] ++ (s.forwarder.release.content ++ s.phase.toForward ++ s.inbound.waiting) =
      s.inbound.log := by
  have horder := hf.order hsome
  rw [Worker.content_eq_cons hhand] at horder
  rw [List.append_assoc]
  exact horder

/-- The forwarder is done with a record.  The record is in the channel of its consumer, or the
consumer is gone, or the record is given up. -/
theorem forward (hf : Forwards p s passedOn) (hw : Wired p s) {r : StreamRecord} {d : Delivery}
    {passed : Channel} (hhand : s.forwarder.hand = some r)
    (hdeliver : s.passed.deliver? (p.passCapacity.getD 0) s.isStopping r = some (d, passed)) :
    Forwards p { s with
      forwarder := s.forwarder.release, passed, totals := s.totals.countForward d }
      (passedOn ++ [r]) := by
  have hsome := hw.isSome_of_hand hhand
  have horder := hf.order_forward hhand hsome
  have hidle : p.passCapacity = none → passedOn ++ [r] = [] := by
    intro hnone
    rw [hnone] at hsome
    cases hsome
  have hlost : s.passed.log.Sublist (passedOn ++ [r]) :=
    hf.passed.trans (List.sublist_append_left _ _)
  obtain ⟨hopen, rfl, rfl⟩ | ⟨hopen, -, rfl, rfl⟩ | ⟨hopen, -, hstopping, rfl, rfl⟩ :=
    Channel.deliver?_eq_some_iff.1 hdeliver
  · -- the consumer is gone
    refine { hf with order := fun _ => horder, idle := hidle, passed := hlost, kept := ?_ }
    intro _ h
    rw [hopen] at h
    cases h
  · -- the record is in the channel, and so are all before it if nothing was lost
    refine { hf with
      order := fun _ => horder
      idle := hidle
      passed := hf.passed.append (List.Sublist.refl [r])
      forwarded := ?_
      kept := ?_ }
    · simp [Totals.countForward, Channel.put, hf.forwarded]
    · intro hgoing _
      exact congrArg (· ++ [r]) (hf.kept hgoing hopen)
  · -- the record is given up, which happens only when the pipeline is stopping
    refine { hf with order := fun _ => horder, idle := hidle, passed := hlost, kept := ?_ }
    intro h
    rw [hstopping] at h
    cases h

/-- A move passes no record on, or it passes one on and does with the channel what becomes of a
delivery. -/
theorem move (hf : Forwards p s passedOn) (hw : Wired p s) (h : Move p s s') :
    Forwards p s' passedOn ∧ s'.passed = s.passed ∨
    ∃ r d, Forwards p s' (passedOn ++ [r]) ∧
      s.passed.deliver? (p.passCapacity.getD 0) s.isStopping r = some (d, s'.passed) := by
  cases h with
  | heedStop hphase hgoing hstop =>
    refine .inl ⟨{ hf with kept := ?_ }, rfl⟩
    intro h
    cases h
  | @takeIn r inbound hphase hheed htake =>
    obtain ⟨hwaiting, rfl⟩ := Channel.take?_eq_some_iff.1 htake
    refine .inl ⟨{ hf with order := fun hsome => ?_ }, rfl⟩
    -- the dispatcher has the record in its hand, in front of those at the entrance
    have horder := hf.order hsome
    rw [hwaiting, hphase] at horder
    simpa [hsome, Phase.toForward] using horder
  | close hphase hheed hwaiting hclosed =>
    refine .inl ⟨hf.of_phase .draining ?_, rfl⟩
    rw [hphase]
    rfl
  | @handToForwarder r hphase hroom =>
    refine .inl ⟨{ hf with order := fun hsome => ?_ }, rfl⟩
    -- from its hand the record goes behind all that the forwarder has
    have horder := hf.order hsome
    rw [hphase] at horder
    simpa [Phase.toForward] using horder
  | @handToRouter r hphase hroom =>
    refine .inl ⟨{ hf.of_phase .receiving ?_ with }, rfl⟩
    rw [hphase]
    rfl
  | finish hphase hended =>
    refine .inl ⟨{ hf.of_phase .finished ?_ with }, rfl⟩
    rw [hphase]
    rfl
  | forwarderReceives hhand hreceive =>
    refine .inl ⟨{ hf with order := fun hsome => ?_ }, rfl⟩
    rw [(Worker.of_receive?_eq_some hhand hreceive).1]
    exact hf.order hsome
  | forward hhand hdeliver => exact .inr ⟨_, _, hf.forward hw hhand hdeliver, hdeliver⟩
  | @raise index lane r a d alerts hlane hhand halert hdeliver =>
    exact .inl ⟨by cases d <;> exact { hf with }, rfl⟩
  | routerReceives | route | laneReceives | score => exact .inl ⟨{ hf with }, rfl⟩

end Forwards

/-- What the forwarder is done with, for every pipeline and at all times. -/
theorem exists_forwards (p : Plan) (history : List Event) :
    ∃ passedOn, Forwards p (p.after history) passedOn := by
  refine (Wired.initial p).after_induction (motive := fun s => ∃ passedOn, Forwards p s passedOn)
    ⟨[], .initial p⟩ ?_ ?_
  · intro s a s' hw _ ⟨passedOn, hf⟩ h
    exact ⟨passedOn, hf.touch hw h⟩
  · intro s s' hw ⟨passedOn, hf⟩ h
    obtain ⟨hf', -⟩ | ⟨r, d, hf', -⟩ := hf.move hw h
    · exact ⟨passedOn, hf'⟩
    · exact ⟨passedOn ++ [r], hf'⟩

end TrustBoundary.Pipeline
